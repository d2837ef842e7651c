import BuildScribe.Proofs.Layout.Phrase
import BuildScribe.Proofs.Rendering.Formatting
import BuildScribe.Proofs.Rendering.Statements
import BuildScribe.Proofs.Target.CommentText

/-!
# Lines of comments

A comment among the statements of a block is written as one line for every line of its text,
as deep as the block is. What surrounds these lines does not depend on the comment, so the
lines of its text can be told from the output.
-/

namespace BuildScribe

/-- What stands before the first line break is told by the text. -/
theorem append_break_inj {first second behind rest : List Char} {c other : Char}
    (onFirst : IsUnbroken first) (onSecond : IsUnbroken second) (breaks : isBreak c = true)
    (otherBreaks : isBreak other = true)
    (same : first ++ c :: behind = second ++ other :: rest) :
    first = second ∧ c :: behind = other :: rest := by
  induction first generalizing second with
  | nil =>
      cases second with
      | nil => exact ⟨rfl, same⟩
      | cons d more =>
          have noBreak := onSecond d List.mem_cons_self
          rw [← (List.cons.inj same).1, breaks] at noBreak
          cases noBreak
  | cons d more ih =>
      have goesOn := List.forall_mem_cons.mp onFirst
      cases second with
      | nil =>
          have noBreak := goesOn.1
          rw [(List.cons.inj same).1, otherBreaks] at noBreak
          cases noBreak
      | cons e others =>
          obtain ⟨rfl, sameMore⟩ := List.cons.inj same
          obtain ⟨equal, ends⟩ := ih goesOn.2 (List.forall_mem_cons.mp onSecond).2 sameMore
          exact ⟨congrArg (d :: ·) equal, ends⟩

/-- Lines that end with a line break can be told from the text that they make. -/
theorem flatMap_line_inj {start ending : List Char} (breaks : ∃ c ∈ ending, isBreak c = true)
    {first second : List (List Char)} (onFirst : ∀ line ∈ first, IsUnbroken line)
    (onSecond : ∀ line ∈ second, IsUnbroken line)
    (same : first.flatMap (fun line => start ++ (line ++ ending)) =
      second.flatMap fun line => start ++ (line ++ ending)) :
    first = second := by
  obtain ⟨c, found⟩ := Option.isSome_iff_exists.mp (List.find?_isSome.mpr breaks)
  obtain ⟨isBreak, front, back, rfl, unbroken⟩ := List.find?_eq_some_iff_append.mp found
  have onFront : IsUnbroken front := fun c isPart => by simpa using unbroken c isPart
  induction first generalizing second with
  | nil =>
      cases second with
      | nil => rfl
      | cons line others => simp at same
  | cons line others ih =>
      cases second with
      | nil => simp at same
      | cons other rest =>
          rw [List.forall_mem_cons] at onFirst onSecond
          simp only [List.flatMap_cons, List.append_assoc, List.append_cancel_left_eq] at same
          rw [← List.append_assoc line, ← List.append_assoc other, List.cons_append] at same
          obtain ⟨heads, tails⟩ := append_break_inj
            (List.forall_mem_append.mpr ⟨onFirst.1, onFront⟩)
            (List.forall_mem_append.mpr ⟨onSecond.1, onFront⟩) isBreak isBreak same
          have sameLine := List.append_cancel_right heads
          have sameRest := List.append_cancel_left (List.cons.inj tails).2
          rw [sameLine, ih onFirst.2 onSecond.2 (by simpa using sameRest)]

/-- The lines of a comment at a depth, one for each line of its text. -/
def commentLines (depth : Nat) (text : String) : List Line :=
  (textLines text).map fun line => ⟨depth, commentLine line⟩

theorem map_content_commentLines (depth : Nat) (text : String) :
    (commentLines depth text).map Line.content = (textLines text).map commentLine := by
  simp [commentLines, Function.comp_def]

theorem toList_linesText_commentLines (options : LayoutOptions) (depth : Nat)
    (text : String) :
    (linesText options (commentLines depth text)).toList =
      (((textLines text).map commentLine).map String.toList).flatMap fun line =>
        Buffer.indentChars options depth ++ (line ++ options.lineEnding.toList) := by
  have spelled (line : String) : Line.text options ⟨depth, commentLine line⟩ =
      String.ofList (Buffer.indentChars options depth) ++ commentLine line ++
        options.lineEnding := by
    have shown : (commentLine line).isEmpty = false := by
      simpa using Fragment.commentLine_ne_empty line
    rw [Line.text, Line.shown, shown]
    rfl
  unfold commentLines
  induction textLines text with
  | nil => rfl
  | cons line rest ih =>
      simp only [List.map_cons, List.flatMap_cons, ← ih]
      simp [linesText, spelled]

/-- Two comments of one depth whose lines make the same text have texts with the same
lines, if the line ending is a line break. -/
theorem textLines_eq_of_linesText {options : LayoutOptions}
    (breaks : ∃ c ∈ options.lineEnding.toList, isBreak c = true) {depth : Nat}
    {first second : String}
    (same : linesText options (commentLines depth first) =
      linesText options (commentLines depth second)) :
    textLines first = textLines second := by
  have unbroken (text : String) :
      ∀ line ∈ ((textLines text).map commentLine).map String.toList, IsUnbroken line := by
    simp only [List.forall_mem_map]
    exact fun line isLine => isUnbroken_commentLine isLine
  have sameChars := congrArg String.toList same
  rw [toList_linesText_commentLines, toList_linesText_commentLines] at sameChars
  have sameLines := flatMap_line_inj breaks (unbroken first) (unbroken second) sameChars
  exact textLines_eq_of_map_commentLine
    ((List.map_inj_right fun _ _ => String.toList_injective).mp sameLines)

namespace Generator

variable {generator : Generator} {around : List Shell}

/-- What stands above and below the lines of a comment does not depend on the comment. -/
theorem exists_prints_comment (siblings : ∀ outer ∈ around, generator.CanEnclose outer) :
    ∃ above below, ∀ info text,
      generator.Prints true (.enclosed around (.comment info text))
        (above ++ commentLines around.length text ++ below) := by
  obtain ⟨above, below, inside⟩ := layout_enclosed siblings true
  refine ⟨above, below, ?_⟩
  intro info text
  have deeper :
      (generator.layout true (.comment info text)).map (Line.deeper around.length) =
        commentLines around.length text := by
    rw [layout_commentNode, if_pos rfl]
    simp [commentLines, Line.deeper, Function.comp_def]
  have renderable : generator.CanRender (.comment info text) := canRender_comment info text
  have lines := inside _ renderable
  rw [deeper] at lines
  rw [← lines]
  exact (canRender_enclosed siblings renderable).prints true

/-- A comment inside blocks is written as one line for every line of its text, each as deep
as the blocks around it: two slashes, a blank unless the line is empty, and the line, with no
line break inside. So the lines tell the lines of the text, and the whole output tells them if
the line ending is a line break. -/
theorem comment_keeps_lines (siblings : ∀ outer ∈ around, generator.CanEnclose outer) :
    (∀ text lines, HasLines text lines ↔ lines = textLines text) ∧
    (∃ above below, ∀ info text,
      generator.Prints true (.enclosed around (.comment info text))
        (above ++ commentLines around.length text ++ below)) ∧
    (∀ text, ∀ line ∈ textLines text,
      (∃ shown, commentLine line = "//" ++ shown) ∧
        IsUnbroken (commentLine line).toList ∧ commentText (commentLine line) = line) ∧
    (∀ first second,
      commentLines around.length first = commentLines around.length second →
        textLines first = textLines second) ∧
    (∀ (options : LayoutOptions), options.comments = true →
      (∃ c ∈ options.lineEnding.toList, isBreak c = true) →
      ∀ info other first second rendering changed,
        generator.generate (.enclosed around (.comment info first)) options =
            .ok rendering →
          generator.generate (.enclosed around (.comment other second)) options =
              .ok changed →
            rendering.text = changed.text → textLines first = textLines second) := by
  obtain ⟨above, below, prints⟩ := exists_prints_comment siblings
  refine ⟨fun _ _ => hasLines_iff, ⟨above, below, prints⟩, ?_, ?_, ?_⟩
  · intro text line isLine
    exact ⟨exists_commentLine_eq line, isUnbroken_commentLine isLine,
      commentText_commentLine line⟩
  · intro first second same
    apply textLines_eq_of_map_commentLine
    rw [← map_content_commentLines, same, map_content_commentLines]
  · intro options shown breaks info other first second rendering changed onFirst onSecond same
    have text {info : Metadata} {text : String} {rendering : Rendering}
        (succeeds : generator.generate (.enclosed around (.comment info text)) options =
          .ok rendering) :
        rendering.text = linesText options above ++
          (linesText options (commentLines around.length text) ++
            linesText options below) := by
      obtain ⟨printed, known, lines⟩ := prints info text options shown
      rw [known] at succeeds
      cases succeeds
      rw [lines, linesText_append, linesText_append, String.append_assoc]
    rw [text onFirst, text onSecond] at same
    have sameLines : linesText options (commentLines around.length first) =
        linesText options (commentLines around.length second) := by
      simpa [← String.toList_inj] using same
    exact textLines_eq_of_linesText breaks sameLines

theorem lines_of_comment_in_two_blocks :
    (∀ outer ∈ [Shell.mk ⟨.block, none, .empty⟩ [.ofString "a"] [],
        ⟨⟨.block, none, .empty⟩, [], [.ofComment "b"]⟩],
      (Generator.standard .groovy).CanEnclose outer) ∧
    HasLines "x\r\n\ry" ["x", "", "y"] ∧
    ∃ above below : List Line,
      (Generator.standard .groovy).Prints true
        (.enclosed [⟨⟨.block, none, .empty⟩, [.ofString "a"], []⟩,
          ⟨⟨.block, none, .empty⟩, [], [.ofComment "b"]⟩] (.ofComment "x\r\n\ry"))
        (above ++ ([⟨2, "// x"⟩, ⟨2, "//"⟩, ⟨2, "// y"⟩] : List Line) ++ below) := by
  have siblings : ∀ outer ∈ [Shell.mk ⟨.block, none, .empty⟩ [.ofString "a"] [],
      ⟨⟨.block, none, .empty⟩, [], [.ofComment "b"]⟩],
      ∀ sibling ∈ outer.before ++ outer.after,
        (Generator.standard .groovy).CanRender sibling := by decide
  obtain ⟨spelled, ⟨above, below, prints⟩, _⟩ := comment_keeps_lines siblings
  exact ⟨siblings, (spelled _ _).mpr rfl, above, below, prints _ "x\r\n\ry"⟩

/-- A line ending that is no line break hides where a line of a comment ends. -/
example :
    (Generator.language .kotlin).generate (.block (.of [.ofComment "a\nb"]))
        { indent := "", lineEnding := "" } = .ok ⟨"\x7b// a// b\x7d", []⟩ ∧
      (Generator.language .kotlin).generate (.block (.of [.ofComment "a// b"]))
        { indent := "", lineEnding := "" } = .ok ⟨"\x7b// a// b\x7d", []⟩ :=
  ⟨rfl, rfl⟩

end Generator

end BuildScribe
