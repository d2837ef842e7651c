import BuildScribe.Target.Comment

/-!
# Lines of comment texts

A text has the lines that stand between its line breaks, where a carriage return and a line
feed behind it are one break. A line of a comment shows one line of its text, without any
break, behind two slashes and a blank; taking these off gives the line back.
-/

namespace BuildScribe

def isBreak (c : Char) : Bool :=
  c == '\n' || c == '\r'

def IsUnbroken (line : List Char) : Prop :=
  ∀ c ∈ line, isBreak c = false

instance (line : List Char) : Decidable (IsUnbroken line) :=
  List.decidableBAll (fun c => isBreak c = false) line

/-- What ends a line that is not the last one, by what comes behind it. -/
inductive EndsLine : List Char → List Char → Prop where
  | lineFeed (behind : List Char) : EndsLine ['\n'] behind
  | both (behind : List Char) : EndsLine ['\r', '\n'] behind
  | carriageReturn {behind : List Char} :
      behind.head? ≠ some '\n' → EndsLine ['\r'] behind

/-- The lines of a text. -/
inductive LinesOf : List Char → List (List Char) → Prop where
  | last {line : List Char} : IsUnbroken line → LinesOf line [line]
  | next {line ending behind : List Char} {lines : List (List Char)} :
      IsUnbroken line → EndsLine ending behind → LinesOf behind lines →
      LinesOf (line ++ (ending ++ behind)) (line :: lines)

theorem IsUnbroken.nil : IsUnbroken [] :=
  fun _ isPart => (List.not_mem_nil isPart).elim

theorem IsUnbroken.cons {c : Char} {line : List Char} (noBreak : isBreak c = false)
    (unbroken : IsUnbroken line) : IsUnbroken (c :: line) :=
  List.forall_mem_cons.mpr ⟨noBreak, unbroken⟩

theorem LinesOf.ne_nil {text : List Char} {lines : List (List Char)}
    (split : LinesOf text lines) : lines ≠ [] := by
  cases split with
  | last _ => exact List.cons_ne_nil _ _
  | next _ _ _ => exact List.cons_ne_nil _ _

/-- A character that breaks no line goes on with the first one. -/
theorem LinesOf.cons {c : Char} {text line : List Char} {others : List (List Char)}
    (noBreak : isBreak c = false) (split : LinesOf text (line :: others)) :
    LinesOf (c :: text) ((c :: line) :: others) := by
  cases split with
  | last unbroken => exact .last (unbroken.cons noBreak)
  | next unbroken ends rest => exact .next (unbroken.cons noBreak) ends rest

theorem linesOf_lineChars (text : List Char) : LinesOf text (lineChars text) := by
  fun_induction lineChars text with
  | case1 => exact .last .nil
  | case2 rest ih => exact .next .nil (.both rest) ih
  | case3 c rest single breaks ih =>
      rcases Bool.or_eq_true_iff.mp breaks with isFeed | isReturn
      · rw [beq_iff_eq.mp isFeed]
        exact .next .nil (.lineFeed rest) ih
      · have isReturn := beq_iff_eq.mp isReturn
        have alone : rest.head? ≠ some '\n' := by
          intro feeds
          obtain ⟨behind, rfl⟩ := List.head?_eq_some_iff.mp feeds
          exact single behind isReturn rfl
        rw [isReturn]
        exact .next .nil (.carriageReturn alone) ih
  | case4 c rest _ _ nothing ih => exact (ih.ne_nil nothing).elim
  | case5 c rest _ noBreak first others known ih =>
      rw [known] at ih
      exact ih.cons (Bool.eq_false_iff.mpr noBreak)

theorem lineChars_cons {c : Char} {text line : List Char} {others : List (List Char)}
    (noBreak : isBreak c = false) (split : lineChars text = line :: others) :
    lineChars (c :: text) = (c :: line) :: others := by
  rw [lineChars, split]
  · exact if_neg (by rw [isBreak] at noBreak; rw [noBreak]; exact Bool.false_ne_true)
  · rintro rest rfl rfl
    cases noBreak

theorem lineChars_append {line text first : List Char} {others : List (List Char)}
    (unbroken : IsUnbroken line) (split : lineChars text = first :: others) :
    lineChars (line ++ text) = (line ++ first) :: others := by
  induction line with
  | nil => exact split
  | cons c more ih =>
      obtain ⟨noBreak, unbroken⟩ := List.forall_mem_cons.mp unbroken
      exact lineChars_cons noBreak (ih unbroken)

theorem lineChars_of_endsLine {ending behind : List Char} (ends : EndsLine ending behind) :
    lineChars (ending ++ behind) = [] :: lineChars behind := by
  cases ends with
  | lineFeed =>
      rw [List.singleton_append, lineChars]
      · rfl
      · rintro rest ⟨⟩
  | both => rfl
  | carriageReturn alone =>
      rw [List.singleton_append, lineChars]
      · rfl
      · rintro rest _ rfl
        exact alone rfl

/-- The lines of a text are determined. -/
theorem LinesOf.lineChars_eq {text : List Char} {lines : List (List Char)}
    (split : LinesOf text lines) : lineChars text = lines := by
  induction split with
  | last unbroken =>
      have single := lineChars_append unbroken (show lineChars [] = [] :: [] from rfl)
      rwa [List.append_nil] at single
  | next unbroken ends _ ih =>
      have broken := lineChars_append unbroken (lineChars_of_endsLine ends)
      rwa [List.append_nil, ih] at broken

theorem LinesOf.isUnbroken {text : List Char} {lines : List (List Char)}
    (split : LinesOf text lines) : ∀ line ∈ lines, IsUnbroken line := by
  induction split with
  | last unbroken => simpa using unbroken
  | next unbroken _ _ ih => exact List.forall_mem_cons.mpr ⟨unbroken, ih⟩

/-- The lines of a text, as texts. -/
def HasLines (text : String) (lines : List String) : Prop :=
  LinesOf text.toList (lines.map String.toList)

theorem map_toList_textLines (text : String) :
    (textLines text).map String.toList = lineChars text.toList := by
  simp [textLines, Function.comp_def]

theorem hasLines_iff {text : String} {lines : List String} :
    HasLines text lines ↔ lines = textLines text := by
  constructor
  · intro split
    rw [textLines, split.lineChars_eq]
    simp
  · rintro rfl
    rw [HasLines, map_toList_textLines]
    exact linesOf_lineChars text.toList

/-- What a line of a comment shows, without the slashes and the blank behind them. -/
def commentText (written : String) : String :=
  match written.toList with
  | '/' :: '/' :: ' ' :: shown => String.ofList shown
  | '/' :: '/' :: shown => String.ofList shown
  | _ => written

theorem commentText_commentLine (line : String) : commentText (commentLine line) = line := by
  unfold commentLine
  split
  · next nothing =>
      rw [String.isEmpty_iff.mp nothing]
      rfl
  · simp [commentText]

/-- The lines of a comment tell the lines of its text. -/
theorem textLines_eq_of_map_commentLine {first second : String}
    (same : (textLines first).map commentLine = (textLines second).map commentLine) :
    textLines first = textLines second := by
  have shown := congrArg (List.map commentText) same
  simpa [Function.comp_def, commentText_commentLine] using shown

theorem exists_commentLine_eq (line : String) : ∃ shown, commentLine line = "//" ++ shown := by
  unfold commentLine
  split
  · exact ⟨"", rfl⟩
  · exact ⟨" " ++ line, by rw [← String.append_assoc]; rfl⟩

theorem isUnbroken_commentLine {text line : String} (isLine : line ∈ textLines text) :
    IsUnbroken (commentLine line).toList := by
  have unbroken : IsUnbroken line.toList := by
    apply (linesOf_lineChars text.toList).isUnbroken
    rw [← map_toList_textLines]
    exact List.mem_map_of_mem isLine
  have slashes : IsUnbroken "// ".toList := by decide
  unfold commentLine
  split
  · decide
  · rw [String.toList_append]
    exact List.forall_mem_append.mpr ⟨slashes, unbroken⟩

end BuildScribe
