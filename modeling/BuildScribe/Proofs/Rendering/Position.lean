import BuildScribe.Proofs.Rendering.Shape
import BuildScribe.Proofs.Rendering.SourceMap

/-!
# Positions in a source map

The pieces of a written node stand as one run among the pieces of its tree. The mark
of the node comes first in that run, where the counters of the buffer show the place
of the first character that the rest of the run puts there.
-/

namespace BuildScribe

/-- A run of the pieces of one fragment among other pieces, a number of levels
deeper. -/
structure Occurrence (part : Fragment) (pieces : List Piece) where
  before : List Piece
  level : Nat
  behind : List Piece
  split : pieces = before ++ part.pieces.map (Piece.sunk level) ++ behind

namespace Occurrence

variable {part : Fragment} {pieces : List Piece}

/-- A fragment among its own pieces. -/
def self (part : Fragment) : Occurrence part part.pieces :=
  ⟨[], 0, [], by simp⟩

/-- The same run with other pieces in front of all. -/
def after (start : List Piece) (occurrence : Occurrence part pieces) :
    Occurrence part (start ++ pieces) :=
  ⟨start ++ occurrence.before, occurrence.level, occurrence.behind, by
    simp [occurrence.split]⟩

/-- The same run when all pieces are sunk and other pieces follow. -/
def inside (levels : Nat) (rest : List Piece) (occurrence : Occurrence part pieces) :
    Occurrence part (pieces.map (Piece.sunk levels) ++ rest) :=
  ⟨occurrence.before.map (Piece.sunk levels), occurrence.level + levels,
    occurrence.behind.map (Piece.sunk levels) ++ rest, by
      simp [occurrence.split, ← Piece.sunk_comp_sunk]⟩

/-- The buffer when the run begins. -/
def start (occurrence : Occurrence part pieces) (options : LayoutOptions) : Buffer :=
  { occurrence.before.foldl Buffer.write (Buffer.empty options) with
    level := occurrence.level }

/-- The buffer when the run is over. -/
def stop (occurrence : Occurrence part pieces) (options : LayoutOptions) : Buffer :=
  (occurrence.start options).writeFragment part

/-- What is written during the run is a part of the whole text. Unless it is empty, its
first character stands at the given place, behind the indent of the line if that was
still missing. -/
def OpensAt (occurrence : Occurrence part pieces) (options : LayoutOptions)
    (rendering : Rendering) (place : TextPlace) : Prop :=
  ∃ own tail,
    (occurrence.stop options).text = (occurrence.start options).text ++ own ∧
    rendering.text = (occurrence.stop options).text ++ tail ∧
    (own ≠ "" → ∃ first rest,
      own = (occurrence.start options).lead ++ String.ofList (first :: rest) ∧
      place = .behind
        ((occurrence.start options).text ++ (occurrence.start options).lead))

end Occurrence

namespace Buffer

theorem level_foldl_write (buffer : Buffer) (pieces : List Piece) :
    (pieces.foldl write buffer).level = buffer.level := by
  induction pieces generalizing buffer with
  | nil => rfl
  | cons piece rest ih => exact ih (buffer.write piece)

/-- Pieces are sunk as if the buffer were deeper. -/
theorem foldl_write_sunk (buffer : Buffer) (levels : Nat) (pieces : List Piece) :
    (pieces.map (Piece.sunk levels)).foldl write buffer =
      { pieces.foldl write { buffer with level := buffer.level + levels } with
        level := buffer.level } := by
  induction pieces generalizing buffer with
  | nil => rfl
  | cons piece rest ih =>
      have written :
          { buffer.write (piece.sunk levels) with level := buffer.level + levels } =
            { buffer with level := buffer.level + levels }.write piece := by
        simp only [write, Piece.sunk, Nat.add_assoc, Nat.add_comm levels]
      rw [List.map_cons, List.foldl_cons, ih, List.foldl_cons, ← written]
      rfl

end Buffer

namespace Occurrence

variable {part : Fragment} {pieces : List Piece}

theorem foldl_write_eq (occurrence : Occurrence part pieces) (options : LayoutOptions) :
    pieces.foldl Buffer.write (Buffer.empty options) =
      occurrence.behind.foldl Buffer.write
        { occurrence.stop options with level := 0 } := by
  have atMargin :
      (occurrence.before.foldl Buffer.write (Buffer.empty options)).level = 0 :=
    Buffer.level_foldl_write _ _
  have run := congrArg (·.foldl Buffer.write (Buffer.empty options)) occurrence.split
  rw [run, List.foldl_append, List.foldl_append, Buffer.foldl_write_sunk, atMargin,
    Nat.zero_add]
  rfl

theorem options_start (occurrence : Occurrence part pieces) (options : LayoutOptions) :
    (occurrence.start options).options = options :=
  Buffer.options_writeFragment (Buffer.empty options) ⟨occurrence.before, none⟩

/-- The counters show the place behind the text when the run begins. -/
theorem counts_start (occurrence : Occurrence part pieces) {options : LayoutOptions}
    (regular : options.Regular) (inline : ∀ piece ∈ pieces, piece.stroke.IsInline) :
    (occurrence.start options).Counts := by
  have onBefore : ∀ piece ∈ occurrence.before, piece.stroke.IsInline := by
    intro piece member
    apply inline
    rw [occurrence.split, List.append_assoc]
    exact List.mem_append_left _ member
  have counts : ((Buffer.empty options).writeFragment ⟨occurrence.before, none⟩).Counts :=
    (Buffer.counts_empty options).writeFragment regular onBefore
  exact counts.atLevel occurrence.level

end Occurrence

namespace Generator

/-- The locations that are recorded before a node is written are those of the nodes
before it. -/
private theorem exists_occurrence_of_children {generator : Generator} {comments : Bool}
    {children : List Node} {pieces : List Piece}
    (assembled : Assembled (children.map (generator.fragment comments generator)) pieces)
    (recorded : ∀ child ∈ children,
      recordedBy (generator.fragment comments generator child).pieces =
        (generator.writtenNodes child).filterMap (·.info.location))
    (within : ∀ child ∈ children, ∀ front part behind,
      generator.writtenNodes child = front ++ part :: behind →
        ∃ occurrence : Occurrence (generator.fragment comments generator part)
            (generator.fragment comments generator child).pieces,
          recordedBy occurrence.before = front.filterMap (·.info.location))
    {front : List Node} {part : Node} {behind : List Node}
    (order : children.flatMap generator.writtenNodes = front ++ part :: behind) :
    ∃ occurrence : Occurrence (generator.fragment comments generator part) pieces,
      recordedBy occurrence.before = front.filterMap (·.info.location) := by
  induction children generalizing pieces front with
  | nil => simp at order
  | cons child rest ih =>
      rw [List.map_cons] at assembled
      rw [List.forall_mem_cons] at recorded within
      cases assembled with
      | @part start levels _ _ others silent assembledRest =>
          have later (skipped : List Node)
              (onRest : rest.flatMap generator.writtenNodes = skipped ++ part :: behind)
              (passed : front = generator.writtenNodes child ++ skipped) :
              ∃ occurrence : Occurrence (generator.fragment comments generator part)
                  (start ++ (generator.fragment comments generator child).pieces.map
                    (Piece.sunk levels) ++ others),
                recordedBy occurrence.before = front.filterMap (·.info.location) := by
            obtain ⟨occurrence, before⟩ := ih assembledRest recorded.2 within.2 onRest
            refine ⟨occurrence.after _, ?_⟩
            simp [Occurrence.after, silent, recorded.1, before, passed]
          -- The part stands behind all that this child writes, or among it. If the split
          -- is exactly at the end of the child, the part is the first behind it.
          rw [List.flatMap_cons, List.append_eq_append_iff] at order
          rcases order with ⟨skipped, passed, onRest⟩ | ⟨ending, onChild, order⟩
          · exact later skipped onRest passed
          · rcases List.cons_eq_append_iff.mp order with
              ⟨rfl, onRest⟩ | ⟨following, rfl, _⟩
            · exact later [] onRest (by simpa using onChild.symm)
            · obtain ⟨occurrence, before⟩ := within.1 front part following onChild
              rw [List.append_assoc]
              refine ⟨(occurrence.inside levels others).after start, ?_⟩
              simp [Occurrence.after, Occurrence.inside, silent, before]

/-- Every written node has a run of its own, before which exactly the nodes before it
are recorded. -/
theorem exists_occurrence {generator : Generator} (comments : Bool) {node : Node}
    (renderable : generator.CanRender node) {front : List Node} {part : Node}
    {behind : List Node} (order : generator.writtenNodes node = front ++ part :: behind) :
    ∃ occurrence : Occurrence (generator.fragment comments generator part)
        (generator.fragment comments generator node).pieces,
      recordedBy occurrence.before = front.filterMap (·.info.location) := by
  induction node using Node.descend generalizing front part behind with
  | step node ih =>
      rw [writtenNodes_eq, List.cons_eq_append_iff] at order
      rcases order with ⟨rfl, isFirst⟩ | ⟨skipped, rfl, order⟩
      · have first : part = node := (List.cons.inj isFirst).1
        subst first
        exact ⟨.self _, rfl⟩
      · obtain ⟨body, written, assembles⟩ :=
          generator.assembles_fragment comments node
        have succeeds := renderable.succeeds comments
        rw [written, Fragment.failure_append, Fragment.failure_mark,
          Option.none_or] at succeeds
        have childRenderable (child : Node)
            (isWritten : child ∈ generator.writtenChildren node) :
            generator.CanRender child :=
          (canRender_iff.mp renderable).2 child
            (mem_children_of_mem_writtenChildren isWritten)
        have within : ∀ child ∈ generator.writtenChildren node,
            ∀ front part behind,
              generator.writtenNodes child = front ++ part :: behind →
                ∃ occurrence : Occurrence (generator.fragment comments generator part)
                    (generator.fragment comments generator child).pieces,
                  recordedBy occurrence.before = front.filterMap (·.info.location) :=
          fun child isWritten _ _ _ =>
            ih child (mem_children_of_mem_writtenChildren isWritten)
              (childRenderable child isWritten)
        have recorded : ∀ child ∈ generator.writtenChildren node,
            recordedBy (generator.fragment comments generator child).pieces =
              (generator.writtenNodes child).filterMap (·.info.location) :=
          fun child isWritten =>
            recordedBy_fragment (childRenderable child isWritten) comments
        obtain ⟨occurrence, before⟩ :=
          exists_occurrence_of_children (assembles succeeds) recorded within order
        rw [written, Fragment.pieces_append rfl]
        refine ⟨occurrence.after _, ?_⟩
        rw [Occurrence.after, recordedBy_append, recordedBy_mark, before,
          ← List.filterMap_append]
        rfl

end Generator

namespace Buffer

/-- The mark at the head of a fragment shows the counters that the buffer has then. -/
theorem marks_writeFragment_marked (buffer : Buffer)
    (recording : buffer.options.sourceMap = true) (location : SourceLocation)
    (body : Fragment) :
    ∃ later, (buffer.writeFragment (Fragment.mark (some location) ++ body)).marks =
      buffer.marks ++ ⟨buffer.line, buffer.nextColumn, location⟩ :: later := by
  obtain ⟨later, marks, _⟩ :=
    (buffer.write ⟨0, .mark location⟩).marks_writeFragment body
  have own : (buffer.write ⟨0, .mark location⟩).marks =
      buffer.marks ++ [⟨buffer.line, buffer.nextColumn, location⟩] := by
    simp [write, apply, mark, recording]
  refine ⟨later, ?_⟩
  rw [writeFragment, Fragment.pieces_append rfl, List.foldl_append]
  rw [writeFragment, own, List.append_assoc] at marks
  exact marks

end Buffer

namespace Occurrence

variable {part whole : Fragment}

/-- What stands in the buffer when the run is over stays there. -/
theorem extends_stop (occurrence : Occurrence part whole.pieces)
    (options : LayoutOptions) :
    ∃ tail later,
      ((Buffer.empty options).writeFragment whole).endLine.text =
        (occurrence.stop options).text ++ tail ∧
      ((Buffer.empty options).writeFragment whole).endLine.marks =
        (occurrence.stop options).marks ++ later := by
  let stopped : Buffer := { occurrence.stop options with level := 0 }
  have run : (Buffer.empty options).writeFragment whole =
      stopped.writeFragment ⟨occurrence.behind, none⟩ :=
    occurrence.foldl_write_eq options
  obtain ⟨tail, grown⟩ := stopped.text_foldl_write_extends occurrence.behind
  obtain ⟨ending, ended⟩ :=
    (stopped.writeFragment ⟨occurrence.behind, none⟩).text_endLine_extends
  obtain ⟨later, marks, _⟩ := stopped.marks_writeFragment ⟨occurrence.behind, none⟩
  refine ⟨tail ++ ending, later, ?_, ?_⟩
  · rw [run, ended, Buffer.writeFragment, grown, String.append_assoc]
  · rw [run, Buffer.marks_endLine, marks]

end Occurrence

namespace Generator

/-- Positions are exact: with places recorded, every written node that has a location
has its entry behind the entries of the nodes before it, and the entry shows the place
of the first character that the node writes. -/
theorem marks_stand_at_first_characters {generator : Generator} {node : Node}
    {options : LayoutOptions} (renderable : generator.CanRender node)
    (names : node.HasInlineNames) (regular : options.Regular)
    (recording : options.sourceMap = true) :
    ∃ rendering, generator.generate node options = .ok rendering ∧
      ∀ front part behind location,
        generator.writtenNodes node = front ++ part :: behind →
        part.info.location = some location →
          ∃ (occurrence : Occurrence (generator.fragment options.comments generator part)
              (generator.fragment options.comments generator node).pieces)
            (earlier later : List SourceMark) (mark : SourceMark),
            recordedBy occurrence.before = front.filterMap (·.info.location) ∧
            rendering.marks = earlier ++ mark :: later ∧
            earlier.map (·.location) = front.filterMap (·.info.location) ∧
            mark.location = location ∧
            occurrence.OpensAt options rendering mark.place := by
  have succeeds := renderable.succeeds options.comments
  refine ⟨_, by rw [generate, Fragment.render, succeeds], ?_⟩
  intro front part behind location order located
  obtain ⟨occurrence, before⟩ := exists_occurrence options.comments renderable order
  obtain ⟨own, grown, begins⟩ := (occurrence.start options).text_writeFragment_begins
    (generator.opensAtMargin_fragment options.comments part)
  obtain ⟨body, written, _⟩ := generator.assembles_fragment options.comments part
  rw [located] at written
  have counts := occurrence.counts_start regular
    (generator.inline_fragment options.comments names)
  have sameOptions := occurrence.options_start options
  obtain ⟨earlier, earlierMarks, earlierLocations⟩ :=
    (Buffer.empty options).marks_writeFragment ⟨occurrence.before, none⟩
  have startMarks : (occurrence.start options).marks = earlier := earlierMarks
  have earlierOrder : earlier.map (·.location) = recordedBy occurrence.before :=
    earlierLocations.trans (if_pos recording)
  obtain ⟨inner, innerMarks⟩ := (occurrence.start options).marks_writeFragment_marked
    (by rw [sameOptions, recording]) location body
  rw [← written] at innerMarks
  obtain ⟨tail, later, text, marks⟩ := occurrence.extends_stop options
  refine ⟨occurrence, earlier, inner ++ later,
    ⟨(occurrence.start options).line, (occurrence.start options).nextColumn, location⟩,
    before, ?_, earlierOrder.trans before, rfl, own, tail, grown, text, ?_⟩
  · rw [Buffer.rendering, marks, Occurrence.stop, innerMarks, startMarks,
      List.append_assoc, List.cons_append]
  · intro something
    obtain ⟨first, rest, shown⟩ := begins something
    have regularStart : (occurrence.start options).options.Regular := by
      rw [sameOptions]
      exact regular
    exact ⟨first, rest, shown, (counts.nextPlace regularStart).symm⟩

/-- A comment in a block stands behind the indent of its line. -/
theorem mark_of_nested_comment :
    (Generator.standard .kotlin).CanRender
        (.block (.of [.comment ⟨.statement, some ⟨"s", 1, 1⟩, .empty⟩ "é"])) ∧
      Node.HasInlineNames
        (.block (.of [.comment ⟨.statement, some ⟨"s", 1, 1⟩, .empty⟩ "é"])) ∧
      LayoutOptions.Regular { lineEnding := "\r\n", sourceMap := true } ∧
      ∃ rendering,
        (Generator.standard .kotlin).generate
            (.block (.of [.comment ⟨.statement, some ⟨"s", 1, 1⟩, .empty⟩ "é"]))
            { lineEnding := "\r\n", sourceMap := true } = .ok rendering ∧
          ∃ (occurrence : Occurrence
                ((Generator.standard .kotlin).fragment true (.standard .kotlin)
                  (.comment ⟨.statement, some ⟨"s", 1, 1⟩, .empty⟩ "é"))
                ((Generator.standard .kotlin).fragment true (.standard .kotlin)
                  (.block (.of [.comment ⟨.statement, some ⟨"s", 1, 1⟩, .empty⟩
                    "é"]))).pieces)
              (mark : SourceMark),
            mark ∈ rendering.marks ∧ mark.location = ⟨"s", 1, 1⟩ ∧
              occurrence.OpensAt { lineEnding := "\r\n", sourceMap := true } rendering
                mark.place := by
  have renderable : (Generator.standard .kotlin).CanRender
      (.block (.of [.comment ⟨.statement, some ⟨"s", 1, 1⟩, .empty⟩ "é"])) := by decide
  have names : Node.HasInlineNames
      (.block (.of [.comment ⟨.statement, some ⟨"s", 1, 1⟩, .empty⟩ "é"])) := by decide
  have regular : LayoutOptions.Regular { lineEnding := "\r\n", sourceMap := true } :=
    ⟨.inr rfl, by decide⟩
  obtain ⟨rendering, succeeds, entries⟩ :=
    marks_stand_at_first_characters renderable names regular rfl
  obtain ⟨occurrence, earlier, later, mark, _, marks, _, located, opens⟩ :=
    entries [_] (.comment ⟨.statement, some ⟨"s", 1, 1⟩, .empty⟩ "é") [] ⟨"s", 1, 1⟩
      rfl rfl
  have isMark : mark ∈ rendering.marks := by simp [marks]
  exact ⟨renderable, names, regular, rendering, succeeds, occurrence, mark, isMark,
    located, opens⟩

example :
    (Generator.standard .groovy).generate
        (.block (.of [.ofComment "é\nb",
          .declaration ⟨.declaration, none, .empty⟩ "x" (.ofList [.val]) none
            (some (.literal ⟨.literal, some ⟨"s", 1, 9⟩, .empty⟩ (.string "ü")))]))
        { lineEnding := "\r\n", sourceMap := true } =
      .ok ⟨"\x7b\r\n    // é\r\n    // b\r\n    def x = 'ü'\r\n\x7d\r\n",
        [⟨4, 13, ⟨"s", 1, 9⟩⟩]⟩ := by
  rfl

end Generator

end BuildScribe
