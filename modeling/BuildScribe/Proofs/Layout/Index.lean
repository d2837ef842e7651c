import BuildScribe.Proofs.Layout.Opening
import BuildScribe.Proofs.Rendering.SourceMap
import Mathlib.Data.List.Induction

/-!
# Marks as an index into the text

A mark on a fresh line shows the column at which a text of the same depth would stand, before
there is any text. It waits for the first text on the line, and if that text stands further
to the left the mark may end up behind the end of the line. As long as no piece comes too far
to the left for the mark that waits, all marks lie in the text and in its order.
-/

namespace BuildScribe

namespace TextPlace

/-- Places in the order of reading. -/
instance : LE TextPlace :=
  ⟨fun first second =>
    first.line < second.line ∨ first.line = second.line ∧ first.column ≤ second.column⟩

theorem le_iff {first second : TextPlace} :
    first ≤ second ↔
      first.line < second.line ∨
        first.line = second.line ∧ first.column ≤ second.column :=
  Iff.rfl

protected theorem le_trans {first second third : TextPlace} (early : first ≤ second)
    (late : second ≤ third) : first ≤ third := by
  rw [le_iff] at early late ⊢
  omega

/-- The place is in a line of the text, at a character or right behind the last one. Lines
reach up to a line ending or to the end of the text, so behind the last line ending there is
one more line, which is empty. -/
def LiesIn (ending : String) (place : TextPlace) (text : String) : Prop :=
  ∃ above line below, text = above ++ line ++ below ∧ IsInline line ∧
    behind above = ⟨place.line, 1⟩ ∧
    (1 ≤ place.column ∧ place.column ≤ line.length + 1) ∧
    (below = "" ∨ ∃ rest, below = ending ++ rest)

/-- What stands behind the last line break of a text is its last line. -/
theorem exists_last_line (text : String) :
    ∃ above line, text = above ++ line ∧ IsInline line ∧
      behind above = ⟨(behind text).line, 1⟩ ∧
      (behind text).column = line.length + 1 := by
  have onChars (chars : List Char) :
      ∃ above line, chars = above ++ line ∧ '\n' ∉ line ∧
        above.foldl advance ⟨1, 1⟩ = ⟨(chars.foldl advance ⟨1, 1⟩).line, 1⟩ ∧
        (chars.foldl advance ⟨1, 1⟩).column = line.length + 1 := by
    induction chars using List.reverseRecOn with
    | nil => exact ⟨[], [], rfl, List.not_mem_nil, rfl, rfl⟩
    | append_singleton chars c ih =>
        obtain ⟨above, line, split, inline, start, stop⟩ := ih
        rw [List.foldl_append, List.foldl_cons, List.foldl_nil]
        by_cases breaks : c = '\n'
        · refine ⟨chars ++ [c], [], (List.append_nil _).symm, List.not_mem_nil, ?_⟩
          rw [List.foldl_append, List.foldl_cons, List.foldl_nil, advance, if_pos breaks]
          exact ⟨rfl, rfl⟩
        · refine ⟨above, line ++ [c], by rw [split, List.append_assoc], ?_, ?_⟩
          · rw [List.mem_append, List.mem_singleton, not_or]
            exact ⟨inline, Ne.symm breaks⟩
          · rw [advance, if_neg breaks, start, stop, List.length_append, List.length_singleton]
            exact ⟨rfl, rfl⟩
  obtain ⟨above, line, split, inline, start, stop⟩ := onChars text.toList
  refine ⟨String.ofList above, String.ofList line, ?_, ?_, ?_, ?_⟩
  · rw [← String.ofList_append, ← split, String.ofList_toList]
  · rwa [IsInline, String.toList_ofList]
  · rw [behind, String.toList_ofList]
    exact start
  · rw [behind, stop, String.length_ofList]

variable {ending text written : String} {place : TextPlace}

theorem liesIn_of_last_line (onLine : place.line = (behind text).line)
    (positive : 1 ≤ place.column) (reached : place.column ≤ (behind text).column) :
    place.LiesIn ending text := by
  obtain ⟨above, line, split, inline, start, stop⟩ := exists_last_line text
  refine ⟨above, line, "", by rw [split, String.append_empty], inline, ?_, ⟨positive, ?_⟩,
    .inl rfl⟩
  · rw [start, onLine]
  · omega

theorem liesIn_behind (text : String) : (behind text).LiesIn ending text := by
  obtain ⟨above, line, _, _, _, stop⟩ := exists_last_line text
  exact liesIn_of_last_line rfl (by omega) (Nat.le_refl _)

namespace LiesIn

theorem append_inline (lies : place.LiesIn ending text) (inline : IsInline written) :
    place.LiesIn ending (text ++ written) := by
  obtain ⟨above, line, below, rfl, onLine, start, ⟨positive, reached⟩, ended⟩ := lies
  rcases ended with rfl | ⟨rest, rfl⟩
  · refine ⟨above, line ++ written, "", ?_, onLine.append inline, start,
      ⟨positive, ?_⟩, .inl rfl⟩
    · simp only [String.append_empty, String.append_assoc]
    · rw [String.length_append]
      omega
  · exact ⟨above, line, ending ++ (rest ++ written), by simp only [String.append_assoc],
      onLine, start, ⟨positive, reached⟩, .inr ⟨_, rfl⟩⟩

theorem append_ending (lies : place.LiesIn ending text) :
    place.LiesIn ending (text ++ ending) := by
  obtain ⟨above, line, below, rfl, onLine, start, reached, ended⟩ := lies
  rcases ended with rfl | ⟨rest, rfl⟩
  · exact ⟨above, line, ending, by rw [String.append_empty], onLine, start, reached,
      .inr ⟨"", String.append_empty.symm⟩⟩
  · exact ⟨above, line, ending ++ (rest ++ ending), by simp only [String.append_assoc],
      onLine, start, reached, .inr ⟨_, rfl⟩⟩

end LiesIn

theorem line_le_behind_append (first second : String) :
    (behind first).line ≤ (behind (first ++ second)).line := by
  rw [behind_append]
  generalize behind first = place
  induction second.toList generalizing place with
  | nil => exact Nat.le_refl _
  | cons c rest ih =>
      have step : place.line ≤ (place.advance c).line := by
        unfold advance
        split
        · exact Nat.le_succ _
        · exact Nat.le_refl _
      exact Nat.le_trans step (ih (place.advance c))

/-- What lies in a text does not come behind its end. -/
theorem LiesIn.le_behind {options : LayoutOptions} (regular : options.Regular)
    (lies : place.LiesIn options.lineEnding text) : place ≤ behind text := by
  obtain ⟨above, line, below, rfl, onLine, start, ⟨_, reached⟩, ended⟩ := lies
  have lineEnd := behind_append_inline onLine above
  rw [start] at lineEnd
  rcases ended with rfl | ⟨rest, rfl⟩
  · rw [String.append_empty, le_iff, lineEnd]
    dsimp only
    omega
  · have broken := behind_append_lineEnding regular (above ++ line)
    have later := line_le_behind_append (above ++ line ++ options.lineEnding) rest
    rw [broken, lineEnd] at later
    rw [← String.append_assoc, le_iff]
    exact .inl later

end TextPlace

/-- What has to be known of the current line to tell where marks end up. -/
structure LineState where
  /-- Whether nothing stands on the line. -/
  fresh : Bool
  /-- The depth of the last mark that waits for the first text of the line. -/
  waiting : Option Nat
deriving DecidableEq

namespace LineState

def start : LineState := ⟨true, none⟩

def step (state : LineState) (piece : Piece) : LineState :=
  match piece.stroke with
  | .text written => if written = "" then state else ⟨false, none⟩
  | .line _ => start
  | .finish => if state.fresh then state else start
  | .mark _ => if state.fresh then ⟨true, some piece.depth⟩ else state

def run (state : LineState) (pieces : List Piece) : LineState :=
  pieces.foldl step state

/-- The piece does not come too far to the left for the mark that waits: its text reaches the
column that the mark shows, and its own mark does not come before the other. -/
def Admits (indent : Nat) (state : LineState) (piece : Piece) : Prop :=
  ∀ depth ∈ state.waiting,
    match piece.stroke with
    | .text written =>
        written ≠ "" → indent * depth ≤ indent * piece.depth + written.length
    | .line written =>
        written ≠ "" ∧ indent * depth ≤ indent * piece.depth + written.length
    | .finish => True
    | .mark _ => depth ≤ piece.depth

def AdmitsAll (indent : Nat) : LineState → List Piece → Prop
  | _, [] => True
  | state, piece :: rest =>
      state.Admits indent piece ∧ (state.step piece).AdmitsAll indent rest

theorem step_text {written : String} (something : written ≠ "") (state : LineState)
    (depth : Nat) : state.step ⟨depth, .text written⟩ = ⟨false, none⟩ :=
  if_neg something

theorem run_append (state : LineState) (first second : List Piece) :
    state.run (first ++ second) = (state.run first).run second :=
  List.foldl_append

theorem admitsAll_append {indent : Nat} {state : LineState} {first second : List Piece} :
    state.AdmitsAll indent (first ++ second) ↔
      state.AdmitsAll indent first ∧ (state.run first).AdmitsAll indent second := by
  induction first generalizing state with
  | nil => exact (iff_of_eq (true_and _)).symm
  | cons piece rest ih =>
      rw [List.cons_append, AdmitsAll, AdmitsAll, ih, and_assoc]
      rfl

end LineState

namespace Buffer

theorem length_indentChars (options : LayoutOptions) (level : Nat) :
    (indentChars options level).length = options.indent.length * level := by
  rw [indentChars, List.length_flatten, List.map_replicate, List.sum_replicate_nat,
    String.length_toList, Nat.mul_comm]

theorem isInline_lead {buffer : Buffer} (regular : buffer.options.Regular) :
    IsInline buffer.lead := by
  unfold lead
  split
  · exact isInline_indent regular buffer.level
  · decide

theorem text_append {buffer : Buffer} {written : String} (something : written ≠ "") :
    (buffer.append written).text = buffer.text ++ (buffer.lead ++ written) := by
  cases starts : buffer.fresh with
  | true => exact text_append_of_fresh starts something
  | false => simp [append, something, starts, lead]

theorem fresh_append {buffer : Buffer} {written : String} (something : written ≠ "") :
    (buffer.append written).fresh = false := by
  cases starts : buffer.fresh <;> simp [append, something, starts]

/-- The marks are in order. All of them lie in the text, except that those on a fresh line
may show a column up to the depth of the one that waits. -/
structure Indexes (buffer : Buffer) (state : LineState) : Prop where
  fresh : buffer.fresh = state.fresh
  onFresh : ∀ depth ∈ state.waiting, state.fresh = true
  sorted : buffer.marks.Pairwise fun first second => first.place ≤ second.place
  placed : ∀ mark ∈ buffer.marks,
    mark.place.LiesIn buffer.options.lineEnding buffer.text ∨
      ∃ depth ∈ state.waiting, mark.line = buffer.line ∧
        1 ≤ mark.column ∧ mark.column ≤ buffer.options.indent.length * depth + 1

namespace Indexes

variable {buffer : Buffer} {state : LineState}

theorem atLevel (indexes : buffer.Indexes state) (level : Nat) :
    { buffer with level := level }.Indexes state :=
  ⟨indexes.fresh, indexes.onFresh, indexes.sorted, indexes.placed⟩

theorem empty (options : LayoutOptions) : (Buffer.empty options).Indexes .start :=
  ⟨rfl, fun _ _ => rfl, List.Pairwise.nil, fun _ member => (List.not_mem_nil member).elim⟩

theorem starts (indexes : buffer.Indexes state) {depth : Nat} (waits : depth ∈ state.waiting) :
    buffer.fresh = true :=
  indexes.fresh.trans (indexes.onFresh depth waits)

/-- No mark comes behind the place at which a mark would be set now. -/
theorem le_nextPlace (indexes : buffer.Indexes state) (counts : buffer.Counts)
    (regular : buffer.options.Regular)
    (deep : ∀ depth ∈ state.waiting, depth ≤ buffer.level) :
    ∀ mark ∈ buffer.marks, mark.place ≤ ⟨buffer.line, buffer.nextColumn⟩ := by
  intro mark member
  rcases indexes.placed mark member with lies | ⟨depth, waits, onLine, _, reached⟩
  · have passed := (lies.append_inline (isInline_lead regular)).le_behind regular
    rwa [counts.nextPlace regular] at passed
  · have further := Nat.mul_le_mul_left buffer.options.indent.length (deep depth waits)
    refine .inr ⟨onLine, ?_⟩
    change mark.column ≤ buffer.nextColumn
    rw [nextColumn, if_pos (indexes.starts waits), currentIndent, String.length_ofList,
      length_indentChars]
    omega

theorem append (indexes : buffer.Indexes state) (counts : buffer.Counts)
    (regular : buffer.options.Regular) {written : String} (inline : IsInline written)
    (something : written ≠ "")
    (reaches : ∀ depth ∈ state.waiting, buffer.options.indent.length * depth ≤
      buffer.options.indent.length * buffer.level + written.length) :
    (buffer.append written).Indexes ⟨false, none⟩ := by
  have onLead := isInline_lead regular
  refine ⟨fresh_append something, by rintro _ ⟨⟩, ?_, ?_⟩
  · rw [marks_append]
    exact indexes.sorted
  · intro mark member
    rw [marks_append] at member
    rw [options_append, text_append something]
    left
    rcases indexes.placed mark member with lies | ⟨depth, waits, onLine, positive, reached⟩
    · exact lies.append_inline (onLead.append inline)
    · have farEnough := reaches depth waits
      have behind := TextPlace.behind_append_inline (onLead.append inline) buffer.text
      rw [counts.place] at behind
      apply TextPlace.liesIn_of_last_line
      · rw [behind]
        exact onLine
      · exact positive
      · rw [behind, String.length_append, lead, if_pos (indexes.starts waits), currentIndent,
          String.length_ofList, length_indentChars]
        change mark.column ≤ _
        dsimp only
        omega

/-- A line that no mark waits for may end. -/
theorem breakLine (indexes : buffer.Indexes state) (settled : state.waiting = none) :
    buffer.breakLine.Indexes .start := by
  refine ⟨rfl, fun _ _ => rfl, indexes.sorted, ?_⟩
  intro mark member
  rcases indexes.placed mark member with lies | ⟨depth, waits, _⟩
  · exact .inl lies.append_ending
  · rw [settled] at waits
    cases waits

theorem endLine (indexes : buffer.Indexes state) :
    buffer.endLine.Indexes (if state.fresh then state else .start) := by
  unfold Buffer.endLine
  rw [indexes.fresh]
  cases starts : state.fresh with
  | true => exact indexes
  | false =>
      apply indexes.breakLine
      rw [Option.eq_none_iff_forall_not_mem]
      intro depth waits
      rw [indexes.onFresh depth waits] at starts
      cases starts

/-- A mark may wait for a text of a greater depth instead. -/
theorem deepen (indexes : buffer.Indexes state) (starts : state.fresh = true) {level : Nat}
    (deep : ∀ depth ∈ state.waiting, depth ≤ level) :
    buffer.Indexes ⟨true, some level⟩ := by
  refine ⟨indexes.fresh.trans starts, fun _ _ => rfl, indexes.sorted, ?_⟩
  intro mark member
  rcases indexes.placed mark member with lies | ⟨depth, waits, onLine, positive, reached⟩
  · exact .inl lies
  · have further := Nat.mul_le_mul_left buffer.options.indent.length (deep depth waits)
    exact .inr ⟨level, rfl, onLine, positive, by omega⟩

theorem record (indexes : buffer.Indexes state) (counts : buffer.Counts)
    (regular : buffer.options.Regular)
    (deep : ∀ depth ∈ state.waiting, depth ≤ buffer.level)
    (settled : state.fresh = true → state.waiting = some buffer.level)
    (location : SourceLocation) : (buffer.mark (some location)).Indexes state := by
  unfold Buffer.mark
  dsimp only
  split
  · refine ⟨indexes.fresh, indexes.onFresh, ?_, ?_⟩
    · dsimp only
      rw [List.pairwise_append]
      refine ⟨indexes.sorted, List.pairwise_singleton _ _, ?_⟩
      intro mark member added isAdded
      rw [List.mem_singleton.mp isAdded]
      exact indexes.le_nextPlace counts regular deep mark member
    · intro mark member
      rcases List.mem_append.mp member with earlier | isAdded
      · exact indexes.placed mark earlier
      · rw [List.mem_singleton.mp isAdded]
        cases starts : state.fresh with
        | true =>
            refine .inr ⟨buffer.level, settled starts, rfl, ?_⟩
            dsimp only
            rw [nextColumn, if_pos (indexes.fresh.trans starts), currentIndent,
              String.length_ofList, length_indentChars]
            omega
        | false =>
            have shown : (⟨buffer.line, buffer.nextColumn⟩ : TextPlace) =
                .behind buffer.text := by
              simp [nextColumn, indexes.fresh, starts, counts.place]
            left
            change TextPlace.LiesIn _ ⟨buffer.line, buffer.nextColumn⟩ _
            rw [shown]
            exact TextPlace.liesIn_behind _
  · exact indexes

theorem mark (indexes : buffer.Indexes state) (counts : buffer.Counts)
    (regular : buffer.options.Regular)
    (deep : ∀ depth ∈ state.waiting, depth ≤ buffer.level) (location : SourceLocation) :
    (buffer.mark (some location)).Indexes
      (if state.fresh then ⟨true, some buffer.level⟩ else state) := by
  cases starts : state.fresh with
  | true =>
      have atLevel : ∀ depth ∈ some buffer.level, depth ≤ buffer.level := by
        rintro _ ⟨⟩
        exact Nat.le_refl _
      exact (indexes.deepen starts deep).record counts regular atLevel (fun _ => rfl) location
  | false =>
      apply indexes.record counts regular deep _ location
      intro absurdly
      rw [starts] at absurdly
      cases absurdly

/-- Every piece that is admitted keeps the marks an index. -/
theorem write (indexes : buffer.Indexes state) (counts : buffer.Counts)
    (regular : buffer.options.Regular) (atMargin : buffer.level = 0) {piece : Piece}
    (inline : piece.stroke.IsInline)
    (admits : state.Admits buffer.options.indent.length piece) :
    (buffer.write piece).Indexes (state.step piece) := by
  obtain ⟨depth, stroke⟩ := piece
  have lowered := indexes.atLevel (buffer.level + depth)
  have lowerCounts := counts.atLevel (buffer.level + depth)
  rw [atMargin, Nat.zero_add] at lowered lowerCounts
  unfold Buffer.write
  rw [atMargin, Nat.zero_add]
  apply atLevel
  cases stroke with
  | text written =>
      by_cases nothing : written = ""
      · simpa [Buffer.apply, Buffer.append, LineState.step, nothing] using lowered
      · rw [LineState.step_text nothing]
        exact lowered.append lowerCounts regular inline nothing
          fun waiting waits => admits waiting waits nothing
  | line written =>
      by_cases nothing : written = ""
      · have settled : state.waiting = none :=
          Option.eq_none_iff_forall_not_mem.mpr fun waiting waits =>
            (admits waiting waits).1 nothing
        subst nothing
        exact lowered.breakLine settled
      · exact (lowered.append lowerCounts regular inline nothing
          fun waiting waits => (admits waiting waits).2).breakLine rfl
  | finish => exact lowered.endLine
  | mark location => exact lowered.mark lowerCounts regular admits location

theorem foldl_write (indexes : buffer.Indexes state) (counts : buffer.Counts)
    (regular : buffer.options.Regular) (atMargin : buffer.level = 0) {pieces : List Piece}
    (inline : ∀ piece ∈ pieces, piece.stroke.IsInline)
    (admits : state.AdmitsAll buffer.options.indent.length pieces) :
    (pieces.foldl Buffer.write buffer).Indexes (state.run pieces) := by
  induction pieces generalizing buffer state with
  | nil => exact indexes
  | cons piece rest ih =>
      rw [List.forall_mem_cons] at inline
      have written := indexes.write counts regular atMargin inline.1 admits.1
      have sameOptions := buffer.options_write piece
      apply ih written (counts.write regular inline.1) _ atMargin inline.2
      · rw [sameOptions]
        exact admits.2
      · rw [sameOptions]
        exact regular

/-- Marks that wait at the margin lie in the text, on its last line. -/
theorem liesIn (indexes : buffer.Indexes state) (counts : buffer.Counts)
    (atMargin : ∀ depth ∈ state.waiting, depth = 0) :
    ∀ mark ∈ buffer.marks, mark.place.LiesIn buffer.options.lineEnding buffer.text := by
  intro mark member
  rcases indexes.placed mark member with lies | ⟨depth, waits, onLine, positive, reached⟩
  · exact lies
  · rw [atMargin depth waits, Nat.mul_zero] at reached
    apply TextPlace.liesIn_of_last_line
    · rw [counts.place]
      exact onLine
    · exact positive
    · rw [counts.place]
      exact Nat.le_trans reached (Nat.le_add_left _ _)

end Indexes

end Buffer

/-- If every piece is admitted, the marks of a fragment are an index into its text. -/
theorem Fragment.indexes_writeFragment {fragment : Fragment} {options : LayoutOptions}
    (regular : options.Regular) (inline : ∀ piece ∈ fragment.pieces, piece.stroke.IsInline)
    (admits : LineState.start.AdmitsAll options.indent.length fragment.pieces)
    (atMargin : ∀ depth ∈ (LineState.start.run fragment.pieces).waiting, depth = 0) :
    let rendering := ((Buffer.empty options).writeFragment fragment).endLine.rendering
    rendering.marks.Pairwise (fun first second => first.place ≤ second.place) ∧
      ∀ mark ∈ rendering.marks, mark.place.LiesIn options.lineEnding rendering.text := by
  have counts := ((Buffer.counts_empty options).writeFragment regular inline)
  have indexes : ((Buffer.empty options).writeFragment fragment).Indexes
      (LineState.start.run fragment.pieces) :=
    (Buffer.Indexes.empty options).foldl_write (Buffer.counts_empty options) regular rfl
      inline admits
  have sameOptions := (Buffer.empty options).options_writeFragment fragment
  have ended := indexes.endLine
  have endCounts := counts.endLine (by rw [sameOptions]; exact regular)
  refine ⟨ended.sorted, ?_⟩
  have lies := ended.liesIn endCounts (by
    intro depth waits
    split at waits
    · exact atMargin depth waits
    · cases waits)
  rw [Buffer.options_endLine, sameOptions] at lies
  exact lies

namespace Buffer

/-- The marks show lines in order, from the first one to the current one. -/
structure InLineOrder (buffer : Buffer) : Prop where
  counted : 1 ≤ buffer.line
  sorted : buffer.marks.Pairwise fun first second => first.line ≤ second.line
  passed : ∀ mark ∈ buffer.marks, 1 ≤ mark.line ∧ mark.line ≤ buffer.line

namespace InLineOrder

variable {buffer : Buffer}

theorem empty (options : LayoutOptions) : (Buffer.empty options).InLineOrder :=
  ⟨Nat.le_refl 1, List.Pairwise.nil, fun _ member => (List.not_mem_nil member).elim⟩

theorem append (ordered : buffer.InLineOrder) (written : String) :
    (buffer.append written).InLineOrder := by
  unfold Buffer.append
  split
  · exact ordered
  · split <;> exact ⟨ordered.counted, ordered.sorted, ordered.passed⟩

theorem breakLine (ordered : buffer.InLineOrder) : buffer.breakLine.InLineOrder := by
  refine ⟨Nat.le_succ_of_le ordered.counted, ordered.sorted, ?_⟩
  intro mark member
  obtain ⟨positive, passed⟩ := ordered.passed mark member
  exact ⟨positive, Nat.le_succ_of_le passed⟩

theorem endLine (ordered : buffer.InLineOrder) : buffer.endLine.InLineOrder := by
  unfold Buffer.endLine
  split
  · exact ordered
  · exact ordered.breakLine

theorem mark (ordered : buffer.InLineOrder) (location : SourceLocation) :
    (buffer.mark (some location)).InLineOrder := by
  unfold Buffer.mark
  dsimp only
  split
  · refine ⟨ordered.counted, ?_, ?_⟩
    · dsimp only
      rw [List.pairwise_append]
      refine ⟨ordered.sorted, List.pairwise_singleton _ _, ?_⟩
      intro mark member added isAdded
      rw [List.mem_singleton.mp isAdded]
      exact (ordered.passed mark member).2
    · intro mark member
      rcases List.mem_append.mp member with earlier | isAdded
      · exact ordered.passed mark earlier
      · rw [List.mem_singleton.mp isAdded]
        exact ⟨ordered.counted, Nat.le_refl _⟩
  · exact ordered

theorem write (ordered : buffer.InLineOrder) (piece : Piece) :
    (buffer.write piece).InLineOrder := by
  obtain ⟨depth, stroke⟩ := piece
  have lowered : { buffer with level := buffer.level + depth }.InLineOrder :=
    ⟨ordered.counted, ordered.sorted, ordered.passed⟩
  have written : ({ buffer with level := buffer.level + depth }.apply stroke).InLineOrder := by
    cases stroke with
    | text written => exact lowered.append written
    | line written => exact (lowered.append written).breakLine
    | finish => exact lowered.endLine
    | mark location => exact lowered.mark location
  exact ⟨written.counted, written.sorted, written.passed⟩

theorem writeFragment (ordered : buffer.InLineOrder) (fragment : Fragment) :
    (buffer.writeFragment fragment).InLineOrder := by
  unfold Buffer.writeFragment
  induction fragment.pieces generalizing buffer with
  | nil => exact ordered
  | cons piece rest ih => exact ih (ordered.write piece)

end InLineOrder

end Buffer

end BuildScribe
