import BuildScribe.Proofs.Layout.Lines

/-!
# Places in a text

A place is a line and a column, counted from one. A buffer counts its lines and the
characters of the current line while it grows. As long as no piece of text brings a
line break of its own, these counters are the place behind the text, so a mark shows
the place at which the next text will stand.
-/

namespace BuildScribe

/-- A line, and a character on it, both counted from one. -/
structure TextPlace where
  line : Nat
  column : Nat
deriving DecidableEq

namespace TextPlace

/-- The place behind one character more. -/
def advance (place : TextPlace) (c : Char) : TextPlace :=
  if c = '\n' then ⟨place.line + 1, 1⟩ else ⟨place.line, place.column + 1⟩

/-- The place at which the next character stands behind a text. -/
def behind (text : String) : TextPlace :=
  text.toList.foldl advance ⟨1, 1⟩

end TextPlace

/-- The place that a mark shows. -/
def SourceMark.place (mark : SourceMark) : TextPlace :=
  ⟨mark.line, mark.column⟩

/-- Text that stays on its line. -/
def IsInline (text : String) : Prop :=
  '\n' ∉ text.toList

instance (text : String) : Decidable (IsInline text) :=
  inferInstanceAs (Decidable ('\n' ∉ text.toList))

namespace IsInline

@[simp] theorem append_iff {first second : String} :
    IsInline (first ++ second) ↔ IsInline first ∧ IsInline second := by
  simp [IsInline]

theorem append {first second : String} (onFirst : IsInline first)
    (onSecond : IsInline second) : IsInline (first ++ second) :=
  append_iff.mpr ⟨onFirst, onSecond⟩

end IsInline

/-- Lines that end as lines of a text do, behind an indent that ends none. -/
structure LayoutOptions.Regular (options : LayoutOptions) : Prop where
  ending : options.lineEnding = "\n" ∨ options.lineEnding = "\r\n"
  indent : IsInline options.indent

namespace TextPlace

theorem behind_append (first second : String) :
    behind (first ++ second) = second.toList.foldl advance (behind first) := by
  simp [behind, List.foldl_append]

theorem foldl_advance_of_inline {text : List Char} (inline : '\n' ∉ text)
    (place : TextPlace) :
    text.foldl advance place = ⟨place.line, place.column + text.length⟩ := by
  induction text generalizing place with
  | nil => rfl
  | cons c rest ih =>
      rw [List.mem_cons, not_or] at inline
      have stays : place.advance c = ⟨place.line, place.column + 1⟩ :=
        if_neg (Ne.symm inline.1)
      rw [List.foldl_cons, stays, ih inline.2]
      simp only [List.length_cons, TextPlace.mk.injEq, true_and]
      omega

theorem behind_append_inline {second : String} (inline : IsInline second)
    (first : String) :
    behind (first ++ second) =
      ⟨(behind first).line, (behind first).column + second.length⟩ := by
  rw [behind_append, foldl_advance_of_inline inline, String.length_toList]

theorem behind_append_lineEnding {options : LayoutOptions}
    (regular : options.Regular) (text : String) :
    behind (text ++ options.lineEnding) = ⟨(behind text).line + 1, 1⟩ := by
  rw [behind_append]
  rcases regular.ending with ending | ending <;> rw [ending] <;> rfl

end TextPlace

theorem isInline_indent {options : LayoutOptions} (regular : options.Regular)
    (level : Nat) : IsInline (String.ofList (Buffer.indentChars options level)) := by
  intro breaks
  rw [String.toList_ofList, Buffer.indentChars, List.mem_flatten] at breaks
  obtain ⟨copy, isCopy, breaksCopy⟩ := breaks
  rw [List.eq_of_mem_replicate isCopy] at breaksCopy
  exact regular.indent breaksCopy

namespace Buffer

/-- The counters of a buffer are the place behind its text. -/
structure Counts (buffer : Buffer) : Prop where
  place : TextPlace.behind buffer.text = ⟨buffer.line, buffer.width + 1⟩
  margin : buffer.fresh = true → buffer.width = 0

/-- What the buffer puts in front of the next text. -/
def lead (buffer : Buffer) : String :=
  if buffer.fresh then buffer.currentIndent else ""

theorem counts_empty (options : LayoutOptions) : (Buffer.empty options).Counts :=
  ⟨rfl, fun _ => rfl⟩

namespace Counts

variable {buffer : Buffer}

/-- The counters do not depend on the level. -/
theorem atLevel (counts : buffer.Counts) (level : Nat) :
    { buffer with level := level }.Counts :=
  ⟨counts.place, counts.margin⟩

theorem append (counts : buffer.Counts) (regular : buffer.options.Regular)
    {written : String} (inline : IsInline written) :
    (buffer.append written).Counts := by
  have indent : IsInline buffer.currentIndent := isInline_indent regular buffer.level
  unfold Buffer.append
  split
  · exact counts
  · split
    · constructor
      · simp [TextPlace.behind_append_inline inline, TextPlace.behind_append_inline indent,
          counts.place]
        omega
      · intro fresh
        cases fresh
    · constructor
      · simp [TextPlace.behind_append_inline inline, counts.place]
        omega
      · intro fresh
        simp_all

theorem breakLine (counts : buffer.Counts) (regular : buffer.options.Regular) :
    buffer.breakLine.Counts := by
  constructor
  · simp [Buffer.breakLine, TextPlace.behind_append_lineEnding regular, counts.place]
  · intro _
    rfl

theorem endLine (counts : buffer.Counts) (regular : buffer.options.Regular) :
    buffer.endLine.Counts := by
  unfold Buffer.endLine
  split
  · exact counts
  · exact counts.breakLine regular

theorem mark (counts : buffer.Counts) (location : Option SourceLocation) :
    (buffer.mark location).Counts := by
  unfold Buffer.mark
  cases location with
  | none => exact counts
  | some known =>
      dsimp only
      split
      · exact ⟨counts.place, counts.margin⟩
      · exact counts

/-- The next text will stand where a mark would be set now. -/
theorem nextPlace (counts : buffer.Counts) (regular : buffer.options.Regular) :
    TextPlace.behind (buffer.text ++ buffer.lead) = ⟨buffer.line, buffer.nextColumn⟩ := by
  have indent : IsInline buffer.currentIndent := isInline_indent regular buffer.level
  unfold lead nextColumn
  split
  · have margin := counts.margin ‹_›
    rw [TextPlace.behind_append_inline indent, counts.place, margin]
    simp only [TextPlace.mk.injEq, true_and]
    omega
  · rw [String.append_empty, counts.place]

end Counts

end Buffer

/-- A stroke whose text brings no line break of its own. -/
def Stroke.IsInline : Stroke → Prop
  | .text written => BuildScribe.IsInline written
  | .line written => BuildScribe.IsInline written
  | .finish => True
  | .mark _ => True

namespace Buffer.Counts

variable {buffer : Buffer}

theorem write (counts : buffer.Counts) (regular : buffer.options.Regular)
    {piece : Piece} (inline : piece.stroke.IsInline) :
    (buffer.write piece).Counts := by
  obtain ⟨depth, stroke⟩ := piece
  have lowered := counts.atLevel (buffer.level + depth)
  unfold Buffer.write
  apply atLevel
  cases stroke with
  | text written => exact lowered.append regular inline
  | line written =>
      have appended := lowered.append regular inline
      apply appended.breakLine
      rw [options_append]
      exact regular
  | finish => exact lowered.endLine regular
  | mark location => exact lowered.mark location

theorem writeFragment (counts : buffer.Counts) (regular : buffer.options.Regular)
    {fragment : Fragment}
    (inline : ∀ piece ∈ fragment.pieces, piece.stroke.IsInline) :
    (buffer.writeFragment fragment).Counts := by
  obtain ⟨pieces, failure⟩ := fragment
  unfold Buffer.writeFragment
  induction pieces generalizing buffer with
  | nil => exact counts
  | cons piece rest ih =>
      have written := counts.write regular (inline piece List.mem_cons_self)
      apply ih written
      · rw [options_write]
        exact regular
      · intro other member
        exact inline other (List.mem_cons_of_mem piece member)

end Buffer.Counts

end BuildScribe
