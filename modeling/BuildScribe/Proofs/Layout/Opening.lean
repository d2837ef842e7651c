import BuildScribe.Proofs.Layout.Place
import BuildScribe.Proofs.Rendering.Composition

/-!
# Openings of fragments

A fragment opens at the margin if the first text that it would put on a fresh line
belongs to the level at which the fragment is written. Behind what the buffer puts in
front of that text stands the first character of the fragment, whether the fragment
starts a line or goes on with one.
-/

namespace BuildScribe

/-- Nothing deeper and no blank line comes before the first text of the pieces. -/
def opensAtMargin : List Piece → Prop
  | [] => True
  | ⟨depth, .text written⟩ :: rest =>
      if written = "" then opensAtMargin rest else depth = 0
  | ⟨depth, .line written⟩ :: _ => written ≠ "" ∧ depth = 0
  | ⟨_, .finish⟩ :: rest => opensAtMargin rest
  | ⟨_, .mark _⟩ :: rest => opensAtMargin rest

theorem opensAtMargin_append {first second : List Piece}
    (onFirst : opensAtMargin first) (onSecond : opensAtMargin second) :
    opensAtMargin (first ++ second) := by
  induction first with
  | nil => exact onSecond
  | cons piece rest ih =>
      obtain ⟨depth, stroke⟩ := piece
      cases stroke with
      | text written =>
          by_cases nothing : written = ""
          · simp only [opensAtMargin, nothing, if_true] at onFirst
            simpa [opensAtMargin, nothing] using ih onFirst
          · simpa [opensAtMargin, nothing] using onFirst
      | line written => exact onFirst
      | finish => exact ih onFirst
      | mark location => exact ih onFirst

namespace Fragment

theorem append_assoc (first second third : Fragment) :
    first ++ second ++ third = first ++ (second ++ third) := by
  change (first.andThen second).andThen third = first.andThen (second.andThen third)
  unfold andThen
  cases first.failure with
  | some failure => rfl
  | none => cases second.failure <;> simp

def OpensAtMargin (fragment : Fragment) : Prop :=
  opensAtMargin fragment.pieces

namespace OpensAtMargin

theorem empty : Fragment.empty.OpensAtMargin := trivial

theorem text (written : String) : (Fragment.text written).OpensAtMargin := by
  by_cases nothing : written = "" <;>
    simp [OpensAtMargin, Fragment.text, ofStroke, opensAtMargin, nothing]

theorem finish : Fragment.finish.OpensAtMargin := trivial

theorem fail (failure : Failure) : (Fragment.fail failure).OpensAtMargin := trivial

theorem mark (location : Option SourceLocation) :
    (Fragment.mark location).OpensAtMargin := by
  cases location <;> trivial

theorem append {first second : Fragment} (onFirst : first.OpensAtMargin)
    (onSecond : second.OpensAtMargin) : (first ++ second).OpensAtMargin := by
  cases fails : first.failure with
  | none =>
      rw [OpensAtMargin, pieces_append fails]
      exact opensAtMargin_append onFirst onSecond
  | some failure =>
      rw [OpensAtMargin, pieces_append_of_fails fails]
      exact onFirst

/-- Behind a text at the margin may come anything. -/
theorem text_append {written : String} (something : written ≠ "")
    (behind : Fragment) : (Fragment.text written ++ behind).OpensAtMargin := by
  rw [OpensAtMargin, pieces_append rfl]
  exact (if_neg something).mpr rfl

theorem line_append {written : String} (something : written ≠ "")
    (behind : Fragment) : (Fragment.line written ++ behind).OpensAtMargin := by
  rw [OpensAtMargin, pieces_append rfl]
  exact ⟨something, rfl⟩

end OpensAtMargin

end Fragment

namespace Buffer

theorem text_append_extends (buffer : Buffer) (written : String) :
    ∃ added, (buffer.append written).text = buffer.text ++ added := by
  unfold append
  split
  · exact ⟨"", String.append_empty.symm⟩
  · split
    · exact ⟨buffer.currentIndent ++ written, String.append_assoc ..⟩
    · exact ⟨written, rfl⟩

theorem text_endLine_extends (buffer : Buffer) :
    ∃ added, buffer.endLine.text = buffer.text ++ added := by
  unfold endLine
  split
  · exact ⟨"", String.append_empty.symm⟩
  · exact ⟨buffer.options.lineEnding, rfl⟩

theorem text_mark (buffer : Buffer) (location : Option SourceLocation) :
    (buffer.mark location).text = buffer.text := by
  unfold mark
  cases location with
  | none => rfl
  | some known => dsimp only; split <;> rfl

theorem fresh_mark (buffer : Buffer) (location : Option SourceLocation) :
    (buffer.mark location).fresh = buffer.fresh := by
  unfold mark
  cases location with
  | none => rfl
  | some known => dsimp only; split <;> rfl

/-- A piece leaves what was written before it. -/
theorem text_write_extends (buffer : Buffer) (piece : Piece) :
    ∃ added, (buffer.write piece).text = buffer.text ++ added := by
  obtain ⟨depth, stroke⟩ := piece
  cases stroke with
  | text written => exact text_append_extends _ written
  | line written =>
      obtain ⟨added, grown⟩ := text_append_extends
        { buffer with level := buffer.level + depth } written
      refine ⟨added ++ buffer.options.lineEnding, ?_⟩
      have ended : (buffer.write ⟨depth, .line written⟩).text =
          ({ buffer with level := buffer.level + depth }.append written).text ++
            ({ buffer with level := buffer.level + depth }.append
              written).options.lineEnding := rfl
      rw [ended, grown, options_append, String.append_assoc]
  | finish => exact text_endLine_extends _
  | mark location => exact ⟨"", by rw [String.append_empty]; exact text_mark _ _⟩

theorem text_foldl_write_extends (buffer : Buffer) (pieces : List Piece) :
    ∃ added, (pieces.foldl write buffer).text = buffer.text ++ added := by
  induction pieces generalizing buffer with
  | nil => exact ⟨"", String.append_empty.symm⟩
  | cons piece rest ih =>
      obtain ⟨first, onFirst⟩ := buffer.text_write_extends piece
      obtain ⟨others, onOthers⟩ := ih (buffer.write piece)
      exact ⟨first ++ others, by
        rw [List.foldl_cons, onOthers, onFirst, String.append_assoc]⟩

/-- What the buffer puts in front of a text, and then a character. -/
def Begins (buffer : Buffer) (added : String) : Prop :=
  added ≠ "" → ∃ first rest, added = buffer.lead ++ String.ofList (first :: rest)

theorem begins_of_lead {buffer : Buffer} {written : String}
    (something : written ≠ "") (behind : String) :
    buffer.Begins (buffer.lead ++ written ++ behind) := by
  intro _
  cases known : written.toList with
  | nil => exact (something (String.toList_eq_nil_iff.mp known)).elim
  | cons first rest =>
      refine ⟨first, rest ++ behind.toList, ?_⟩
      apply String.toList_injective
      simp [known]

theorem begins_of_not_fresh {buffer : Buffer} (goesOn : buffer.fresh = false)
    (added : String) : buffer.Begins added := by
  intro something
  have noLead : buffer.lead = "" := by simp [lead, goesOn]
  have begins : buffer.Begins (buffer.lead ++ added ++ "") :=
    begins_of_lead something ""
  rw [noLead, String.empty_append, String.append_empty] at begins
  exact begins something

theorem text_append_of_fresh {buffer : Buffer} (starts : buffer.fresh = true)
    {written : String} (something : written ≠ "") :
    (buffer.append written).text = buffer.text ++ (buffer.lead ++ written) := by
  have notEmpty : written.isEmpty = false := by
    rwa [Bool.eq_false_iff, ne_eq, String.isEmpty_iff]
  simp [append, notEmpty, starts, lead, String.append_assoc]

/-- On a fresh line the strokes before the first text put nothing there, and that text
comes at the level of the buffer. -/
theorem text_foldl_write_of_fresh {buffer : Buffer} (starts : buffer.fresh = true)
    {pieces : List Piece} (opens : opensAtMargin pieces) :
    ∃ added, (pieces.foldl write buffer).text = buffer.text ++ added ∧
      buffer.Begins added := by
  -- By induction on the strokes up to the first text that is not empty. Until then the
  -- buffer stays fresh, so its lead stays due; from there on texts only grow.
  induction pieces generalizing buffer with
  | nil => exact ⟨"", String.append_empty.symm, fun something => (something rfl).elim⟩
  | cons piece rest ih =>
      obtain ⟨depth, stroke⟩ := piece
      cases stroke with
      | text written =>
          by_cases nothing : written = ""
          · subst nothing
            exact ih starts opens
          · have atMargin : depth = 0 := by simpa [opensAtMargin, nothing] using opens
            subst atMargin
            have inked : (buffer.write ⟨0, .text written⟩).text =
                buffer.text ++ (buffer.lead ++ written) :=
              text_append_of_fresh starts nothing
            obtain ⟨more, grown⟩ :=
              (buffer.write ⟨0, .text written⟩).text_foldl_write_extends rest
            refine ⟨buffer.lead ++ written ++ more, ?_, begins_of_lead nothing more⟩
            rw [List.foldl_cons, grown, inked, String.append_assoc]
      | line written =>
          obtain ⟨something, rfl⟩ := opens
          have inked : (buffer.write ⟨0, .line written⟩).text =
              buffer.text ++ (buffer.lead ++ written) ++
                (buffer.append written).options.lineEnding :=
            congrArg (· ++ (buffer.append written).options.lineEnding)
              (text_append_of_fresh starts something)
          obtain ⟨more, grown⟩ :=
            (buffer.write ⟨0, .line written⟩).text_foldl_write_extends rest
          refine ⟨buffer.lead ++ written ++
            ((buffer.append written).options.lineEnding ++ more), ?_,
            begins_of_lead something _⟩
          rw [List.foldl_cons, grown, inked]
          simp only [String.append_assoc]
      | finish =>
          have unchanged : buffer.write ⟨depth, .finish⟩ = buffer := by
            unfold write apply endLine
            rw [if_pos starts]
          rw [List.foldl_cons, unchanged]
          exact ih starts opens
      | mark location =>
          have sameText : (buffer.write ⟨depth, .mark location⟩).text = buffer.text :=
            text_mark _ _
          have sameStart :
              (buffer.write ⟨depth, .mark location⟩).fresh = buffer.fresh :=
            fresh_mark _ _
          have sameLead :
              (buffer.write ⟨depth, .mark location⟩).lead = buffer.lead := by
            have sameOptions := options_write buffer ⟨depth, .mark location⟩
            unfold lead currentIndent
            rw [sameStart, sameOptions]
            rfl
          obtain ⟨added, grown, begins⟩ := ih (sameStart.trans starts) opens
          rw [Begins, sameLead] at begins
          exact ⟨added, by rw [List.foldl_cons, grown, sameText], begins⟩

/-- A fragment that opens at the margin begins behind the lead of the buffer. -/
theorem text_writeFragment_begins (buffer : Buffer) {fragment : Fragment}
    (opens : fragment.OpensAtMargin) :
    ∃ added, (buffer.writeFragment fragment).text = buffer.text ++ added ∧
      buffer.Begins added := by
  cases starts : buffer.fresh with
  | true => exact text_foldl_write_of_fresh starts opens
  | false =>
      obtain ⟨added, grown⟩ := buffer.text_foldl_write_extends fragment.pieces
      exact ⟨added, grown, begins_of_not_fresh starts added⟩

end Buffer

end BuildScribe
