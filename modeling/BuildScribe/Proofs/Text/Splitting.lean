/-!
# Texts in pieces

A text is split at every separator in it. The pieces between the separators are the only
texts without a separator that join to the text again.
-/

namespace BuildScribe

variable {separator : Char} {text : List Char}

theorem notMem_of_mem_splitOn {piece : List Char} (isPiece : piece ∈ text.splitOn separator) :
    separator ∉ piece := by
  induction text generalizing piece with
  | nil =>
      rw [List.splitOn_nil, List.mem_singleton] at isPiece
      simp [isPiece]
  | cons c rest ih =>
      rw [List.splitOn_cons_eq_if_modifyHead] at isPiece
      obtain ⟨first, others, split⟩ :=
        List.exists_cons_of_ne_nil (List.splitOn_ne_nil separator rest)
      rw [split] at isPiece ih
      split at isPiece
      · rcases List.mem_cons.mp isPiece with rfl | isPiece
        · exact List.not_mem_nil
        · exact ih isPiece
      · next other =>
          rw [List.modifyHead_cons] at isPiece
          rcases List.mem_cons.mp isPiece with rfl | isPiece
          · have apart : separator ≠ c := fun same => other (by simp [same])
            simpa [apart] using ih List.mem_cons_self
          · exact ih (List.mem_cons_of_mem first isPiece)

theorem eq_splitOn_iff {pieces : List (List Char)} :
    pieces = text.splitOn separator ↔
      pieces ≠ [] ∧ (∀ piece ∈ pieces, separator ∉ piece) ∧
        [separator].intercalate pieces = text := by
  constructor
  · rintro rfl
    exact ⟨List.splitOn_ne_nil separator text, fun _ => notMem_of_mem_splitOn,
      List.intercalate_splitOn separator⟩
  · rintro ⟨nonempty, unbroken, joined⟩
    rw [← joined, List.splitOn_intercalate separator unbroken nonempty]

end BuildScribe
