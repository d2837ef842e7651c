import BuildScribe.Proofs.Building.Drafting

/-!
# Imports in order

An import set is strictly ascending and has exactly the paths that were inserted, so it
depends neither on their order nor on repetitions.
-/

namespace BuildScribe.ImportSet

theorem mem_insert {imports : ImportSet} {path other : String} :
    other ∈ insert path imports ↔ other = path ∨ other ∈ imports := by
  induction imports with
  | nil => simp [insert]
  | cons first rest ih =>
      unfold insert
      split
      · next same => simp [same]
      · split
        · rw [List.mem_cons]
        · rw [List.mem_cons, List.mem_cons, ih, or_left_comm]

theorem ascending_insert {imports : ImportSet} (ascending : imports.Pairwise (· < ·))
    (path : String) : (insert path imports).Pairwise (· < ·) := by
  induction imports with
  | nil => exact List.pairwise_singleton _ _
  | cons first rest ih =>
      have below := (List.pairwise_cons.mp ascending).1
      unfold insert
      split
      · exact ascending
      · next different =>
          split
          · next smaller =>
              rw [List.pairwise_cons]
              refine ⟨?_, ascending⟩
              intro other isOther
              rcases List.mem_cons.mp isOther with rfl | isRest
              · exact smaller
              · exact String.lt_trans smaller (below other isRest)
          · next notSmaller =>
              have larger : first < path := by
                apply Decidable.byContradiction
                intro notLarger
                exact different
                  (String.le_antisymm (String.not_lt.mp notLarger)
                    (String.not_lt.mp notSmaller))
              rw [List.pairwise_cons]
              refine ⟨?_, ih ascending.of_cons⟩
              intro other isOther
              rcases mem_insert.mp isOther with rfl | isRest
              · exact larger
              · exact below other isRest

theorem mem_insertAll {imports : ImportSet} {paths : List String} {other : String} :
    other ∈ insertAll imports paths ↔ other ∈ paths ∨ other ∈ imports := by
  induction paths generalizing imports with
  | nil => simp [insertAll]
  | cons path rest ih =>
      have step : insertAll imports (path :: rest) = insertAll (insert path imports) rest :=
        rfl
      rw [step, ih, mem_insert, List.mem_cons, or_left_comm, or_assoc]

theorem ascending_insertAll {imports : ImportSet} (ascending : imports.Pairwise (· < ·))
    (paths : List String) : (insertAll imports paths).Pairwise (· < ·) := by
  induction paths generalizing imports with
  | nil => exact ascending
  | cons path rest ih => exact ih (ascending_insert ascending path)

/-- Ascending lists with the same members are equal. -/
theorem eq_of_ascending {first second : ImportSet} (onFirst : first.Pairwise (· < ·))
    (onSecond : second.Pairwise (· < ·)) (same : ∀ path, path ∈ first ↔ path ∈ second) :
    first = second := by
  -- Ascending lists have no repetitions, so the two are permutations of each other, and
  -- there is only one ascending order.
  have distinct {paths : ImportSet} (ascending : paths.Pairwise (· < ·)) :
      paths.Nodup := by
    apply ascending.imp
    rintro path _ smaller rfl
    exact String.lt_irrefl path smaller
  have permuted : first.Perm second :=
    (List.perm_ext_iff_of_nodup (distinct onFirst) (distinct onSecond)).mpr same
  apply permuted.eq_of_pairwise _ onFirst onSecond
  intro path other _ _ smaller larger
  exact (String.lt_irrefl path (String.lt_trans smaller larger)).elim

end BuildScribe.ImportSet
