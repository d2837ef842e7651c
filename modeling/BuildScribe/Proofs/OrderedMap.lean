import BuildScribe.OrderedMap
import BuildScribe.Proofs.History
import Mathlib.Data.List.Induction

/-!
# Keys of ordered maps

Inserting a key keeps the keys as they are if it is one of them, and puts it behind
them otherwise. The keys of a map that is built by insertions are therefore distinct,
and a list whose keys are distinct already is the map that is built from it.
-/

namespace BuildScribe.OrderedMap

variable {κ α : Type} [DecidableEq κ]

theorem contains_iff {map : OrderedMap κ α} {key : κ} :
    map.contains key = true ↔ key ∈ map.keys := by
  simp [contains, keys]

/-- The value of an entry, if it is an entry for the key. -/
def valueFor? (key : κ) (entry : κ × α) : Option α :=
  if entry.1 = key then some entry.2 else none

theorem valueFor?_eq_some_iff {key : κ} {entry : κ × α} {value : α} :
    valueFor? key entry = some value ↔ entry = (key, value) := by
  rw [valueFor?, Option.ite_none_right_eq_some, Option.some.injEq, Prod.ext_iff]

theorem get?_eq_findSome? (map : OrderedMap κ α) (key : κ) :
    map.get? key = map.entries.findSome? (valueFor? key) := by
  obtain ⟨entries⟩ := map
  unfold get?
  induction entries with
  | nil => rfl
  | cons entry rest ih =>
      rw [List.findSome?_cons, List.find?_cons]
      by_cases same : entry.1 = key
      · simp [valueFor?, same]
      · simpa [valueFor?, same] using ih

theorem get?_eq_none_iff {map : OrderedMap κ α} {key : κ} :
    map.get? key = none ↔ key ∉ map.keys := by
  rw [get?, Option.map_eq_none_iff, List.find?_eq_none]
  simp only [keys, List.mem_map, decide_eq_true_eq, not_exists, not_and]

theorem keys_insert (map : OrderedMap κ α) (key : κ) (value : α) :
    (map.insert key value).keys =
      if key ∈ map.keys then map.keys else map.keys ++ [key] := by
  obtain ⟨entries⟩ := map
  unfold insert keys
  induction entries with
  | nil => rfl
  | cons entry rest ih =>
      dsimp only at ih ⊢
      by_cases same : entry.1 = key
      · simp [insertEntry, same]
      · have other : key ≠ entry.1 := Ne.symm same
        by_cases known : key ∈ rest.map (·.1)
        · rw [if_pos known] at ih
          rw [List.map_cons, if_pos (List.mem_cons_of_mem _ known), insertEntry,
            if_neg same, List.map_cons, ih]
        · rw [if_neg known] at ih
          rw [List.map_cons, if_neg (List.not_mem_cons_of_ne_of_not_mem other known),
            insertEntry, if_neg same, List.map_cons, ih, List.cons_append]

theorem nodup_keys_insert {map : OrderedMap κ α} (distinct : map.keys.Nodup) (key : κ)
    (value : α) : (map.insert key value).keys.Nodup := by
  rw [keys_insert]
  split
  · exact distinct
  · next new =>
      rw [List.nodup_append]
      refine ⟨distinct, by simp, ?_⟩
      intro known isKnown other isKey
      rw [List.mem_singleton.mp isKey]
      rintro rfl
      exact new isKnown

theorem nodup_keys_ofList (entries : List (κ × α)) : (ofList entries).keys.Nodup :=
  List.foldlRecOn entries _ (motive := fun map : OrderedMap κ α => map.keys.Nodup)
    List.nodup_nil
    fun _ distinct entry _ => nodup_keys_insert distinct entry.1 entry.2

theorem ofList_concat (entries : List (κ × α)) (entry : κ × α) :
    ofList (entries ++ [entry]) = (ofList entries).insert entry.1 entry.2 :=
  List.foldl_append

/-- The keys stand in the order in which they come first. -/
theorem keys_ofList (entries : List (κ × α)) :
    (ofList entries).keys = (entries.map (·.1)).eraseDups := by
  -- Entries are inserted behind those before, so the induction goes from the end.
  induction entries using List.reverseRecOn with
  | nil => rfl
  | append_singleton entries entry ih =>
      rw [ofList_concat, keys_insert, ih, List.map_append, List.map_singleton,
        List.eraseDups_append]
      simp only [List.mem_eraseDups]
      by_cases known : entry.1 ∈ entries.map (·.1)
      · simp [known, List.removeAll]
      · simp [known, List.removeAll, List.eraseDups_cons]

theorem mem_insertEntry {entry : κ × α} {key : κ} {value : α} {entries : List (κ × α)}
    (member : entry ∈ insertEntry key value entries) :
    entry = (key, value) ∨ entry ∈ entries := by
  induction entries with
  | nil => exact .inl (List.mem_singleton.mp member)
  | cons first rest ih =>
      rw [insertEntry] at member
      split at member
      · rcases List.mem_cons.mp member with isNew | isOld
        · exact .inl isNew
        · exact .inr (List.mem_cons_of_mem _ isOld)
      · rcases List.mem_cons.mp member with isFirst | inRest
        · exact .inr (isFirst ▸ List.mem_cons_self)
        · rcases ih inRest with isNew | isOld
          · exact .inl isNew
          · exact .inr (List.mem_cons_of_mem _ isOld)

theorem contains_insert {map : OrderedMap κ α} {key other : κ} {value : α} :
    (map.insert key value).contains other = true ↔
      other = key ∨ map.contains other = true := by
  rw [contains_iff, contains_iff, keys_insert]
  split
  · next known =>
      constructor
      · exact .inr
      · rintro (rfl | isOther)
        · exact known
        · exact isOther
  · rw [List.mem_append, List.mem_singleton, or_comm]

theorem get?_insert_self (map : OrderedMap κ α) (key : κ) (value : α) :
    (map.insert key value).get? key = some value := by
  obtain ⟨entries⟩ := map
  unfold get? insert
  induction entries with
  | nil => simp [insertEntry]
  | cons entry rest ih =>
      rw [insertEntry]
      split
      · simp
      · next other =>
          rw [List.find?_cons_of_neg (by simpa using other)]
          exact ih

theorem get?_insert_of_ne {key other : κ} (apart : other ≠ key) (map : OrderedMap κ α)
    (value : α) : (map.insert key value).get? other = map.get? other := by
  obtain ⟨entries⟩ := map
  unfold get? insert
  induction entries with
  | nil => simp [insertEntry, apart.symm]
  | cons entry rest ih =>
      dsimp only at ih ⊢
      rw [insertEntry]
      split
      · next same => simp [same, apart.symm]
      · by_cases found : entry.1 = other
        · simp [found]
        · rw [List.find?_cons_of_neg (by simpa using found),
            List.find?_cons_of_neg (by simpa using found)]
          exact ih

/-- The map with each value changed in view of its key. -/
def mapValues {β : Type} (change : κ → α → β) (map : OrderedMap κ α) : OrderedMap κ β :=
  ⟨map.entries.map fun entry => (entry.1, change entry.1 entry.2)⟩

section MapValues

variable {β : Type} (change : κ → α → β) (map : OrderedMap κ α)

omit [DecidableEq κ] in
theorem values_mapValues :
    (map.mapValues change).values = map.entries.map fun entry => change entry.1 entry.2 := by
  simp [values, mapValues, Function.comp_def]

theorem get?_mapValues (key : κ) :
    (map.mapValues change).get? key = (map.get? key).map (change key) := by
  obtain ⟨entries⟩ := map
  unfold get? mapValues
  induction entries with
  | nil => rfl
  | cons entry rest ih =>
      by_cases same : entry.1 = key
      · simp [same]
      · simpa [same] using ih

theorem mapValues_insert (key : κ) (value : α) :
    (map.insert key value).mapValues change =
      (map.mapValues change).insert key (change key value) := by
  obtain ⟨entries⟩ := map
  unfold insert mapValues
  congr 1
  induction entries with
  | nil => rfl
  | cons entry rest ih =>
      dsimp only at ih ⊢
      rw [List.map_cons, insertEntry, insertEntry]
      split
      · rfl
      · rw [List.map_cons, ih]

end MapValues

/-- Inserts all entries in order. -/
def insertAll (map : OrderedMap κ α) (entries : List (κ × α)) : OrderedMap κ α :=
  entries.foldl (fun map entry => map.insert entry.1 entry.2) map

theorem contains_insertAll {map : OrderedMap κ α} {entries : List (κ × α)} {key : κ} :
    (map.insertAll entries).contains key = true ↔
      map.contains key = true ∨ key ∈ entries.map (·.1) := by
  induction entries generalizing map with
  | nil => simp [insertAll]
  | cons entry rest ih =>
      change ((map.insert entry.1 entry.2).insertAll rest).contains key = true ↔ _
      rw [ih, contains_insert, List.map_cons, List.mem_cons, or_assoc, or_left_comm]

theorem get?_insertAll_of_notMem {map : OrderedMap κ α} {entries : List (κ × α)} {key : κ}
    (other : key ∉ entries.map (·.1)) : (map.insertAll entries).get? key = map.get? key := by
  induction entries generalizing map with
  | nil => rfl
  | cons entry rest ih =>
      rw [List.map_cons, List.mem_cons, not_or] at other
      change ((map.insert entry.1 entry.2).insertAll rest).get? key = _
      rw [ih other.2, get?_insert_of_ne other.1]

/-- Of the values that are inserted for a key, the most recent one counts. -/
theorem get?_insertAll (map : OrderedMap κ α) (entries : List (κ × α)) (key : κ) :
    (map.insertAll entries).get? key =
      (mostRecent? (valueFor? key) entries).or (map.get? key) := by
  induction entries generalizing map with
  | nil => rfl
  | cons entry rest ih =>
      change ((map.insert entry.1 entry.2).insertAll rest).get? key = _
      rw [ih, mostRecent?_cons, Option.or_assoc]
      congr 1
      by_cases same : entry.1 = key
      · rw [same, get?_insert_self, valueFor?, if_pos same, Option.some_or]
      · rw [get?_insert_of_ne (Ne.symm same), valueFor?, if_neg same, Option.none_or]

/-- Of several values of a key, the last one stays. -/
theorem get?_insertAll_of_last {map : OrderedMap κ α} {ahead behind : List (κ × α)} {key : κ}
    (last : key ∉ behind.map (·.1)) (value : α) :
    (map.insertAll (ahead ++ (key, value) :: behind)).get? key = some value := by
  have split : map.insertAll (ahead ++ (key, value) :: behind) =
      ((map.insertAll ahead).insert key value).insertAll behind := List.foldl_append
  rw [split, get?_insertAll_of_notMem last, get?_insert_self]

/-- Building a map brings in no entries of its own. -/
theorem mem_of_mem_ofList {entry : κ × α} {entries : List (κ × α)}
    (member : entry ∈ (ofList entries).entries) : entry ∈ entries := by
  have onlyListed : ∀ known ∈ (ofList entries).entries, known ∈ entries := by
    refine List.foldlRecOn entries _
      (motive := fun map : OrderedMap κ α => ∀ known ∈ map.entries, known ∈ entries)
      (fun known isKnown => (List.not_mem_nil isKnown).elim) ?_
    intro map onlyBefore inserted isListed known isKnown
    rcases mem_insertEntry isKnown with rfl | isOld
    · exact isListed
    · exact onlyBefore known isOld
  exact onlyListed entry member

theorem insertEntry_of_notMem {key : κ} {entries : List (κ × α)}
    (new : key ∉ entries.map (·.1)) (value : α) :
    insertEntry key value entries = entries ++ [(key, value)] := by
  induction entries with
  | nil => rfl
  | cons first rest ih =>
      rw [List.map_cons, List.mem_cons, not_or] at new
      rw [insertEntry, if_neg (Ne.symm new.1), ih new.2, List.cons_append]

/-- Without repeated keys, the entries of a map are those it is built from. -/
theorem entries_ofList {entries : List (κ × α)} (distinct : (entries.map (·.1)).Nodup) :
    (ofList entries).entries = entries := by
  have built (done rest : List (κ × α)) (distinct : ((done ++ rest).map (·.1)).Nodup) :
      (rest.foldl (fun map entry => map.insert entry.1 entry.2)
        (⟨done⟩ : OrderedMap κ α)).entries = done ++ rest := by
    induction rest generalizing done with
    | nil => simp
    | cons entry rest ih =>
        have new : entry.1 ∉ done.map (·.1) := by
          rw [List.map_append, List.map_cons, List.nodup_append] at distinct
          intro isDone
          exact distinct.2.2 _ isDone _ List.mem_cons_self rfl
        have inserted : (⟨done⟩ : OrderedMap κ α).insert entry.1 entry.2 =
            ⟨done ++ [entry]⟩ := by
          rw [insert, insertEntry_of_notMem new]
        rw [List.foldl_cons, inserted, ih (done ++ [entry]) (by simpa using distinct)]
        simp
  exact built [] entries distinct

end BuildScribe.OrderedMap
