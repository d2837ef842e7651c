import BuildScribe.Json.Basic
import BuildScribe.Proofs.OrderedMap

/-!
# Values without repeated keys

A document may repeat the keys of its objects, the value that it stands for does not.
Merging leaves such a value as it is.
-/

namespace BuildScribe.Json

/-- The elements of a list and the values of an object's members. -/
def inner : Json → List Json
  | array items => items
  | object members => members.map (·.2)
  | _ => []

/-- No object repeats a key, at any depth. -/
inductive DistinctKeys : Json → Prop where
  | null : DistinctKeys .null
  | bool (value : Bool) : DistinctKeys (.bool value)
  | number (value : JsonNumber) : DistinctKeys (.number value)
  | string (value : String) : DistinctKeys (.string value)
  | array {items : List Json} :
      (∀ item ∈ items, DistinctKeys item) → DistinctKeys (.array items)
  | object {members : List (String × Json)} :
      (members.map (·.1)).Nodup → (∀ member ∈ members, DistinctKeys member.2) →
      DistinctKeys (.object members)

attribute [simp] DistinctKeys.null DistinctKeys.bool DistinctKeys.number
  DistinctKeys.string

@[simp] theorem distinctKeys_array {items : List Json} :
    (array items).DistinctKeys ↔ ∀ item ∈ items, item.DistinctKeys := by
  constructor
  · intro distinct
    cases distinct with
    | array onItems => exact onItems
  · exact .array

@[simp] theorem distinctKeys_object {members : List (String × Json)} :
    (object members).DistinctKeys ↔
      (members.map (·.1)).Nodup ∧ ∀ member ∈ members, member.2.DistinctKeys := by
  constructor
  · intro distinct
    cases distinct with
    | object keys onMembers => exact ⟨keys, onMembers⟩
  · rintro ⟨keys, onMembers⟩
    exact .object keys onMembers

theorem DistinctKeys.inner {json : Json} (distinct : json.DistinctKeys) :
    ∀ part ∈ json.inner, part.DistinctKeys := by
  cases distinct with
  | array onItems => exact onItems
  | object _ onMembers => exact List.forall_mem_map.mpr onMembers
  | _ => exact fun _ isPart => (List.not_mem_nil isPart).elim

theorem mergedItems_eq_map (items : List Json) : mergedItems items = items.map merged := by
  induction items with
  | nil => rfl
  | cons item rest ih => rw [mergedItems, ih, List.map_cons]

theorem mergedMembers_eq_map (members : List (String × Json)) :
    mergedMembers members = members.map fun member => (member.1, member.2.merged) := by
  induction members with
  | nil => rfl
  | cons member rest ih => rw [mergedMembers, ih, List.map_cons]

theorem DistinctKeys.merged_eq {json : Json} (distinct : json.DistinctKeys) :
    json.merged = json := by
  induction distinct with
  | null => rfl
  | bool value => rfl
  | number value => rfl
  | string value => rfl
  | array _ ih =>
      rw [merged, mergedItems_eq_map, List.map_congr_left ih, List.map_id']
  | @object members keys _ ih =>
      have unchanged : mergedMembers members = members := by
        rw [mergedMembers_eq_map]
        calc members.map (fun member => (member.1, member.2.merged))
            = members.map id := by
              apply List.map_congr_left
              intro member isMember
              rw [ih member isMember]
              rfl
          _ = members := List.map_id members
      rw [merged, unchanged, OrderedMap.entries_ofList keys]

end BuildScribe.Json
