import BuildScribe.Json.Basic

/-!
# Equality of JSON values

Whether two values are the same can be computed. The order of members and the kind of
numbers count.
-/

namespace BuildScribe

namespace Json

mutual

def equals : Json → Json → Bool
  | null, null => true
  | bool left, bool right => left = right
  | number left, number right => left = right
  | string left, string right => left = right
  | array left, array right => equalsItems left right
  | object left, object right => equalsMembers left right
  | _, _ => false

def equalsItems : List Json → List Json → Bool
  | [], [] => true
  | left :: lefts, right :: rights => left.equals right && equalsItems lefts rights
  | _, _ => false

def equalsMembers : List (String × Json) → List (String × Json) → Bool
  | [], [] => true
  | (key, left) :: lefts, (other, right) :: rights =>
      key = other && left.equals right && equalsMembers lefts rights
  | _, _ => false

end

mutual

theorem equals_iff : (left right : Json) → left.equals right = true ↔ left = right
  | null, right => by cases right <;> simp [equals]
  | bool _, right => by cases right <;> simp [equals]
  | number _, right => by cases right <;> simp [equals]
  | string _, right => by cases right <;> simp [equals]
  | array items, right => by cases right <;> simp [equals, equalsItems_iff items]
  | object members, right => by cases right <;> simp [equals, equalsMembers_iff members]

theorem equalsItems_iff :
    (left right : List Json) → equalsItems left right = true ↔ left = right
  | [], right => by cases right <;> simp [equalsItems]
  | item :: rest, right => by
      cases right <;> simp [equalsItems, equals_iff item, equalsItems_iff rest]

theorem equalsMembers_iff :
    (left right : List (String × Json)) → equalsMembers left right = true ↔ left = right
  | [], right => by cases right <;> simp [equalsMembers]
  | (key, value) :: rest, right => by
      cases right with
      | nil => simp [equalsMembers]
      | cons member others =>
          obtain ⟨other, item⟩ := member
          simp [equalsMembers, equals_iff value, equalsMembers_iff rest]

end

instance : DecidableEq Json := fun left right => decidable_of_iff _ (equals_iff left right)

end Json

end BuildScribe
