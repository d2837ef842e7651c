import BuildScribe.Proofs.History
import BuildScribe.Scoping.Forest
import Mathlib.Data.List.Basic

/-!
# Forests and their histories

An entry of a forest is known by its number, and so are the entries around it. Adding an entry
leaves all others as they are, changing one leaves all others and every way outwards as it is.
Where every entry was made, and how it was changed since, determines the forest.
-/

namespace BuildScribe

namespace Forest

variable {α β : Type} {forest : Forest α} {number other above : Nat}

def outerIn : List (Option Nat × α) → Nat → Option Nat
  | [], _ => none
  | (outer, _) :: older, number =>
      if number = older.length then outer else outerIn older number

/-- The number of the entry around an entry. -/
def outer? (forest : Forest α) (number : Nat) : Option Nat :=
  outerIn forest.nodes number

def outwardIn : List (Option Nat × α) → Nat → List Nat
  | [], _ => []
  | (outer, _) :: older, number =>
      if number = older.length then
        number :: (outer.map (outwardIn older)).getD []
      else outwardIn older number

/-- The numbers of the entries on the way from an entry to its root. -/
def outward (forest : Forest α) (number : Nat) : List Nat :=
  outwardIn forest.nodes number

/-- Every forest comes from the empty one by adding entries. -/
@[elab_as_elim]
theorem by_adding {motive : Forest α → Prop} (empty : motive .empty)
    (add : ∀ forest outer value, motive forest → motive (forest.add outer value))
    (forest : Forest α) : motive forest := by
  obtain ⟨nodes⟩ := forest
  induction nodes with
  | nil => exact empty
  | cons node older ih => exact add ⟨older⟩ node.1 node.2 ih

@[simp]
theorem size_empty : (empty : Forest α).size = 0 :=
  rfl

@[simp]
theorem size_add (forest : Forest α) (outer : Option Nat) (value : α) :
    (forest.add outer value).size = forest.size + 1 :=
  rfl

@[simp]
theorem get?_empty (number : Nat) : (empty : Forest α).get? number = none :=
  rfl

@[simp]
theorem outer?_empty (number : Nat) : (empty : Forest α).outer? number = none :=
  rfl

@[simp]
theorem outward_empty (number : Nat) : (empty : Forest α).outward number = [] :=
  rfl

theorem lineage_add (forest : Forest α) (outer : Option Nat) (value : α) (number : Nat) :
    (forest.add outer value).lineage number =
      if number = forest.size then value :: (outer.map forest.lineage).getD []
      else forest.lineage number := by
  cases outer <;> rfl

theorem get?_add (forest : Forest α) (outer : Option Nat) (value : α) (number : Nat) :
    (forest.add outer value).get? number =
      if number = forest.size then some value else forest.get? number := by
  rw [get?, lineage_add]
  split
  · rfl
  · rfl

theorem outer?_add (forest : Forest α) (outer : Option Nat) (value : α) (number : Nat) :
    (forest.add outer value).outer? number =
      if number = forest.size then outer else forest.outer? number :=
  rfl

theorem outward_add (forest : Forest α) (outer : Option Nat) (value : α) (number : Nat) :
    (forest.add outer value).outward number =
      if number = forest.size then number :: (outer.map forest.outward).getD []
      else forest.outward number :=
  rfl

theorem modify_add (forest : Forest α) (outer : Option Nat) (value : α) (number : Nat)
    (change : α → α) :
    (forest.add outer value).modify number change =
      if number = forest.size then forest.add outer (change value)
      else (forest.modify number change).add outer value := by
  rw [modify, add, modifyIn]
  change Forest.mk (if number = forest.size then _ else _) = _
  by_cases newest : number = forest.size
  · rw [if_pos newest, if_pos newest]
    rfl
  · rw [if_neg newest, if_neg newest]
    rfl

@[simp]
theorem size_modify (forest : Forest α) (number : Nat) (change : α → α) :
    (forest.modify number change).size = forest.size := by
  induction forest using by_adding with
  | empty => rfl
  | add forest outer value ih =>
      rw [modify_add]
      split
      · rfl
      · rw [size_add, size_add, ih]

theorem get?_modify (forest : Forest α) (number : Nat) (change : α → α) (other : Nat) :
    (forest.modify number change).get? other =
      if other = number then (forest.get? other).map change else forest.get? other := by
  induction forest using by_adding with
  | empty => simp [modify, modifyIn, empty, get?, lineage, lineageIn]
  | add forest outer value ih =>
      rw [modify_add]
      by_cases newest : number = forest.size
      · rw [if_pos newest, get?_add, get?_add]
        by_cases same : other = number
        · rw [if_pos same, if_pos (same.trans newest), if_pos (same.trans newest)]
          rfl
        · have older : other ≠ forest.size := fun isNewest =>
            same (isNewest.trans newest.symm)
          rw [if_neg same, if_neg older, if_neg older]
      · rw [if_neg newest, get?_add, get?_add, size_modify, ih]
        by_cases isNewest : other = forest.size
        · have apart : other ≠ number := fun same => newest (same.symm.trans isNewest)
          rw [if_pos isNewest, if_neg apart, if_pos isNewest]
        · rw [if_neg isNewest, if_neg isNewest]

/-- Only what is made of the entry itself counts. -/
theorem modify_congr {change another : α → α}
    (same : ∀ value, forest.get? number = some value → change value = another value) :
    forest.modify number change = forest.modify number another := by
  induction forest using by_adding with
  | empty => rfl
  | add forest outer value ih =>
      rw [modify_add, modify_add]
      by_cases newest : number = forest.size
      · have sameValue : change value = another value :=
          same value (by rw [get?_add, if_pos newest])
        rw [if_pos newest, if_pos newest, sameValue]
      · have sameBelow := ih fun below isBelow =>
          same below (by rw [get?_add, if_neg newest, isBelow])
        rw [if_neg newest, if_neg newest, sameBelow]

@[simp]
theorem outer?_modify (forest : Forest α) (number : Nat) (change : α → α) :
    (forest.modify number change).outer? = forest.outer? := by
  induction forest using by_adding with
  | empty => rfl
  | add forest outer value ih =>
      funext other
      rw [modify_add]
      split
      · rfl
      · rw [outer?_add, outer?_add, size_modify, ih]

@[simp]
theorem outward_modify (forest : Forest α) (number : Nat) (change : α → α) :
    (forest.modify number change).outward = forest.outward := by
  induction forest using by_adding with
  | empty => rfl
  | add forest outer value ih =>
      funext other
      rw [modify_add]
      split
      · rfl
      · rw [outward_add, outward_add, size_modify, ih]

theorem get?_eq_none_iff : forest.get? number = none ↔ forest.size ≤ number := by
  induction forest using by_adding with
  | empty => simp
  | add forest outer value ih =>
      rw [get?_add, size_add]
      by_cases newest : number = forest.size
      · simp [newest]
      · rw [if_neg newest, ih]
        omega

theorem exists_get?_of_lt (known : number < forest.size) :
    ∃ value, forest.get? number = some value := by
  rw [← Option.ne_none_iff_exists', Ne, get?_eq_none_iff]
  exact Nat.not_le_of_lt known

theorem lt_size_of_get? {value : α} (held : forest.get? number = some value) :
    number < forest.size := by
  rw [← Nat.not_le, ← get?_eq_none_iff, held]
  exact Option.some_ne_none value

/-- On the way outwards the numbers go down. -/
theorem outward_decreases (forest : Forest α) (number : Nat) :
    (∀ step ∈ forest.outward number, step ≤ number ∧ step < forest.size) ∧
      (forest.outward number).Pairwise (· > ·) := by
  induction forest using by_adding generalizing number with
  | empty => simp
  | add forest outer value ih =>
      rw [outward_add, size_add]
      split
      · next newest =>
          cases outer with
          | none => simp [newest]
          | some above =>
              obtain ⟨bounded, decreasing⟩ := ih above
              simp only [Option.map_some, Option.getD_some, List.mem_cons,
                List.pairwise_cons]
              refine ⟨?_, fun step isStep => ?_, decreasing⟩
              · rintro step (isFirst | isStep)
                · omega
                · have := bounded step isStep
                  omega
              · have := bounded step isStep
                omega
      · obtain ⟨bounded, decreasing⟩ := ih number
        exact ⟨fun step isStep => ⟨(bounded step isStep).1,
          Nat.lt_succ_of_lt (bounded step isStep).2⟩, decreasing⟩

theorem le_of_mem_outward (onTheWay : other ∈ forest.outward number) : other ≤ number :=
  ((forest.outward_decreases number).1 other onTheWay).1

theorem lt_size_of_mem_outward (onTheWay : other ∈ forest.outward number) :
    other < forest.size :=
  ((forest.outward_decreases number).1 other onTheWay).2

/-- The lineage of an entry lists the entries on the way outwards. -/
theorem lineage_eq (forest : Forest α) (number : Nat) :
    forest.lineage number = (forest.outward number).filterMap forest.get? := by
  induction forest using by_adding generalizing number with
  | empty => rfl
  | add forest outer value ih =>
      have older (above : Nat) :
          (forest.outward above).filterMap (forest.add outer value).get? =
            (forest.outward above).filterMap forest.get? := by
        apply List.filterMap_congr
        intro step isStep
        rw [get?_add, if_neg (Nat.ne_of_lt (lt_size_of_mem_outward isStep))]
      rw [lineage_add, outward_add]
      by_cases newest : number = forest.size
      · rw [if_pos newest, if_pos newest]
        have first : (forest.add outer value).get? number = some value := by
          rw [get?_add, if_pos newest]
        rw [List.filterMap_cons_some first]
        cases outer with
        | none => rfl
        | some above =>
            rw [Option.map_some, Option.getD_some, Option.map_some, Option.getD_some, ih,
              older]
      · rw [if_neg newest, if_neg newest, ih, older]

theorem outward_eq_nil_of_le (beyond : forest.size ≤ number) :
    forest.outward number = [] := by
  induction forest using by_adding with
  | empty => rfl
  | add forest outer value ih =>
      rw [size_add] at beyond
      rw [outward_add, if_neg (by omega)]
      exact ih (by omega)

/-- What is looked up in the lineage is looked up entry by entry on the way outwards. -/
theorem findSome?_lineage (find : α → Option β) (forest : Forest α) (number : Nat) :
    (forest.lineage number).findSome? find =
      (forest.outward number).findSome? fun step => (forest.get? step).bind find := by
  rw [lineage_eq, findSome?_filterMap]

theorem findSome?_congr {find found : Nat → Option β} {steps : List Nat}
    (same : ∀ step ∈ steps, found step = find step) :
    steps.findSome? found = steps.findSome? find := by
  rw [← List.head?_filterMap, ← List.head?_filterMap, List.filterMap_congr same]

/-- Where a lookup of what was read last at each step comes to something else after one more
event, the event is read at one of the steps. -/
theorem exists_read_of_changed {γ ε : Type} (find : Option β → Option γ)
    {reading : Nat → ε → Option β} {steps : List Nat} {past : List ε} {event : ε}
    (changed : (steps.findSome? fun step =>
        find (mostRecent? (reading step) (past ++ [event]))) ≠
      steps.findSome? fun step => find (mostRecent? (reading step) past)) :
    ∃ step ∈ steps, ∃ value, reading step event = some value := by
  by_contra unread
  refine changed (findSome?_congr fun step isStep => ?_)
  have nothing : reading step event = none := by
    rw [Option.eq_none_iff_forall_ne_some]
    intro value isRead
    exact unread ⟨step, isStep, value, isRead⟩
  rw [mostRecent?_concat, nothing, Option.none_or]

/-- What can be found at one step from now on is found by those who come to that step and have
found nothing before. -/
theorem findSome?_of_found (find found : Nat → Option β) {value : β}
    (here : found number = some value)
    (elsewhere : ∀ step, step ≠ number → found step = find step) (steps : List Nat) :
    steps.findSome? found = steps.findSome? find ∨
      number ∈ steps ∧ (∀ nearer ∈ steps.takeWhile (· ≠ number), find nearer = none) ∧
        steps.findSome? found = some value := by
  induction steps with
  | nil => exact .inl rfl
  | cons step rest ih =>
      by_cases same : step = number
      · refine .inr ⟨List.mem_cons.mpr (.inl same.symm), ?_, ?_⟩
        · rw [List.takeWhile_cons_of_neg (by simp [same])]
          simp
        · rw [List.findSome?_cons, same, here]
      · have further : (step :: rest).takeWhile (· ≠ number) =
            step :: rest.takeWhile (· ≠ number) :=
          List.takeWhile_cons_of_pos (by simp [same])
        rw [List.findSome?_cons, List.findSome?_cons, elsewhere step same]
        cases before : find step with
        | some earlier => exact .inl rfl
        | none =>
            rcases ih with unchanged | ⟨isStep, nothing, found⟩
            · exact .inl unchanged
            · refine .inr ⟨List.mem_cons_of_mem _ isStep, ?_, found⟩
              rw [further]
              intro nearer isNearer
              rcases List.mem_cons.mp isNearer with isFirst | inRest
              · rw [isFirst, before]
              · exact nothing nearer inRest

/-- Every entry was made later than the entry around it. -/
def Grounded (forest : Forest α) : Prop :=
  ∀ number above, forest.outer? number = some above → above < number

theorem outer?_eq_none_of_le (beyond : forest.size ≤ number) :
    forest.outer? number = none := by
  induction forest using by_adding with
  | empty => rfl
  | add forest outer value ih =>
      rw [size_add] at beyond
      rw [outer?_add, if_neg (by omega)]
      exact ih (by omega)

theorem Grounded.add (grounded : forest.Grounded) {outer : Option Nat}
    (known : ∀ above, outer = some above → above < forest.size) (value : α) :
    (forest.add outer value).Grounded := by
  intro number above isOuter
  rw [outer?_add] at isOuter
  split at isOuter
  · next newest => rw [newest]; exact known above isOuter
  · exact grounded number above isOuter

theorem Grounded.of_add {outer : Option Nat} {value : α}
    (grounded : (forest.add outer value).Grounded) : forest.Grounded := by
  intro number above isOuter
  have older : number ≠ forest.size := fun newest => by
    rw [outer?_eq_none_of_le (Nat.le_of_eq newest.symm)] at isOuter
    cases isOuter
  exact grounded number above (by rw [outer?_add, if_neg older, isOuter])

theorem Grounded.modify (grounded : forest.Grounded) (number : Nat) (change : α → α) :
    (forest.modify number change).Grounded := by
  intro other above isOuter
  rw [outer?_modify] at isOuter
  exact grounded other above isOuter

/-- The way outwards goes on from the entry around. -/
theorem Grounded.outward_eq (grounded : forest.Grounded) (known : number < forest.size) :
    forest.outward number =
      number :: ((forest.outer? number).map forest.outward).getD [] := by
  induction forest using by_adding generalizing number with
  | empty => exact (Nat.not_lt_zero _ known).elim
  | add forest outer value ih =>
      have olderWay (above : Nat) (older : above < forest.size) :
          (forest.add outer value).outward above = forest.outward above := by
        rw [outward_add, if_neg (Nat.ne_of_lt older)]
      rw [size_add] at known
      by_cases newest : number = forest.size
      · rw [outward_add, if_pos newest, outer?_add, if_pos newest]
        cases isOuter : outer with
        | none => rfl
        | some above =>
            have older : above < number :=
              grounded number above (by rw [outer?_add, if_pos newest, isOuter])
            have sameWay := olderWay above (newest ▸ older)
            rw [isOuter] at sameWay
            rw [Option.map_some, Option.map_some, Option.getD_some, Option.getD_some,
              sameWay]
      · have older : number < forest.size := by omega
        have groundedBefore := grounded.of_add
        rw [outward_add, if_neg newest, outer?_add, if_neg newest, ih groundedBefore older]
        cases isOuter : forest.outer? number with
        | none => rfl
        | some above =>
            have before := groundedBefore number above isOuter
            rw [Option.map_some, Option.map_some, Option.getD_some, Option.getD_some,
              olderWay above (Nat.lt_trans before older)]

theorem Grounded.mem_outward_self (grounded : forest.Grounded)
    (known : number < forest.size) : number ∈ forest.outward number := by
  rw [grounded.outward_eq known]
  exact List.mem_cons_self

/-- An entry lies inside no entry that is around it. -/
theorem not_mem_outward_of_around (around : above ∈ forest.outward number)
    (apart : above ≠ number) : number ∉ forest.outward above := by
  intro inside
  have outside := le_of_mem_outward around
  have within := le_of_mem_outward inside
  omega

/-- An entry lies inside no other entry with the same entry around it. -/
theorem Grounded.not_mem_outward_of_sibling (grounded : forest.Grounded)
    (sameOuter : forest.outer? other = forest.outer? number) (apart : other ≠ number) :
    number ∉ forest.outward other := by
  intro inside
  by_cases known : other < forest.size
  · rw [grounded.outward_eq known, sameOuter] at inside
    rcases List.mem_cons.mp inside with same | further
    · exact apart same.symm
    · cases isOuter : forest.outer? number with
      | none => simp [isOuter] at further
      | some above =>
          have before := grounded number above isOuter
          rw [isOuter] at further
          have within := le_of_mem_outward further
          omega
  · rw [outward_eq_nil_of_le (Nat.le_of_not_lt known)] at inside
    cases inside

end Forest

end BuildScribe
