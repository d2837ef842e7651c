import BuildScribe.Proofs.OrderedMap
import BuildScribe.Proofs.Scoping.Forest

/-!
# Forests from their histories

A forest grows as entries are made, inside other ones or as roots, and as entries are changed.
Its history determines it: the entries that were made give the ways outwards, and the changes
of an entry, applied in their order to what it began as, give the entry.
-/

namespace BuildScribe

variable {α ι δ : Type}

/-- What happens to a forest. -/
inductive Growth (ι δ : Type) where
  /-- An entry is made, inside another one or as a root. -/
  | made (outer : Option Nat) (start : ι)
  | changed (number : Nat) (change : δ)

namespace Growth

def making? : Growth ι δ → Option (Option Nat × ι)
  | made outer start => some (outer, start)
  | changed _ _ => none

def changeOf? (number : Nat) : Growth ι δ → Option δ
  | made _ _ => none
  | changed other change => if other = number then some change else none

/-- The entries that were made, in the order of their numbers: what is around them and what
they began as. -/
def makings (past : List (Growth ι δ)) : List (Option Nat × ι) :=
  past.filterMap making?

/-- The changes of one entry in their order. -/
def changes (past : List (Growth ι δ)) (number : Nat) : List δ :=
  past.filterMap (changeOf? number)

variable {past : List (Growth ι δ)}

theorem makings_made (outer : Option Nat) (start : ι) :
    makings (past ++ [.made outer start]) = makings past ++ [(outer, start)] := by
  simp [makings, making?]

theorem getElem?_makings_made (outer : Option Nat) (start : ι) (number : Nat) :
    (makings (past ++ [.made outer start]))[number]? =
      if number = (makings past).length then some (outer, start)
      else (makings past)[number]? := by
  rw [makings_made]
  by_cases newest : number = (makings past).length
  · simp [newest]
  · rw [if_neg newest, List.getElem?_append]
    split
    · rfl
    · next beyond =>
        rw [List.getElem?_eq_none (Nat.le_of_not_lt beyond), List.getElem?_eq_none]
        rw [List.length_singleton]
        omega

theorem makings_changed (number : Nat) (change : δ) :
    makings (past ++ [.changed number change]) = makings past := by
  simp [makings, making?]

theorem changes_made (outer : Option Nat) (start : ι) (number : Nat) :
    changes (past ++ [.made outer start]) number = changes past number := by
  simp [changes, changeOf?]

theorem changes_changed (other : Nat) (change : δ) (number : Nat) :
    changes (past ++ [.changed other change]) number =
      if other = number then changes past number ++ [change] else changes past number := by
  by_cases same : other = number
  · simp [changes, changeOf?, same]
  · simp [changes, changeOf?, same]

end Growth

namespace Forest

variable {fresh : ι → α} {apply : α → δ → α}

/-- A step of growth. Entries begin as `fresh` and are changed by `apply`; only entries that
are there are changed or have others made inside them. -/
inductive Grows (fresh : ι → α) (apply : α → δ → α) :
    Forest α → Growth ι δ → Forest α → Prop where
  | made {forest : Forest α} {outer : Option Nat} {start : ι} :
      (∀ above, outer = some above → above < forest.size) →
        Grows fresh apply forest (.made outer start) (forest.add outer (fresh start))
  | changed {forest : Forest α} {number : Nat} {change : δ} :
      number < forest.size →
        Grows fresh apply forest (.changed number change)
          (forest.modify number (apply · change))

/-- A forest that is what a history says. -/
structure Records (fresh : ι → α) (apply : α → δ → α) (past : List (Growth ι δ))
    (forest : Forest α) : Prop where
  size : forest.size = (Growth.makings past).length
  grounded : forest.Grounded
  /-- Nothing has happened to entries that are not there. -/
  unchanged : ∀ number, forest.size ≤ number → Growth.changes past number = []
  outer? : ∀ number, forest.outer? number = ((Growth.makings past)[number]?).bind (·.1)
  get? : ∀ number, forest.get? number = ((Growth.makings past)[number]?).map fun making =>
    (Growth.changes past number).foldl apply (fresh making.2)

namespace Records

variable {past : List (Growth ι δ)} {forest : Forest α}

theorem made (records : Records fresh apply past forest) {outer : Option Nat}
    (known : ∀ above, outer = some above → above < forest.size) (start : ι) :
    Records fresh apply (past ++ [.made outer start]) (forest.add outer (fresh start)) := by
  refine ⟨?_, records.grounded.add known _, fun number beyond => ?_, fun number => ?_,
    fun number => ?_⟩
  · simp [Growth.makings_made, records.size]
  · rw [Growth.changes_made]
    exact records.unchanged number (Nat.le_of_succ_le beyond)
  · rw [outer?_add, Growth.getElem?_makings_made, records.outer?, records.size]
    split
    · rfl
    · rfl
  · rw [get?_add, Growth.getElem?_makings_made, Growth.changes_made, records.get?,
      ← records.size]
    split
    · next newest =>
        rw [records.unchanged number (Nat.le_of_eq newest.symm)]
        rfl
    · rfl

theorem changed (records : Records fresh apply past forest) {number : Nat}
    (known : number < forest.size) (change : δ) :
    Records fresh apply (past ++ [.changed number change])
      (forest.modify number (apply · change)) := by
  refine ⟨?_, records.grounded.modify _ _, fun other beyond => ?_, fun other => ?_,
    fun other => ?_⟩
  · rw [size_modify, Growth.makings_changed, records.size]
  · rw [size_modify] at beyond
    have apart : number ≠ other := Nat.ne_of_lt (Nat.lt_of_lt_of_le known beyond)
    rw [Growth.changes_changed, if_neg apart]
    exact records.unchanged other beyond
  · rw [outer?_modify, Growth.makings_changed, records.outer?]
  · rw [get?_modify, Growth.makings_changed, Growth.changes_changed, records.get?]
    by_cases same : other = number
    · rw [if_pos same, if_pos same.symm, Option.map_map]
      simp [Function.comp_def]
    · rw [if_neg same, if_neg (Ne.symm same)]

/-- Where the changes of an entry go into a map, a key has there what it got last. -/
theorem get?_key {κ β : Type} [DecidableEq κ] {apply : α → κ × β → α}
    {past : List (Growth ι (κ × β))} (records : Records fresh apply past forest)
    (map : α → OrderedMap κ β) (begins : ∀ start, map (fresh start) = .empty)
    (enters : ∀ value entry, map (apply value entry) = (map value).insert entry.1 entry.2)
    (number : Nat) (key : κ) :
    (forest.get? number).bind (fun value => (map value).get? key) =
      mostRecent? (OrderedMap.valueFor? key) (Growth.changes past number) := by
  cases held : forest.get? number with
  | none =>
      rw [records.unchanged number (get?_eq_none_iff.mp held)]
      rfl
  | some value =>
      rw [records.get?] at held
      obtain ⟨making, _, rfl⟩ := Option.map_eq_some_iff.mp held
      have entered : map ((Growth.changes past number).foldl apply (fresh making.2)) =
          OrderedMap.empty.insertAll (Growth.changes past number) := by
        rw [← begins making.2]
        exact (List.foldl_hom map fun value entry => (enters value entry).symm).symm
      rw [Option.bind_some, entered]
      exact (OrderedMap.get?_insertAll _ _ key).trans Option.or_none

end Records

/-- A forest that has grown is what its history says. -/
theorem records_of_run {past : List (Growth ι δ)} {forest : Forest α}
    (run : Run (Grows fresh apply) .empty past forest) :
    Records fresh apply past forest := by
  have begun : Records fresh apply [] (.empty : Forest α) :=
    ⟨rfl, fun _ _ isOuter => by simp at isOuter, fun _ _ => rfl, fun _ => rfl, fun _ => rfl⟩
  refine run.invariant begun ?_
  intro past before event after records grows
  cases grows with
  | made known => exact records.made known _
  | changed known => exact records.changed known _

end Forest

end BuildScribe
