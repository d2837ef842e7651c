import BuildScribe.Context.Setting
import BuildScribe.Proofs.OrderedMap
import BuildScribe.Proofs.Scoping.Growth

/-!
# Lookups in contexts

Contexts are opened and keys are bound in them in any order, to values of any kinds. A lookup
at a kind finds the nearest context whose most recent binding of the key is of that kind. A
binding is therefore seen by lookups of its key from its context and from inside it, and hides
what the context bound the key to before, of whatever kind that was.
-/

namespace BuildScribe

variable {α κ : Type}

/-- What happens to contexts. -/
inductive ContextEvent (α : Type) where
  | root
  | child (outer : Nat)
  | bound (number : Nat) (key : String) (value : α)

namespace ContextEvent

/-- What is around a new context. -/
def creation? : ContextEvent α → Option (Option Nat)
  | root => some none
  | child outer => some (some outer)
  | bound .. => none

/-- The key that is bound in a context, with its value. -/
def bindingIn? (number : Nat) : ContextEvent α → Option (String × α)
  | bound other key value => if other = number then some (key, value) else none
  | root | child _ => none

/-- The value that a key gets in a context. -/
def bindingOf? (number : Nat) (key : String) (event : ContextEvent α) : Option α :=
  (event.bindingIn? number).bind (OrderedMap.valueFor? key)

theorem bindingOf?_eq_some_iff {number : Nat} {key : String} {event : ContextEvent α}
    {value : α} :
    event.bindingOf? number key = some value ↔ event = .bound number key value := by
  rw [bindingOf?, Option.bind_eq_some_iff]
  constructor
  · intro binds
    obtain ⟨entry, isEntry, isValue⟩ := binds
    rw [OrderedMap.valueFor?_eq_some_iff] at isValue
    cases event with
    | bound other name bound =>
        obtain ⟨same, sameEntry⟩ := Option.ite_none_right_eq_some.mp isEntry
        rw [isValue] at sameEntry
        cases sameEntry
        rw [same]
    | _ => cases isEntry
  · intro binds
    rw [binds]
    exact ⟨(key, value), if_pos rfl, OrderedMap.valueFor?_eq_some_iff.mpr rfl⟩

def growth : ContextEvent α → Growth Unit (String × α)
  | root => .made none ()
  | child outer => .made (some outer) ()
  | bound number key value => .changed number (key, value)

theorem makings_growth (past : List (ContextEvent α)) :
    (Growth.makings (past.map growth)).map (·.1) = past.filterMap creation? := by
  rw [Growth.makings, List.filterMap_map, List.map_filterMap]
  congr 1
  funext event
  cases event <;> rfl

theorem changes_growth (past : List (ContextEvent α)) (number : Nat) :
    Growth.changes (past.map growth) number = past.filterMap (bindingIn? number) := by
  rw [Growth.changes, List.filterMap_map]
  congr 1
  funext event
  cases event <;> rfl

end ContextEvent

namespace Contexts

variable {contexts : Contexts α} {past : List (ContextEvent α)} {number : Nat}
  {key : String} {value : α}

/-- The operations on contexts. Handles on contexts come from creating them, so every
operation is on contexts that are there. -/
inductive Next : Contexts α → ContextEvent α → Contexts α → Prop where
  | root {contexts : Contexts α} : Next contexts .root contexts.root
  | child {contexts : Contexts α} {outer : Nat} :
      outer < contexts.size → Next contexts (.child outer) (contexts.child outer)
  | bound {contexts : Contexts α} {number : Nat} (key : String) (value : α) :
      number < contexts.size →
        Next contexts (.bound number key value) (contexts.bind number key value)

/-- Contexts that bind what their history says. -/
abbrev Recorded (past : List (ContextEvent α)) (contexts : Contexts α) : Prop :=
  Forest.Records (fun _ => OrderedMap.empty)
    (fun context (entry : String × α) => context.insert entry.1 entry.2)
    (past.map ContextEvent.growth) contexts

theorem recorded_empty : Recorded ([] : List (ContextEvent α)) .empty :=
  Forest.records_of_run (.done _)

theorem Recorded.next {event : ContextEvent α} {after : Contexts α}
    (recorded : Recorded past contexts) (next : Next contexts event after) :
    Recorded (past ++ [event]) after := by
  rw [Recorded, List.map_append]
  cases next with
  | root => exact recorded.made (by simp) ()
  | child known => exact recorded.made (fun _ isOuter => Option.some.inj isOuter ▸ known) ()
  | bound key value known => exact recorded.changed known (key, value)

theorem recorded_of_run (run : Run Next .empty past contexts) : Recorded past contexts :=
  run.invariant recorded_empty fun recorded next => recorded.next next

theorem Recorded.outer?_of_created (recorded : Recorded past contexts) {outer : Option Nat}
    (created : (past.filterMap ContextEvent.creation?)[number]? = some outer) :
    number < contexts.size ∧ contexts.outer? number = outer := by
  rw [← ContextEvent.makings_growth, List.getElem?_map] at created
  obtain ⟨making, isMaking, rfl⟩ := Option.map_eq_some_iff.mp created
  obtain ⟨known, _⟩ := List.getElem?_eq_some_iff.mp isMaking
  exact ⟨recorded.size ▸ known, by rw [recorded.outer?, isMaking]; rfl⟩

/-- A new context is around no context that was there before. -/
theorem Next.outer?_eq {event : ContextEvent α} {after : Contexts α}
    (next : Next contexts event after) (known : number < contexts.size) :
    number < after.size ∧ after.outer? number = contexts.outer? number := by
  have older := Nat.ne_of_lt known
  cases next with
  | root => exact ⟨Nat.lt_succ_of_lt known, (Forest.outer?_add ..).trans (if_neg older)⟩
  | child _ => exact ⟨Nat.lt_succ_of_lt known, (Forest.outer?_add ..).trans (if_neg older)⟩
  | bound _ _ _ => exact ⟨by simpa [bind] using known, by rw [bind, Forest.outer?_modify]⟩

theorem Next.outward_eq {event : ContextEvent α} {after : Contexts α}
    (next : Next contexts event after) (known : number < contexts.size) :
    after.outward number = contexts.outward number := by
  have older := Nat.ne_of_lt known
  cases next with
  | root => exact (Forest.outward_add ..).trans (if_neg older)
  | child _ => exact (Forest.outward_add ..).trans (if_neg older)
  | bound _ _ _ => rw [bind, Forest.outward_modify]

/-- What a context binds a key to, of whatever kind. -/
theorem get?_eq_mostRecent? (recorded : Recorded past contexts) (number : Nat)
    (key : String) :
    (contexts.get? number).bind (·.get? key) =
      mostRecent? (ContextEvent.bindingOf? number key) past := by
  have latest := recorded.get?_key id (fun _ => rfl) (fun _ _ => rfl) number key
  rw [ContextEvent.changes_growth, mostRecent?_filterMap] at latest
  exact latest

section Kinds

variable [HasKind α κ] [DecidableEq κ] {kind : κ}

/-- The value that a context itself binds a key to, at a kind. -/
def local? (contexts : Contexts α) (number : Nat) (key : String) (kind : κ) : Option α :=
  (contexts.get? number).bind (·.local? key kind)

theorem local?_eq (contexts : Contexts α) (number : Nat) (key : String) (kind : κ) :
    contexts.local? number key kind =
      ((contexts.get? number).bind (·.get? key)).filter (HasKind.kind · = kind) := by
  rw [local?]
  cases contexts.get? number <;> rfl

/-- A lookup goes from the context outwards. -/
theorem resolve?_eq (contexts : Contexts α) (number : Nat) (key : String) (kind : κ) :
    contexts.resolve? number key kind =
      (contexts.outward number).findSome? (contexts.local? · key kind) :=
  Forest.findSome?_lineage _ contexts number

theorem resolve?_eq_mostRecent? (recorded : Recorded past contexts) (number : Nat)
    (key : String) (kind : κ) :
    contexts.resolve? number key kind =
      (contexts.outward number).findSome? fun nearest =>
        (mostRecent? (ContextEvent.bindingOf? nearest key) past).filter
          (HasKind.kind · = kind) := by
  rw [resolve?_eq]
  apply Forest.findSome?_congr
  intro nearest _
  rw [local?_eq, get?_eq_mostRecent? recorded]

theorem outward_bind (contexts : Contexts α) (number : Nat) (key : String) (value : α) :
    (contexts.bind number key value).outward = contexts.outward :=
  Forest.outward_modify contexts number _

/-- A binding concerns its own key in its own context. -/
theorem local?_bind_of_apart {other : Nat} {name : String}
    (apart : other ≠ number ∨ name ≠ key) (contexts : Contexts α) (value : α) (kind : κ) :
    (contexts.bind number key value).local? other name kind =
      contexts.local? other name kind := by
  rw [local?_eq, local?_eq, bind, Forest.get?_modify]
  by_cases same : other = number
  · have otherName : name ≠ key := apart.resolve_left (not_not_intro same)
    rw [if_pos same]
    cases contexts.get? other with
    | none => rfl
    | some context =>
        rw [Option.map_some, Option.bind_some, Option.bind_some,
          OrderedMap.get?_insert_of_ne otherName]
  · rw [if_neg same]

theorem local?_bind_of_kind (known : number < contexts.size)
    (otherKind : HasKind.kind value ≠ kind) :
    (contexts.bind number key value).local? number key kind = none := by
  obtain ⟨context, held⟩ := Forest.exists_get?_of_lt known
  rw [local?_eq, bind, Forest.get?_modify, if_pos rfl, held, Option.map_some,
    Option.bind_some, OrderedMap.get?_insert_self]
  simpa using otherKind

theorem kind_of_resolve? {value : α} (found : contexts.resolve? number key kind = some value) :
    HasKind.kind value = kind := by
  rw [resolve?_eq] at found
  obtain ⟨step, _, isLocal⟩ := List.exists_of_findSome?_eq_some found
  rw [local?_eq, Option.filter_eq_some_iff] at isLocal
  exact of_decide_eq_true isLocal.2

/-- Lookups from a context that is not inside the one of a binding go on as before. -/
theorem resolve?_bind_of_apart {inner : Nat} {name : String}
    (apart : number ∉ contexts.outward inner ∨ name ≠ key) (value : α) (kind : κ) :
    (contexts.bind number key value).resolve? inner name kind =
      contexts.resolve? inner name kind := by
  rw [resolve?_eq, resolve?_eq, outward_bind]
  apply Forest.findSome?_congr
  intro step isStep
  apply local?_bind_of_apart
  exact apart.imp_left fun outside same => outside (same ▸ isStep)

/-- A binding of another kind makes the lookup go on with the context around. -/
theorem resolve?_bind_of_kind (grounded : contexts.Grounded) (known : number < contexts.size)
    (otherKind : HasKind.kind value ≠ kind) :
    (contexts.bind number key value).resolve? number key kind =
      (contexts.outer? number).bind (contexts.resolve? · key kind) := by
  have here : (contexts.bind number key value).local? number key kind = none :=
    local?_bind_of_kind known otherKind
  rw [resolve?_eq, outward_bind, grounded.outward_eq known, List.findSome?_cons, here]
  cases isOuter : contexts.outer? number with
  | none => rfl
  | some above =>
      have outside : number ∉ contexts.outward above := fun inside =>
        Nat.not_le_of_lt (grounded number above isOuter) (Forest.le_of_mem_outward inside)
      rw [Option.bind_some, ← resolve?_bind_of_apart (.inl outside) value kind, resolve?_eq,
        outward_bind]
      rfl

/-- After every run of openings and bindings, a lookup at a kind finds the value of the nearest
context whose most recent binding of the key is of that kind. One more binding changes lookups
of its key from its context and from inside it, never those from around it or beside it, and
what the context bound the key to before at another kind is out of reach. -/
theorem nearest_recent_bindings (run : Run Next .empty past contexts) :
    ∀ number outer, (past.filterMap ContextEvent.creation?)[number]? = some outer →
      contexts.outward number = number :: (outer.map contexts.outward).getD [] ∧
      (∀ key (kind : κ),
        contexts.resolve? number key kind =
          (contexts.outward number).findSome? fun nearest =>
            (mostRecent? (ContextEvent.bindingOf? nearest key) past).filter
              (HasKind.kind · = kind)) ∧
      ∀ key value,
        (∀ inner name (kind : κ),
          (contexts.bind number key value).resolve? inner name kind ≠
              contexts.resolve? inner name kind →
            name = key ∧ number ∈ contexts.outward inner) ∧
        (∀ around ∈ contexts.outward number, around ≠ number → ∀ name (kind : κ),
          (contexts.bind number key value).resolve? around name kind =
            contexts.resolve? around name kind) ∧
        (∀ sibling, (past.filterMap ContextEvent.creation?)[sibling]? = some outer →
          sibling ≠ number → ∀ name (kind : κ),
            (contexts.bind number key value).resolve? sibling name kind =
              contexts.resolve? sibling name kind) ∧
        ∀ kind : κ, HasKind.kind value ≠ kind →
          (contexts.bind number key value).resolve? number key kind =
            outer.bind (contexts.resolve? · key kind) := by
  have recorded := recorded_of_run run
  intro number outer created
  obtain ⟨known, isOuter⟩ := recorded.outer?_of_created created
  refine ⟨?_, fun key kind => resolve?_eq_mostRecent? recorded number key kind,
    fun key value => ⟨?_, ?_, ?_, ?_⟩⟩
  · rw [recorded.grounded.outward_eq known, isOuter]
  · intro inner name kind changes
    by_contra apart
    rw [not_and_or] at apart
    exact changes (resolve?_bind_of_apart apart.symm value kind)
  · intro around isAround apart name kind
    exact resolve?_bind_of_apart
      (.inl (Forest.not_mem_outward_of_around isAround apart)) value kind
  · intro sibling createdBeside apart name kind
    have sameOuter : contexts.outer? sibling = contexts.outer? number :=
      (recorded.outer?_of_created createdBeside).2.trans isOuter.symm
    exact resolve?_bind_of_apart
      (.inl (recorded.grounded.not_mem_outward_of_sibling sameOuter apart)) value kind
  · intro kind otherKind
    rw [resolve?_bind_of_kind recorded.grounded known otherKind, isOuter]

end Kinds

/-- The inner context binds the key to a text. The number from outside still shows through, and
so does a later one. -/
theorem nearest_recent_bindings_of_two_kinds :
    ∃ contexts : ContextForest,
      Run Next .empty
        [.root, .child 0, .bound 0 "k" (.integer 1), .bound 1 "k" (.integer 2),
          .bound 1 "k" (.text "x"), .bound 0 "k" (.integer 3)] contexts ∧
        contexts.resolve? 1 "k" .integer = some (.integer 3) ∧
        contexts.resolve? 1 "k" .text = some (.text "x") ∧
        SettingKind.text ≠ .integer ∧
        (contexts.bind 1 "k" (.text "y")).resolve? 1 "k" .integer = some (.integer 3) := by
  have run : Run Next (.empty : ContextForest)
      [.root, .child 0, .bound 0 "k" (.integer 1), .bound 1 "k" (.integer 2),
        .bound 1 "k" (.text "x"), .bound 0 "k" (.integer 3)] _ :=
    .step .root (.step (.child (by decide)) (.step (.bound _ _ (by decide))
      (.step (.bound _ _ (by decide)) (.step (.bound _ _ (by decide))
        (.step (.bound _ _ (by decide)) (.done _))))))
  obtain ⟨_, outerLookups, _⟩ := nearest_recent_bindings run 0 none rfl
  obtain ⟨way, lookups, bindings⟩ := nearest_recent_bindings run 1 (some 0) rfl
  refine ⟨_, run, ?_, ?_, by decide, ?_⟩
  · rw [lookups, way]
    rfl
  · rw [lookups, way]
    rfl
  · rw [(bindings "k" (.text "y")).2.2.2 .integer (by decide), Option.bind_some,
      outerLookups]
    rfl

end Contexts

end BuildScribe
