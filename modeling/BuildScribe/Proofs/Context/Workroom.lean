import BuildScribe.Context.Bench
import BuildScribe.Proofs.Context.Lookup
import BuildScribe.Proofs.Scoping.Lexical

/-!
# Workrooms and their histories

A bench is opened over a context that is there, or inside another bench. In that case it gets
a new context, inside the other's, so that it has its place in the forest of benches and in
that of contexts. The places of benches stay what they are; two benches over one context are
never both inside other benches.
-/

namespace BuildScribe

variable {α : Type}

/-- What happens in a workroom. Opening a bench inside another one also opens a context, inside
the one of the other bench. -/
inductive RoomEvent (α : Type) where
  | scope (event : ScopeEvent)
  | context (event : ContextEvent α)
  | opened (kind : BuildKind) (site : Nat)
  | openedInside (outer : Nat) (kind : BuildKind) (around site : Nat)
  | registered (number : Nat) (handle : Handle)

namespace RoomEvent

/-- What happens to the contexts. -/
def contextEvent? : RoomEvent α → Option (ContextEvent α)
  | context event => some event
  | openedInside _ _ around _ => some (.child around)
  | scope _ | opened .. | registered .. => none

/-- What is around a new context. -/
def creation? (event : RoomEvent α) : Option (Option Nat) :=
  event.contextEvent?.bind ContextEvent.creation?

/-- What is around a new bench, its kind and its context. -/
def opening? : RoomEvent α → Option (Option Nat × BuildKind × Nat)
  | opened kind site => some (none, kind, site)
  | openedInside outer kind _ site => some (some outer, kind, site)
  | scope _ | context _ | registered .. => none

/-- The handle that is registered in a bench, under its name. -/
def registrationIn? (number : Nat) : RoomEvent α → Option (String × Handle)
  | registered other handle => if other = number then some (handle.name, handle) else none
  | scope _ | context _ | opened .. | openedInside .. => none

/-- The handle that a name gets in a bench. -/
def registrationOf? (number : Nat) (name : String) (event : RoomEvent α) : Option Handle :=
  (event.registrationIn? number).bind (OrderedMap.valueFor? name)

/-- The value that a key gets in a context. -/
def bindingOf? (number : Nat) (key : String) (event : RoomEvent α) : Option α :=
  event.contextEvent?.bind (ContextEvent.bindingOf? number key)

/-- The part of an event that changes the forest of benches. -/
def benchGrowth? : RoomEvent α → Option (Growth (BuildKind × Nat) (String × Handle))
  | opened kind site => some (.made none (kind, site))
  | openedInside outer kind _ site => some (.made (some outer) (kind, site))
  | registered number handle => some (.changed number (handle.name, handle))
  | scope _ | context _ => none

theorem filterMap_creation? (past : List (RoomEvent α)) :
    past.filterMap creation? =
      (past.filterMap contextEvent?).filterMap ContextEvent.creation? :=
  List.filterMap_filterMap.symm

theorem makings_growth (past : List (RoomEvent α)) :
    Growth.makings (past.filterMap benchGrowth?) = past.filterMap opening? := by
  rw [Growth.makings, List.filterMap_filterMap]
  congr 1
  funext event
  cases event <;> rfl

theorem changes_growth (past : List (RoomEvent α)) (number : Nat) :
    Growth.changes (past.filterMap benchGrowth?) number =
      past.filterMap (registrationIn? number) := by
  rw [Growth.changes, List.filterMap_filterMap]
  congr 1
  funext event
  cases event <;> rfl

theorem registrationOf?_eq_some_iff {number : Nat} {name : String} {event : RoomEvent α}
    {handle : Handle} :
    event.registrationOf? number name = some handle ↔
      event = .registered number handle ∧ handle.name = name := by
  rw [registrationOf?, Option.bind_eq_some_iff]
  constructor
  · intro registers
    obtain ⟨entry, isEntry, isValue⟩ := registers
    rw [OrderedMap.valueFor?_eq_some_iff] at isValue
    cases event with
    | registered other registered =>
        obtain ⟨same, sameEntry⟩ := Option.ite_none_right_eq_some.mp isEntry
        rw [isValue] at sameEntry
        cases sameEntry
        exact ⟨by rw [same], rfl⟩
    | _ => cases isEntry
  · intro registers
    obtain ⟨rfl, rfl⟩ := registers
    exact ⟨(handle.name, handle), if_pos rfl, OrderedMap.valueFor?_eq_some_iff.mpr rfl⟩

theorem bindingOf?_eq_some_iff {number : Nat} {key : String} {event : RoomEvent α}
    {value : α} :
    event.bindingOf? number key = some value ↔
      event = .context (.bound number key value) := by
  rw [bindingOf?, Option.bind_eq_some_iff]
  constructor
  · intro binds
    obtain ⟨contextEvent, isEvent, isBinding⟩ := binds
    rw [ContextEvent.bindingOf?_eq_some_iff] at isBinding
    cases event with
    | context event => rw [Option.some.inj isEvent, isBinding]
    | openedInside => cases isBinding ▸ isEvent
    | _ => cases isEvent
  · intro binds
    rw [binds]
    exact ⟨_, rfl, ContextEvent.bindingOf?_eq_some_iff.mpr rfl⟩

end RoomEvent

namespace Bench

/-- A bench without handles, of a kind and over a context. -/
def vacant (place : BuildKind × Nat) : Bench :=
  ⟨place.1, place.2, .empty⟩

/-- The bench with one more handle. -/
def enter (bench : Bench) (entry : String × Handle) : Bench :=
  { bench with handles := bench.handles.insert entry.1 entry.2 }

/-- What stays of a bench whatever is registered in it. -/
def place (bench : Bench) : BuildKind × Nat :=
  (bench.kind, bench.context)

theorem foldl_enter (bench : Bench) (entries : List (String × Handle)) :
    entries.foldl enter bench =
      { bench with handles := bench.handles.insertAll entries } :=
  List.foldl_hom (fun handles => { bench with handles := handles }) fun _ _ => rfl

end Bench

namespace Workroom

variable {room after : Workroom α} {event : RoomEvent α} {past : List (RoomEvent α)}
  {number other : Nat} {bench otherBench : Bench}

/-- The operations of a workroom. They are on scopes, contexts and benches that are there. -/
inductive Next : Workroom α → RoomEvent α → Workroom α → Prop where
  | scope {room : Workroom α} {event : ScopeEvent} {scopes : ScopeForest} :
      ScopeForest.Next room.scopes event scopes →
        Next room (.scope event) { room with scopes := scopes }
  | context {room : Workroom α} {event : ContextEvent α} {contexts : Contexts α} :
      Contexts.Next room.contexts event contexts →
        Next room (.context event) { room with contexts := contexts }
  | opened {room : Workroom α} (kind : BuildKind) {site : Nat} :
      site < room.contexts.size →
        Next room (.opened kind site) (room.addBench none kind site)
  | openedInside {room : Workroom α} {number : Nat} {outer : Bench} :
      room.benches.get? number = some outer →
        Next room (.openedInside number outer.kind outer.context room.contexts.size)
          (room.openInside number outer)
  | registered {room : Workroom α} {number : Nat} (handle : Handle) :
      number < room.benches.size →
        Next room (.registered number handle) (room.register number handle)

/-- The kind of a bench and its context. -/
def place? (room : Workroom α) (number : Nat) : Option (BuildKind × Nat) :=
  (room.benches.get? number).map Bench.place

theorem place?_addBench (room : Workroom α) (outer : Option Nat) (kind : BuildKind)
    (site number : Nat) :
    (room.addBench outer kind site).place? number =
      if number = room.benches.size then some (kind, site) else room.place? number := by
  rw [place?, addBench, Forest.get?_add]
  split
  · rfl
  · rfl

theorem outer?_addBench (room : Workroom α) (outer : Option Nat) (kind : BuildKind)
    (site number : Nat) :
    (room.addBench outer kind site).benches.outer? number =
      if number = room.benches.size then outer else room.benches.outer? number :=
  Forest.outer?_add ..

theorem place?_register (room : Workroom α) (number : Nat) (handle : Handle) :
    (room.register number handle).place? = room.place? := by
  funext other
  rw [place?, register, Forest.get?_modify]
  split
  · rw [Option.map_map]
    rfl
  · rfl

theorem place?_of_get? (held : room.benches.get? number = some bench) :
    room.place? number = some (bench.kind, bench.context) := by
  rw [place?, held]
  rfl

theorem lt_size_of_place? {place : BuildKind × Nat} (placed : room.place? number = some place) :
    number < room.benches.size := by
  obtain ⟨bench, held, _⟩ := Option.map_eq_some_iff.mp placed
  exact Forest.lt_size_of_get? held

/-- How benches and contexts belong together. A bench inside another one is over a context
inside the other's, which no bench had before; so of two benches over one context at most one
is inside another bench. -/
structure Linked (room : Workroom α) : Prop where
  inRange : ∀ {number kind site},
    room.place? number = some (kind, site) → site < room.contexts.size
  nested : ∀ {number kind site above}, room.place? number = some (kind, site) →
    room.benches.outer? number = some above →
      ∃ around, room.place? above = some (kind, around) ∧
        room.contexts.outer? site = some around
  single : ∀ {number kind other otherKind site}, room.place? number = some (kind, site) →
    room.place? other = some (otherKind, site) → number ≠ other →
      room.benches.outer? number = none ∨ room.benches.outer? other = none

namespace Linked

/-- Contexts may be added as long as benches stay where they are. -/
theorem keep (linked : room.Linked) (samePlaces : after.place? = room.place?)
    (sameChains : after.benches.outer? = room.benches.outer?)
    (grown : ∀ number, number < room.contexts.size → number < after.contexts.size ∧
      after.contexts.outer? number = room.contexts.outer? number) : after.Linked := by
  refine ⟨?_, ?_, ?_⟩
  · intro number kind site placed
    rw [samePlaces] at placed
    exact (grown site (linked.inRange placed)).1
  · intro number kind site above placed isOuter
    rw [samePlaces] at placed ⊢
    rw [sameChains] at isOuter
    rw [(grown site (linked.inRange placed)).2]
    exact linked.nested placed isOuter
  · intro number kind other otherKind site placed otherPlaced
    rw [samePlaces] at placed otherPlaced
    rw [sameChains]
    exact linked.single placed otherPlaced

/-- A new bench is a root, or it is inside a bench of its kind and the only one over its
context. -/
theorem addBench (linked : room.Linked) {outer : Option Nat} {kind : BuildKind} {site : Nat}
    (known : site < room.contexts.size)
    (inside : ∀ above, outer = some above → ∃ around,
      room.place? above = some (kind, around) ∧ room.contexts.outer? site = some around)
    (alone : outer = none ∨ ∀ other otherKind, room.place? other ≠ some (otherKind, site)) :
    (room.addBench outer kind site).Linked := by
  refine ⟨?_, ?_, ?_⟩
  · intro number newKind newSite placed
    rw [place?_addBench] at placed
    split at placed
    · cases placed
      exact known
    · exact linked.inRange placed
  · intro number newKind newSite above placed isOuter
    rw [place?_addBench] at placed
    rw [outer?_addBench] at isOuter
    have outside : ∃ around, room.place? above = some (newKind, around) ∧
        room.contexts.outer? newSite = some around := by
      split at placed
      · next newest =>
          rw [if_pos newest] at isOuter
          cases placed
          exact inside above isOuter
      · next older =>
          rw [if_neg older] at isOuter
          exact linked.nested placed isOuter
    obtain ⟨around, outerPlaced, isAround⟩ := outside
    refine ⟨around, ?_, isAround⟩
    rw [place?_addBench, if_neg (Nat.ne_of_lt (lt_size_of_place? outerPlaced)), outerPlaced]
  · intro number kind other otherKind site placed otherPlaced apart
    rw [place?_addBench] at placed otherPlaced
    rw [outer?_addBench, outer?_addBench]
    by_cases newest : number = room.benches.size
    · rw [if_pos newest] at placed
      rw [if_neg (fun otherNewest => apart (newest.trans otherNewest.symm))] at otherPlaced
      cases placed
      rw [if_pos newest]
      exact .inl (alone.resolve_right fun alone => alone _ _ otherPlaced)
    · rw [if_neg newest] at placed
      rw [if_neg newest]
      by_cases otherNewest : other = room.benches.size
      · rw [if_pos otherNewest] at otherPlaced
        cases otherPlaced
        rw [if_pos otherNewest]
        exact .inr (alone.resolve_right fun alone => alone _ _ placed)
      · rw [if_neg otherNewest] at otherPlaced
        rw [if_neg otherNewest]
        exact linked.single placed otherPlaced apart

/-- The benches around a bench have their contexts around its context. -/
theorem around (linked : room.Linked) (groundedBenches : room.benches.Grounded)
    (groundedContexts : room.contexts.Grounded) {number other : Nat}
    {kind : BuildKind} {site : Nat} (placed : room.place? number = some (kind, site))
    (onTheWay : other ∈ room.benches.outward number) :
    ∃ around, room.place? other = some (kind, around) ∧
      around ∈ room.contexts.outward site ∧ (other ≠ number → around ≠ site) := by
  -- The bench around was opened earlier, so the induction is on the number.
  induction number using Nat.strongRecOn generalizing site with
  | ind number ih =>
      have contextKnown := linked.inRange placed
      rw [groundedBenches.outward_eq (lt_size_of_place? placed)] at onTheWay
      rcases List.mem_cons.mp onTheWay with same | further
      · rw [same]
        exact ⟨site, placed, groundedContexts.mem_outward_self contextKnown,
          fun apart => (apart rfl).elim⟩
      · cases isOuter : room.benches.outer? number with
        | none => simp [isOuter] at further
        | some above =>
            rw [isOuter, Option.map_some, Option.getD_some] at further
            obtain ⟨between, outerPlaced, isBetween⟩ := linked.nested placed isOuter
            obtain ⟨around, otherPlaced, isAround, _⟩ :=
              ih above (groundedBenches number above isOuter) outerPlaced further
            have before := groundedContexts site between isBetween
            have upTo := Forest.le_of_mem_outward isAround
            refine ⟨around, otherPlaced, ?_, fun _ same => by omega⟩
            rw [groundedContexts.outward_eq contextKnown, isBetween]
            exact List.mem_cons_of_mem _ isAround

end Linked

/-- A workroom that is what its history says. -/
structure Recorded (past : List (RoomEvent α)) (room : Workroom α) : Prop where
  contexts : Contexts.Recorded (past.filterMap RoomEvent.contextEvent?) room.contexts
  benches : Forest.Records Bench.vacant Bench.enter
    (past.filterMap RoomEvent.benchGrowth?) room.benches
  linked : room.Linked

theorem recorded_empty : Recorded ([] : List (RoomEvent α)) {} := by
  have nowhere {number : Nat} {place : BuildKind × Nat} :
      ({} : Workroom α).place? number ≠ some place :=
    fun placed => Nat.not_lt_zero _ (lt_size_of_place? placed)
  exact ⟨Contexts.recorded_empty, Forest.records_of_run (.done _),
    ⟨fun placed => (nowhere placed).elim, fun placed => (nowhere placed).elim,
      fun placed => (nowhere placed).elim⟩⟩

theorem Recorded.next (recorded : Recorded past room) (next : Next room event after) :
    Recorded (past ++ [event]) after := by
  have linked := recorded.linked
  cases next with
  | scope _ =>
      refine ⟨?_, ?_, linked.keep rfl rfl fun _ known => ⟨known, rfl⟩⟩
      · rw [filterMap_concat_of_none rfl]
        exact recorded.contexts
      · rw [filterMap_concat_of_none rfl]
        exact recorded.benches
  | context next =>
      refine ⟨?_, ?_, linked.keep rfl rfl fun _ known => next.outer?_eq known⟩
      · rw [filterMap_concat]
        exact recorded.contexts.next next
      · rw [filterMap_concat_of_none rfl]
        exact recorded.benches
  | opened kind known =>
      refine ⟨?_, ?_, linked.addBench known (by simp) (.inl rfl)⟩
      · rw [filterMap_concat_of_none rfl]
        exact recorded.contexts
      · rw [filterMap_concat]
        exact recorded.benches.made (by simp) (kind, _)
  | @openedInside number outer held =>
      have placed := place?_of_get? held
      have isKnown := linked.inRange placed
      have grown : Contexts.Next room.contexts (.child outer.context) _ := .child isKnown
      refine ⟨?_, ?_, ?_⟩
      · rw [filterMap_concat]
        exact recorded.contexts.next grown
      · rw [filterMap_concat]
        exact recorded.benches.made
          (fun _ isOuter => Option.some.inj isOuter ▸ Forest.lt_size_of_get? held) _
      · have wider : (room.addChild outer.context).Linked :=
          linked.keep rfl rfl fun _ known => grown.outer?_eq known
        refine wider.addBench (Nat.lt_succ_self _) ?_ (.inr ?_)
        · intro above isOuter
          cases isOuter
          exact ⟨outer.context, placed, (Forest.outer?_add ..).trans (if_pos rfl)⟩
        · -- The new context has a number that no bench refers to yet.
          intro other otherKind otherPlaced
          exact Nat.lt_irrefl _ (linked.inRange otherPlaced)
  | registered handle known =>
      refine ⟨?_, ?_, linked.keep (place?_register ..) (Forest.outer?_modify ..)
        fun _ known => ⟨known, rfl⟩⟩
      · rw [filterMap_concat_of_none rfl]
        exact recorded.contexts
      · rw [filterMap_concat]
        exact recorded.benches.changed known _

theorem recorded_of_run (run : Run Next {} past room) : Recorded past room :=
  run.invariant recorded_empty fun recorded next => recorded.next next

/-- What is there keeps its place, and the benches around it stay the same. -/
theorem Next.keeps_place (next : Next room event after) (known : number < room.benches.size) :
    after.place? number = room.place? number ∧
      after.benches.outward number = room.benches.outward number := by
  have older := Nat.ne_of_lt known
  cases next with
  | scope _ | context _ => exact ⟨rfl, rfl⟩
  | opened kind _ =>
      exact ⟨(place?_addBench ..).trans (if_neg older),
        (Forest.outward_add ..).trans (if_neg older)⟩
  | openedInside _ =>
      exact ⟨(place?_addBench ..).trans (if_neg older),
        (Forest.outward_add ..).trans (if_neg older)⟩
  | registered handle _ =>
      exact ⟨by rw [place?_register], by rw [register, Forest.outward_modify]⟩

theorem Next.keeps_contexts (next : Next room event after) {site : Nat}
    (known : site < room.contexts.size) :
    after.contexts.outward site = room.contexts.outward site := by
  cases next with
  | scope _ | opened _ _ | registered _ _ => rfl
  | context next => exact next.outward_eq known
  | openedInside _ => exact (Forest.outward_add ..).trans (if_neg (Nat.ne_of_lt known))

/-- A fresh bench is a new context and a bench over it. -/
theorem run_openFresh (room : Workroom α) (kind : BuildKind) :
    Run Next room [.context .root, .opened kind room.contexts.size] (room.openFresh kind) :=
  .step (.context .root) (.step (.opened kind (Nat.lt_succ_self _)) (.done _))

namespace Recorded

variable (recorded : Recorded past room)
include recorded

theorem context_lt_size (held : room.benches.get? number = some bench) :
    bench.context < room.contexts.size :=
  recorded.linked.inRange (place?_of_get? held)

theorem run_openShared (held : room.benches.get? number = some bench) (kind : BuildKind) :
    Run Next room [.opened kind bench.context] (room.openShared kind bench) :=
  .step (.opened kind (recorded.context_lt_size held)) (.done _)

theorem run_openOverChild (held : room.benches.get? number = some bench) :
    Run Next room [.context (.child bench.context), .opened bench.kind room.contexts.size]
      (room.openOverChild bench) :=
  .step (.context (.child (recorded.context_lt_size held)))
    (.step (.opened bench.kind (Nat.lt_succ_self _)) (.done _))

theorem run_bind (held : room.benches.get? number = some bench) (key : String) (value : α) :
    Run Next room [.context (.bound bench.context key value)] (room.bind bench key value) :=
  .step (.context (.bound key value (recorded.context_lt_size held))) (.done _)

theorem run_bindScope {κ : Type} [HoldsScopes α κ]
    (held : room.benches.get? number = some bench) (name : String) :
    Run Next room
      [.scope (.root name), .context (.bound bench.context Context.scopeKey
        (HoldsScopes.ofScope room.scopes.size))] (room.bindScope bench name) :=
  .step (.scope (.root name))
    (.step (.context (.bound _ _ (recorded.context_lt_size held))) (.done _))

/-- The context of a bench around another one is around the other's. -/
theorem context_mem_outward (held : room.benches.get? number = some bench)
    (otherHeld : room.benches.get? other = some otherBench)
    (onTheWay : other ∈ room.benches.outward number) :
    otherBench.context ∈ room.contexts.outward bench.context ∧
      (other ≠ number → otherBench.context ≠ bench.context) := by
  obtain ⟨around, placed, isAround⟩ := recorded.linked.around recorded.benches.grounded
    recorded.contexts.grounded (place?_of_get? held) onTheWay
  rw [place?_of_get? otherHeld, Option.some.injEq, Prod.mk.injEq] at placed
  rw [placed.2]
  exact isAround

theorem disjoint_of_root (held : room.benches.get? number = some bench)
    (otherHeld : room.benches.get? other = some otherBench) (apart : number ≠ other)
    (shared : bench.context = otherBench.context)
    (isRoot : room.benches.outer? number = none) :
    (room.benches.outward number).Disjoint (room.benches.outward other) := by
  rw [recorded.benches.grounded.outward_eq (Forest.lt_size_of_get? held), isRoot]
  intro step isSelf onTheWay
  rw [Option.map_none, Option.getD_none, List.mem_singleton] at isSelf
  rw [isSelf] at onTheWay
  exact (recorded.context_mem_outward otherHeld held onTheWay).2 apart shared

/-- Different benches over one context have no bench around them in common. -/
theorem disjoint_of_shared (held : room.benches.get? number = some bench)
    (otherHeld : room.benches.get? other = some otherBench) (apart : number ≠ other)
    (shared : bench.context = otherBench.context) :
    (room.benches.outward number).Disjoint (room.benches.outward other) := by
  have otherPlaced := place?_of_get? otherHeld
  rw [← shared] at otherPlaced
  rcases recorded.linked.single (place?_of_get? held) otherPlaced apart with
    isRoot | otherIsRoot
  · exact recorded.disjoint_of_root held otherHeld apart shared isRoot
  · exact List.disjoint_comm.mp
      (recorded.disjoint_of_root otherHeld held apart.symm shared.symm otherIsRoot)

/-- A bench whose context is inside that of another bench is on neither of its chains. -/
theorem not_mem_outward_of_inside (held : room.benches.get? number = some bench)
    (otherHeld : room.benches.get? other = some otherBench)
    (inside : otherBench.context ∈ room.contexts.outward bench.context)
    (apart : otherBench.context ≠ bench.context) :
    number ∉ room.benches.outward other ∧
      bench.context ∉ room.contexts.outward otherBench.context := by
  have outside := Forest.not_mem_outward_of_around inside apart
  exact ⟨fun onTheWay => outside (recorded.context_mem_outward otherHeld held onTheWay).1,
    outside⟩

end Recorded

end Workroom

end BuildScribe
