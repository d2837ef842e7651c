import BuildScribe.Proofs.Context.Workroom

/-!
# The two chains of a bench

Handles are looked up along the benches that a bench was opened from, settings along the
contexts around its context. Only a bench that is opened inside another one has its place in
both chains; benches over one context share its settings and none of their handles. A lookup
changes only by a registration or a binding on its own chain, and what is inside a bench is on
neither of its chains.
-/

namespace BuildScribe

namespace Workroom

variable {α κ : Type} {room after : Workroom α} {event : RoomEvent α}
  {past : List (RoomEvent α)} {number other : Nat} {bench otherBench : Bench}

/-- The handle that a bench itself holds under a name. -/
def localHandle? (room : Workroom α) (number : Nat) (name : String) : Option Handle :=
  (room.benches.get? number).bind (·.handles.get? name)

/-- A lookup of a handle goes from the bench outwards. -/
theorem resolveHandle?_eq (room : Workroom α) (number : Nat) (name : String) :
    room.resolveHandle? number name =
      (room.benches.outward number).findSome? (room.localHandle? · name) := by
  rw [resolveHandle?, HandleMap.resolve?, List.findSome?_map]
  exact Forest.findSome?_lineage _ room.benches number

namespace Recorded

variable (recorded : Recorded past room)
include recorded

theorem outer?_eq (number : Nat) :
    room.benches.outer? number = ((past.filterMap RoomEvent.opening?)[number]?).bind (·.1) := by
  rw [recorded.benches.outer?, RoomEvent.makings_growth]

theorem get?_eq (number : Nat) :
    room.benches.get? number = ((past.filterMap RoomEvent.opening?)[number]?).map fun opening =>
      ⟨opening.2.1, opening.2.2,
        OrderedMap.empty.insertAll (past.filterMap (RoomEvent.registrationIn? number))⟩ := by
  rw [recorded.benches.get?, RoomEvent.makings_growth, RoomEvent.changes_growth]
  congr 1
  funext opening
  rw [Bench.foldl_enter]
  rfl

theorem outward_of_created {site : Nat} {outer : Option Nat}
    (created : (past.filterMap RoomEvent.creation?)[site]? = some outer) :
    room.contexts.outward site = site :: (outer.map room.contexts.outward).getD [] := by
  rw [RoomEvent.filterMap_creation?] at created
  obtain ⟨known, isOuter⟩ := recorded.contexts.outer?_of_created created
  rw [recorded.contexts.grounded.outward_eq known, isOuter]

/-- A bench that was opened has its place in both forests. -/
theorem bench_of_opened {outer : Option Nat} {kind : BuildKind} {site : Nat}
    (opened : (past.filterMap RoomEvent.opening?)[number]? = some (outer, kind, site)) :
    (∃ bench, room.benches.get? number = some bench ∧ bench.kind = kind ∧
      bench.context = site) ∧
    room.benches.outward number = number :: (outer.map room.benches.outward).getD [] ∧
    ∀ above, outer = some above → ∃ outerBench, room.benches.get? above = some outerBench ∧
      outerBench.kind = kind ∧
      room.contexts.outward site = site :: room.contexts.outward outerBench.context := by
  have isOuter : room.benches.outer? number = outer := by
    rw [recorded.outer?_eq, opened, Option.bind_some]
  have held := recorded.get?_eq number
  rw [opened, Option.map_some] at held
  have placed := place?_of_get? held
  refine ⟨⟨_, held, rfl, rfl⟩, ?_, ?_⟩
  · rw [recorded.benches.grounded.outward_eq (Forest.lt_size_of_get? held), isOuter]
  · intro above isAbove
    rw [isAbove] at isOuter
    obtain ⟨around, outerPlaced, isAround⟩ := recorded.linked.nested placed isOuter
    obtain ⟨outerBench, outerHeld, samePlace⟩ := Option.map_eq_some_iff.mp outerPlaced
    obtain ⟨sameKind, rfl⟩ := Prod.mk.inj samePlace
    refine ⟨outerBench, outerHeld, sameKind, ?_⟩
    rw [recorded.contexts.grounded.outward_eq (recorded.linked.inRange placed), isAround]
    rfl

theorem localHandle?_eq (number : Nat) (name : String) :
    room.localHandle? number name =
      mostRecent? (RoomEvent.registrationOf? number name) past := by
  have latest := recorded.benches.get?_key Bench.handles (fun _ => rfl) (fun _ _ => rfl)
    number name
  rw [RoomEvent.changes_growth, mostRecent?_filterMap] at latest
  exact latest

theorem resolveHandle?_eq_mostRecent? (number : Nat) (name : String) :
    room.resolveHandle? number name =
      (room.benches.outward number).findSome? fun nearest =>
        mostRecent? (RoomEvent.registrationOf? nearest name) past := by
  rw [resolveHandle?_eq]
  exact Forest.findSome?_congr fun nearest _ => recorded.localHandle?_eq nearest name

theorem name_of_resolveHandle? {name : String} {handle : Handle}
    (found : room.resolveHandle? number name = some handle) : handle.name = name := by
  rw [recorded.resolveHandle?_eq_mostRecent?] at found
  obtain ⟨nearest, _, registered⟩ := List.exists_of_findSome?_eq_some found
  obtain ⟨event, _, registers⟩ := List.exists_of_findSome?_eq_some registered
  exact (RoomEvent.registrationOf?_eq_some_iff.mp registers).2

/-- Only registrations of the name in the bench or in one around it change what a lookup of a
handle finds. -/
theorem registered_of_changed (next : Next room event after)
    (known : number < room.benches.size) {name : String}
    (changed : after.resolveHandle? number name ≠ room.resolveHandle? number name) :
    ∃ nearest ∈ room.benches.outward number, ∃ handle,
      event = .registered nearest handle ∧ handle.name = name := by
  rw [(recorded.next next).resolveHandle?_eq_mostRecent?,
    recorded.resolveHandle?_eq_mostRecent?, (next.keeps_place known).2] at changed
  obtain ⟨nearest, onTheWay, handle, registers⟩ := Forest.exists_read_of_changed id changed
  exact ⟨nearest, onTheWay, handle, RoomEvent.registrationOf?_eq_some_iff.mp registers⟩

end Recorded

theorem Next.keeps_bench (next : Next room event after)
    (held : room.benches.get? number = some bench) :
    ∃ benchAfter, after.benches.get? number = some benchAfter ∧
      benchAfter.kind = bench.kind ∧ benchAfter.context = bench.context := by
  have placed := (next.keeps_place (Forest.lt_size_of_get? held)).1
  rw [place?_of_get? held, place?, Option.map_eq_some_iff] at placed
  obtain ⟨benchAfter, heldAfter, samePlace⟩ := placed
  exact ⟨benchAfter, heldAfter, Prod.mk.inj samePlace⟩

section Kinds

variable [HasKind α κ] [DecidableEq κ]

theorem Recorded.resolve?_eq_mostRecent? (recorded : Recorded past room) (bench : Bench)
    (key : String) (kind : κ) :
    room.resolve? bench key kind =
      (room.contexts.outward bench.context).findSome? fun nearest =>
        (mostRecent? (RoomEvent.bindingOf? nearest key) past).filter
          (HasKind.kind · = kind) := by
  rw [resolve?, Contexts.resolve?_eq_mostRecent? recorded.contexts]
  apply Forest.findSome?_congr
  intro nearest _
  rw [mostRecent?_filterMap]
  rfl

/-- Only bindings of the key in the context of the bench or in one around it change what a
lookup of a setting finds. -/
theorem Recorded.bound_of_changed (recorded : Recorded past room)
    (next : Next room event after) (known : bench.context < room.contexts.size)
    {key : String} {kind : κ}
    (changed : after.resolve? bench key kind ≠ room.resolve? bench key kind) :
    ∃ nearest ∈ room.contexts.outward bench.context, ∃ value,
      event = .context (.bound nearest key value) := by
  rw [(recorded.next next).resolve?_eq_mostRecent?, recorded.resolve?_eq_mostRecent?,
    next.keeps_contexts known] at changed
  obtain ⟨nearest, onTheWay, value, binds⟩ := Forest.exists_read_of_changed _ changed
  exact ⟨nearest, onTheWay, value, RoomEvent.bindingOf?_eq_some_iff.mp binds⟩

end Kinds

section Scopes

variable [HoldsScopes α κ] [DecidableEq κ]

theorem scope_eq_ok_iff {scope : Nat} :
    room.scope bench = .ok scope ↔
      ∃ value, room.resolve? bench Context.scopeKey (Context.scopeKind α) = some value ∧
        HoldsScopes.scope? value = some scope := by
  rw [← Option.bind_eq_some_iff, Workroom.scope]
  split
  · next number found => rw [found, Except.ok.injEq, Option.some.injEq]
  · next missing => simp [missing]

/-- A bench is without a scope only if no context has one; what is found at the kind of scopes
is a scope. -/
theorem scope_eq_error_iff {failure : Failure} :
    room.scope bench = .error failure ↔
      failure = .configuration (.scope bench.kind.name) ∧
        room.resolve? bench Context.scopeKey (Context.scopeKind α) = none := by
  have isScope {value : α} (found : room.resolve? bench Context.scopeKey
      (Context.scopeKind α) = some value) : (HoldsScopes.scope? value).isSome :=
    (HoldsScopes.isSome_scope?_iff value).mpr (Contexts.kind_of_resolve? found)
  rw [Workroom.scope]
  cases found : room.resolve? bench Context.scopeKey (Context.scopeKind α) with
  | none => simp [eq_comm]
  | some value =>
      obtain ⟨number, isNumber⟩ := Option.isSome_iff_exists.mp (isScope found)
      simp [isNumber]

/-- Benches with two chains of their own. -/
structure IndependentChains (past : List (RoomEvent α)) (room : Workroom α) : Prop where
  /-- A context is inside the one that it was made in. -/
  contexts : ∀ site outer, (past.filterMap RoomEvent.creation?)[site]? = some outer →
    room.contexts.outward site = site :: (outer.map room.contexts.outward).getD []
  /-- A bench is inside the one that it was opened in, with its context inside the other's. -/
  benches : ∀ number outer kind site,
    (past.filterMap RoomEvent.opening?)[number]? = some (outer, kind, site) →
      (∃ bench, room.benches.get? number = some bench ∧ bench.kind = kind ∧
        bench.context = site) ∧
      room.benches.outward number = number :: (outer.map room.benches.outward).getD [] ∧
      ∀ above, outer = some above → ∃ outerBench, room.benches.get? above = some outerBench ∧
        outerBench.kind = kind ∧
        room.contexts.outward site = site :: room.contexts.outward outerBench.context
  /-- Handles are found along the benches, the most recent one of the nearest bench. -/
  handles : ∀ number name, room.resolveHandle? number name =
    (room.benches.outward number).findSome? fun nearest =>
      mostRecent? (RoomEvent.registrationOf? nearest name) past
  names : ∀ number name handle,
    room.resolveHandle? number name = some handle → handle.name = name
  /-- Settings are found along the contexts, whatever bench asks for them. -/
  settings : ∀ bench key (kind : κ), room.resolve? bench key kind =
    (room.contexts.outward bench.context).findSome? fun nearest =>
      (mostRecent? (RoomEvent.bindingOf? nearest key) past).filter (HasKind.kind · = kind)
  /-- The current scope is a setting. -/
  scopes : ∀ bench scope, room.scope bench = .ok scope ↔ ∃ value,
    room.resolve? bench Context.scopeKey (Context.scopeKind α) = some value ∧
      HoldsScopes.scope? value = some scope
  noScope : ∀ bench failure, room.scope bench = .error failure ↔
    failure = .configuration (.scope bench.kind.name) ∧
      room.resolve? bench Context.scopeKey (Context.scopeKind α) = none
  /-- Benches over one context have its settings in common, and no bench to look for handles
  in. -/
  shared : ∀ number bench other otherBench, room.benches.get? number = some bench →
    room.benches.get? other = some otherBench → number ≠ other →
    bench.context = otherBench.context →
      (∀ key (kind : κ), room.resolve? bench key kind = room.resolve? otherBench key kind) ∧
      (∀ scope, room.scope bench = .ok scope ↔ room.scope otherBench = .ok scope) ∧
      (room.benches.outward number).Disjoint (room.benches.outward other)
  /-- Only what happens on a chain changes what is found along it. -/
  changes : ∀ event after, Next room event after →
    ∀ number bench, room.benches.get? number = some bench →
      ∃ benchAfter, after.benches.get? number = some benchAfter ∧
        benchAfter.kind = bench.kind ∧ benchAfter.context = bench.context ∧
        (∀ name, after.resolveHandle? number name ≠ room.resolveHandle? number name →
          ∃ nearest ∈ room.benches.outward number, ∃ handle,
            event = .registered nearest handle ∧ handle.name = name) ∧
        (∀ key (kind : κ), after.resolve? benchAfter key kind ≠ room.resolve? bench key kind →
          ∃ nearest ∈ room.contexts.outward bench.context, ∃ value,
            event = .context (.bound nearest key value)) ∧
        (after.scope benchAfter ≠ room.scope bench →
          ∃ nearest ∈ room.contexts.outward bench.context, ∃ value,
            event = .context (.bound nearest Context.scopeKey value))
  /-- What is inside a bench, or has its context inside the other's, is on no chain of it. -/
  inside : ∀ inner innerBench outer outerBench, room.benches.get? inner = some innerBench →
    room.benches.get? outer = some outerBench →
    (outer ∈ room.benches.outward inner ∧ outer ≠ inner ∨
      outerBench.context ∈ room.contexts.outward innerBench.context ∧
        outerBench.context ≠ innerBench.context) →
      inner ∉ room.benches.outward outer ∧
        innerBench.context ∉ room.contexts.outward outerBench.context

theorem scope_congr {after : Workroom α} {benchAfter : Bench}
    (sameKind : benchAfter.kind = bench.kind)
    (sameSetting : after.resolve? benchAfter Context.scopeKey (Context.scopeKind α) =
      room.resolve? bench Context.scopeKey (Context.scopeKind α)) :
    after.scope benchAfter = room.scope bench := by
  rw [Workroom.scope, Workroom.scope, sameKind, sameSetting]

/-- After every run, handles and settings are found along two chains of their own. -/
theorem independentChains_of_run (run : Run Next {} past room) :
    IndependentChains past room := by
  have recorded := recorded_of_run run
  refine {
    contexts := fun _ _ => recorded.outward_of_created
    benches := fun _ _ _ _ => recorded.bench_of_opened
    handles := recorded.resolveHandle?_eq_mostRecent?
    names := fun _ _ _ found => recorded.name_of_resolveHandle? found
    settings := recorded.resolve?_eq_mostRecent?
    scopes := fun _ _ => scope_eq_ok_iff
    noScope := fun _ _ => scope_eq_error_iff
    shared := ?_
    changes := ?_
    inside := ?_ }
  · intro number bench other otherBench held otherHeld apart shared
    have sameSettings (key : String) (kind : κ) :
        room.resolve? bench key kind = room.resolve? otherBench key kind := by
      rw [resolve?, shared, resolve?]
    refine ⟨sameSettings, fun scope => ?_,
      recorded.disjoint_of_shared held otherHeld apart shared⟩
    rw [scope_eq_ok_iff, scope_eq_ok_iff, sameSettings]
  · intro event after next number bench held
    obtain ⟨benchAfter, heldAfter, sameKind, sameContext⟩ := next.keeps_bench held
    have settings {key : String} {kind : κ}
        (changed : after.resolve? benchAfter key kind ≠ room.resolve? bench key kind) :
        ∃ nearest ∈ room.contexts.outward bench.context, ∃ value,
          event = .context (.bound nearest key value) := by
      rw [resolve?, sameContext] at changed
      exact recorded.bound_of_changed next (recorded.context_lt_size held) changed
    refine ⟨benchAfter, heldAfter, sameKind, sameContext, ?_, ?_, ?_⟩
    · intro name changed
      exact recorded.registered_of_changed next (Forest.lt_size_of_get? held) changed
    · intro key kind changed
      exact settings changed
    · intro changed
      exact settings fun same => changed (scope_congr sameKind same)
  · intro inner innerBench outer outerBench held outerHeld inside
    have around : outerBench.context ∈ room.contexts.outward innerBench.context ∧
        outerBench.context ≠ innerBench.context := by
      rcases inside with ⟨onTheWay, apart⟩ | around
      · obtain ⟨isAround, apartContexts⟩ :=
          recorded.context_mem_outward held outerHeld onTheWay
        exact ⟨isAround, apartContexts apart⟩
      · exact around
    exact recorded.not_mem_outward_of_inside held outerHeld around.1 around.2

end Scopes

/-- A bench inside the first one inherits its handle and its setting. A bench that shares its
context and one over a context inside inherit the setting only. -/
theorem independentChains_of_three_openings :
    let publishing : Handle := ⟨"publishing", "PublishingExtension"⟩
    let past : List (RoomEvent Setting) :=
      [.context .root, .opened .custom 0, .registered 0 publishing,
        .openedInside 0 .custom 0 1, .registered 1 ⟨"local", "Any"⟩, .opened .gradle 0,
        .context (.child 0), .opened .custom 2, .context (.bound 0 "version" (.text "1.0"))]
    ∃ room : BenchStore, Run Next {} past room ∧
      [0, 1, 2, 3].map (room.resolveHandle? · "publishing") =
        [some publishing, some publishing, none, none] ∧
      room.resolveHandle? 0 "local" = none ∧
      [0, 1, 2, 3].map (fun number =>
        (room.benches.get? number).bind (room.resolve? · "version" .text)) =
          List.replicate 4 (some (.text "1.0")) := by
  intro publishing past
  have run : Run Next ({} : BenchStore) past _ :=
    .step (.context .root) (.step (.opened .custom (by decide))
      (.step (.registered publishing (by decide))
        (.step (@Next.openedInside _ _ 0 ⟨.custom, 0, _⟩ rfl)
          (.step (.registered ⟨"local", "Any"⟩ (by decide))
            (.step (.opened .gradle (by decide)) (.step (.context (.child (by decide)))
              (.step (.opened .custom (by decide))
                (.step (.context (.bound "version" (Setting.text "1.0") (by decide)))
                  (.done _)))))))))
  have chains := independentChains_of_run run
  refine ⟨_, run, ?_, ?_, ?_⟩
  · simp only [chains.handles]
    rfl
  · rw [chains.handles]
    rfl
  · simp only [chains.settings]
    rfl

end Workroom

end BuildScribe
