import BuildScribe.Building.Draft
import BuildScribe.Proofs.OrderedMap

/-!
# Drafts of plain steps

A plain step opens no block and expects no failure: it adds a statement, an import, or
a statement and a declaration. While every name that is declared is new to the scope of
the script, a run of plain steps does not fail, and what it leaves behind is what its
steps add, in order.
-/

namespace BuildScribe

namespace RootStep

def IsPlain : RootStep → Prop
  | within (.block _ _) => False
  | within (.attempt _) => False
  | _ => True

/-- The statements that a plain step adds, if the publishing section has the given
handle. -/
def written (handle : Handle) : RootStep → List Node
  | within (.statement node) => [node]
  | within (.property path value) => [.assign path value]
  | within (.call name arguments) => [.invoke name arguments]
  | within (.comment text) => [.ofComment text]
  | within (.declare name type initial) =>
      [.declaration ⟨.declaration, none, .empty⟩ name (.ofList [.val]) (type.map .of)
        (some initial)]
  | within _ => []
  | addImport _ => []
  | group value => [.assign "group" (.ofString value)]
  | version value => [.assign "version" (.ofString value)]
  | plugins specs => [PluginSpec.block specs]
  | repositories listed => [Repository.block listed]
  | publishing parts => [PublishingPart.block parts]
  | signing parts => [SigningPart.block handle parts]

def declared : RootStep → List String
  | within (.declare name _ _) => [name]
  | _ => []

def imported : RootStep → List String
  | addImport path => [path]
  | _ => []

end RootStep

namespace ImportSet

def insertAll (imports : ImportSet) (paths : List String) : ImportSet :=
  paths.foldl (fun known path => insert path known) imports

end ImportSet

/-- A draft whose own scope holds the given names, whose own imports are the given ones,
and which finds the handle of the publishing section. -/
structure Draft.Ready (handle : Handle) (names : List String) (imports : ImportSet)
    (draft : Draft) : Prop where
  scope : ∃ scope, draft.environment.own.scope = some scope ∧
    scope.symbols.keys = names
  imports : draft.environment.own.imports = some imports
  publishing : draft.environment.resolveHandle? "publishing" = some handle

namespace Environment

variable {environment : Environment} {scope : Scope}

theorem currentScope_of_own (own : environment.own.scope = some scope) :
    environment.currentScope = .ok scope := by
  unfold currentScope scopes layers
  rw [List.filterMap_cons, own]

theorem imports_of_own {imports : ImportSet}
    (own : environment.own.imports = some imports) : environment.imports = imports := by
  unfold Environment.imports layers
  rw [List.findSome?_cons, own]
  rfl

/-- A new name is defined in the scope of the innermost layer, if it has one. -/
theorem define_of_own (own : environment.own.scope = some scope) {symbol : Symbol}
    (new : symbol.name ∉ scope.symbols.keys) :
    environment.define symbol =
      .ok { environment with
        own := { environment.own with
          scope := some { scope with
            symbols := scope.symbols.insert symbol.name symbol } } } := by
  have absent : scope.symbols.contains symbol.name = false := by
    rwa [Bool.eq_false_iff, ne_eq, OrderedMap.contains_iff]
  simp [define, currentScope_of_own own, Scope.define, absent, layers, replaceScope, own,
    withLayers, pure, Except.pure, bind, Except.bind]

end Environment

namespace Draft

variable {handle : Handle} {names : List String} {imports : ImportSet} {draft : Draft}

namespace Ready

theorem add (ready : draft.Ready handle names imports) (node : Node) :
    (draft.add node).Ready handle names imports :=
  ⟨ready.scope, ready.imports, ready.publishing⟩

theorem addImport (ready : draft.Ready handle names imports) (path : String) :
    { draft with environment := draft.environment.addImport path }.Ready handle names
      (ImportSet.insert path imports) := by
  refine ⟨ready.scope, ?_, ready.publishing⟩
  rw [Environment.addImport, Environment.imports_of_own ready.imports]

/-- A new name is declared without a failure. -/
theorem declare (ready : draft.Ready handle names imports) {name : String}
    (new : name ∉ names) (type : Option ScriptType) (initial : Node) :
    ∃ changed, draft.declare name type initial = .ok changed ∧
      changed.statements = draft.statements ++
        [.declaration ⟨.declaration, none, .empty⟩ name (.ofList [.val]) (type.map .of)
          (some initial)] ∧
      changed.Ready handle (names ++ [name]) imports := by
  obtain ⟨scope, own, keys⟩ := ready.scope
  have newKey : name ∉ scope.symbols.keys := by rwa [keys]
  unfold Draft.declare
  dsimp only
  rw [Environment.define_of_own own newKey]
  refine ⟨_, rfl, rfl, ⟨_, rfl, ?_⟩, ready.imports, ready.publishing⟩
  rw [OrderedMap.keys_insert, if_neg newKey, keys]

end Ready

end Draft

namespace RootStep

variable {handle : Handle} {names : List String} {imports : ImportSet} {draft : Draft}

/-- A plain step adds what it writes, declares and imports, and does not fail unless a
name that it declares is known. -/
theorem run_of_plain (ready : draft.Ready handle names imports) {step : RootStep}
    (plain : step.IsPlain) (new : ∀ name ∈ step.declared, name ∉ names) :
    (step.run draft).failure = none ∧
      (step.run draft).draft.statements = draft.statements ++ step.written handle ∧
      (step.run draft).draft.Ready handle (names ++ step.declared)
        (imports.insertAll step.imported) := by
  have unchanged : draft.Ready handle (names ++ []) (imports.insertAll []) := by
    rwa [List.append_nil]
  cases step with
  | within inner =>
      cases inner with
      | statement node => exact ⟨rfl, rfl, unchanged.add _⟩
      | property path value => exact ⟨rfl, rfl, unchanged.add _⟩
      | call name arguments => exact ⟨rfl, rfl, unchanged.add _⟩
      | comment text => exact ⟨rfl, rfl, unchanged.add _⟩
      | declare name type initial =>
          obtain ⟨changed, declares, statements, readyAfter⟩ :=
            ready.declare (new name List.mem_cons_self) type initial
          have finished : (RootStep.within (.declare name type initial)).run draft =
              .ofResult (.within (.declare name type initial)) changed (.ok .done) := by
            rw [RootStep.run, BlockStep.run, declares]
            rfl
          rw [finished]
          exact ⟨rfl, statements, readyAfter⟩
      | block name body => exact plain.elim
      | attempt step => exact plain.elim
      | askScope =>
          obtain ⟨scope, own, _⟩ := ready.scope
          have finished : (RootStep.within .askScope).run draft =
              .ofResult (.within .askScope) draft
                (.ok (.scope (Scope.path draft.environment.scopes) scope.localNames)) := by
            rw [RootStep.run, BlockStep.run, Draft.askScope,
              Environment.currentScope_of_own own]
            rfl
          rw [finished]
          exact ⟨rfl, (List.append_nil _).symm, unchanged⟩
      | askSymbol name =>
          obtain ⟨scope, own, _⟩ := ready.scope
          have finished : (RootStep.within (.askSymbol name)).run draft =
              .ofResult (.within (.askSymbol name)) draft
                (.ok (.symbol (draft.environment.resolveSymbol? name))) := by
            rw [RootStep.run, BlockStep.run, Draft.askSymbol,
              Environment.currentScope_of_own own]
            rfl
          rw [finished]
          exact ⟨rfl, (List.append_nil _).symm, unchanged⟩
      | askHandle name => exact ⟨rfl, (List.append_nil _).symm, unchanged⟩
  | addImport path => exact ⟨rfl, (List.append_nil _).symm, unchanged.addImport path⟩
  | group value => exact ⟨rfl, rfl, unchanged.add _⟩
  | version value => exact ⟨rfl, rfl, unchanged.add _⟩
  | plugins specs => exact ⟨rfl, rfl, unchanged.add _⟩
  | repositories listed => exact ⟨rfl, rfl, unchanged.add _⟩
  | publishing parts => exact ⟨rfl, rfl, unchanged.add _⟩
  | signing parts =>
      have finished : (RootStep.signing parts).run draft =
          .ofResult (.signing parts) (draft.add (SigningPart.block handle parts))
            (.ok .done) := by
        rw [RootStep.run, signingBlock, ready.publishing]
        rfl
      rw [finished]
      exact ⟨rfl, rfl, unchanged.add _⟩

/-- A run of plain steps that declare distinct new names adds what its steps add. -/
theorem runAll_of_plain (strict : Bool) (ready : draft.Ready handle names imports)
    {steps : List RootStep} (plain : ∀ step ∈ steps, step.IsPlain)
    (distinct : (names ++ steps.flatMap declared).Nodup) :
    (runAll strict draft steps).failure = none ∧
      (runAll strict draft steps).draft.statements =
        draft.statements ++ steps.flatMap (written handle) ∧
      (runAll strict draft steps).draft.Ready handle (names ++ steps.flatMap declared)
        (imports.insertAll (steps.flatMap imported)) := by
  -- Readiness is the invariant: what a step declares counts as known for the rest of the
  -- run, which is why all names have to be distinct together.
  induction steps generalizing draft names imports with
  | nil =>
      have unchanged : draft.Ready handle (names ++ []) (imports.insertAll []) := by
        rwa [List.append_nil]
      exact ⟨rfl, (List.append_nil _).symm, unchanged⟩
  | cons step rest ih =>
      rw [List.forall_mem_cons] at plain
      rw [List.flatMap_cons, ← List.append_assoc] at distinct
      have new : ∀ name ∈ step.declared, name ∉ names := by
        intro name isDeclared isKnown
        have apart := (List.nodup_append.mp (List.nodup_append.mp distinct).1).2.2
        exact apart name isKnown name isDeclared rfl
      obtain ⟨succeeds, statements, readyAfter⟩ := run_of_plain ready plain.1 new
      have others := ih readyAfter plain.2 distinct
      have goesOn : runAll strict draft (step :: rest) =
          { runAll strict (step.run draft).draft rest with
            log := (step.run draft).log ++
              (runAll strict (step.run draft).draft rest).log } := by
        cases strict with
        | false => rfl
        | true => simp only [runAll, succeeds]
      rw [goesOn]
      refine ⟨others.1, ?_, ?_⟩
      · rw [others.2.1, statements, List.flatMap_cons, List.append_assoc]
      · simpa [ImportSet.insertAll, List.flatMap_cons] using others.2.2

end RootStep

end BuildScribe
