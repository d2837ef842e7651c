import BuildScribe.Building.Workshop
import BuildScribe.Proofs.Building.Drafting

/-!
# What a step does to the layers

A builder only changes the innermost layer of its environment. A block works in a layer
of its own, so when the block is left, whether it is finished or has failed, the layers
around it are those that were there when it was opened.
-/

namespace BuildScribe

namespace Environment

variable {environment changed : Environment} {scope : Scope}

/-- No declaration gets past the innermost layer: it has a scope, or else no layer has
one. -/
def DeclaresWithin (environment : Environment) : Prop :=
  environment.own.scope = none → environment.scopes = []

theorem currentScope_of_unscoped (unscoped : environment.scopes = []) :
    environment.currentScope =
      .error (.configuration (.scope environment.kind.name)) := by
  rw [currentScope, unscoped]

theorem define_of_known (own : environment.own.scope = some scope) {symbol : Symbol}
    (known : symbol.name ∈ scope.symbols.keys) :
    environment.define symbol = .error (.duplicateSymbol symbol.name scope.name) := by
  have present : scope.symbols.contains symbol.name = true :=
    OrderedMap.contains_iff.mpr known
  rw [define, currentScope_of_own own]
  simp [Scope.define, present, bind, Except.bind]

theorem define_of_unscoped (unscoped : environment.scopes = []) (symbol : Symbol) :
    environment.define symbol =
      .error (.configuration (.scope environment.kind.name)) := by
  rw [define, currentScope_of_unscoped unscoped]
  rfl

/-- What is known of the layers after a step: those around the innermost one are the same,
and the innermost one has a scope if it had one. -/
structure Follows (environment changed : Environment) : Prop where
  kind : changed.kind = environment.kind
  outer : changed.outer = environment.outer
  keepsScope : changed.own.scope.isSome = environment.own.scope.isSome

namespace Follows

theorem refl (environment : Environment) : environment.Follows environment :=
  ⟨rfl, rfl, rfl⟩

theorem trans {first second third : Environment} (onFirst : first.Follows second)
    (onSecond : second.Follows third) : first.Follows third :=
  ⟨onSecond.kind.trans onFirst.kind, onSecond.outer.trans onFirst.outer,
    onSecond.keepsScope.trans onFirst.keepsScope⟩

theorem declaresWithin (follows : environment.Follows changed)
    (within : environment.DeclaresWithin) : changed.DeclaresWithin := by
  intro unscoped
  have ownBefore : environment.own.scope = none := by
    simpa [unscoped] using follows.keepsScope.symm
  have nowhere := within ownBefore
  simp only [scopes, layers, List.filterMap_cons, unscoped, ownBefore, follows.outer]
    at nowhere ⊢
  exact nowhere

/-- Leaving what was pushed leads back to the environment below it. -/
theorem leave {layer : Layer} (follows : (environment.push layer).Follows changed) :
    changed.leave = environment := by
  have kind : changed.kind = environment.kind := follows.kind
  have outer : changed.outer = environment.own :: environment.outer := follows.outer
  obtain ⟨changedKind, changedOwn, changedOuter⟩ := changed
  simp only at kind outer
  subst kind outer
  rfl

end Follows

/-- A layer is opened only inside a scope, and then it has a scope of its own. -/
theorem enter_eq_ok {name : String} {inside : Environment}
    (entered : environment.enter name = .ok inside) :
    environment.scopes ≠ [] ∧
      inside = environment.push { scope := some (.fresh name) } := by
  unfold enter at entered
  by_cases unscoped : environment.scopes = []
  · rw [currentScope_of_unscoped unscoped] at entered
    cases entered
  · refine ⟨unscoped, ?_⟩
    cases current : environment.currentScope with
    | error failure =>
        rw [current] at entered
        cases entered
    | ok scope =>
        rw [current] at entered
        cases entered
        rfl

end Environment

namespace Draft

variable {draft changed : Draft} {name : String} {type : Option ScriptType} {initial : Node}

/-- A declaration defines a new name in the scope of the innermost layer and adds one
statement. -/
theorem declare_eq_ok (within : draft.environment.DeclaresWithin)
    (declares : draft.declare name type initial = .ok changed) :
    ∃ scope symbol, draft.environment.own.scope = some scope ∧
      name ∉ scope.symbols.keys ∧
      changed.environment = { draft.environment with
        own := { draft.environment.own with
          scope := some { scope with symbols := scope.symbols.insert name symbol } } } ∧
      changed.statements = draft.statements ++
        [.declaration ⟨.declaration, none, .empty⟩ name (.ofList [.val]) (type.map .of)
          (some initial)] := by
  unfold declare at declares
  dsimp only at declares
  cases own : draft.environment.own.scope with
  | none =>
      rw [Environment.define_of_unscoped (within own)] at declares
      cases declares
  | some scope =>
      by_cases known : name ∈ scope.symbols.keys
      · rw [Environment.define_of_known own known] at declares
        cases declares
      · rw [Environment.define_of_own own known] at declares
        cases declares
        exact ⟨scope, _, rfl, known, rfl, rfl⟩

/-- A declaration fails exactly if the innermost scope has the name already, or if there is
no scope at all. -/
theorem declare_eq_error_iff (within : draft.environment.DeclaresWithin)
    {failure : Failure} :
    draft.declare name type initial = .error failure ↔
      (∃ scope, draft.environment.own.scope = some scope ∧ name ∈ scope.symbols.keys ∧
        failure = .duplicateSymbol name scope.name) ∨
      draft.environment.own.scope = none ∧
        failure = .configuration (.scope draft.environment.kind.name) := by
  unfold declare
  dsimp only
  cases own : draft.environment.own.scope with
  | none =>
      rw [Environment.define_of_unscoped (within own)]
      simp [bind, Except.bind, eq_comm]
  | some scope =>
      by_cases known : name ∈ scope.symbols.keys
      · rw [Environment.define_of_known own known]
        simp [bind, Except.bind, known, eq_comm]
      · rw [Environment.define_of_own own known]
        simp [bind, Except.bind, known, pure, Except.pure]

end Draft

namespace DraftRun

@[simp] theorem draft_ofResult (step : RootStep) (draft : Draft)
    (result : Except Failure StepAnswer) : (ofResult step draft result).draft = draft := by
  cases result <;> rfl

@[simp] theorem draft_ofChange_ok (step : RootStep) (draft changed : Draft) :
    (ofChange step draft (.ok changed)).draft = changed := rfl

@[simp] theorem draft_ofChange_error (step : RootStep) (draft : Draft) (failure : Failure) :
    (ofChange step draft (.error failure)).draft = draft := rfl

/-- A change that fails is not made. -/
theorem draft_ofChange_of_failure {step : RootStep} {draft : Draft}
    {change : Except Failure Draft} (fails : (ofChange step draft change).failure ≠ none) :
    (ofChange step draft change).draft = draft := by
  cases change with
  | error failure => rfl
  | ok changed => exact (fails rfl).elim

end DraftRun

namespace BlockStep

variable {draft : Draft}

/-- The change that a block makes to the draft around it: one statement more, unless a
step inside has failed. -/
def blockChange (draft : Draft) (name : String) (inner : DraftRun) : Except Failure Draft :=
  match inner.failure with
  | some failure => .error failure
  | none => .ok (draft.add (.named name inner.draft.statements))

/-- The run of a block, if what runs inside does not change the layers around it. -/
theorem run_block {name : String} {body : List BlockStep} {inside : Environment}
    (entered : draft.environment.enter name = .ok inside)
    (follows : inside.Follows (runAll ⟨inside, []⟩ body).draft.environment) :
    (block name body).run draft =
      { DraftRun.ofChange (.within (.block name body)) draft
          (blockChange draft name (runAll ⟨inside, []⟩ body)) with
        log := (runAll ⟨inside, []⟩ body).log ++
          (DraftRun.ofChange (.within (.block name body)) draft
            (blockChange draft name (runAll ⟨inside, []⟩ body))).log } := by
  obtain ⟨_, rfl⟩ := Environment.enter_eq_ok entered
  rw [run, entered]
  simp only [follows.leave]
  rfl

theorem declaresWithin_of_entered {environment inside : Environment} {name : String}
    (entered : environment.enter name = .ok inside) : inside.DeclaresWithin := by
  obtain ⟨_, rfl⟩ := Environment.enter_eq_ok entered
  intro unscoped
  cases unscoped

mutual

/-- A step only changes the innermost layer. -/
theorem follows_run (draft : Draft) (within : draft.environment.DeclaresWithin)
    (step : BlockStep) : draft.environment.Follows (step.run draft).draft.environment := by
  cases step with
  | statement node => exact .refl _
  | property path value => exact .refl _
  | call name arguments => exact .refl _
  | comment text => exact .refl _
  | declare name type initial =>
      rw [run]
      cases declares : draft.declare name type initial with
      | error failure => exact .refl _
      | ok changed =>
          obtain ⟨scope, symbol, own, _, environment, _⟩ :=
            Draft.declare_eq_ok within declares
          rw [DraftRun.draft_ofChange_ok, environment]
          exact ⟨rfl, rfl, by rw [own]; rfl⟩
  | block name body =>
      cases entered : draft.environment.enter name with
      | error failure =>
          rw [run, entered]
          exact .refl _
      | ok inside =>
          have inner := follows_runAll ⟨inside, []⟩ (declaresWithin_of_entered entered) body
          rw [run_block entered inner]
          cases change : blockChange draft name (runAll ⟨inside, []⟩ body) with
          | error failure => exact .refl _
          | ok changed =>
              unfold blockChange at change
              split at change
              · cases change
              · cases change
                exact .refl _
  | attempt step => exact follows_run draft within step
  | askScope =>
      rw [run, DraftRun.draft_ofResult]
      exact .refl _
  | askSymbol name =>
      rw [run, DraftRun.draft_ofResult]
      exact .refl _
  | askHandle name =>
      rw [run, DraftRun.draft_ofResult]
      exact .refl _

theorem follows_runAll (draft : Draft) (within : draft.environment.DeclaresWithin)
    (steps : List BlockStep) :
    draft.environment.Follows (runAll draft steps).draft.environment := by
  cases steps with
  | nil => exact .refl _
  | cons step rest =>
      have first := follows_run draft within step
      rw [runAll]
      split
      · exact first
      · exact first.trans (follows_runAll _ (first.declaresWithin within) rest)

end

/-- A step that fails leaves the statements and all layers as they were. -/
theorem draft_of_failure {step : BlockStep}
    (fails : (step.run draft).failure ≠ none) : (step.run draft).draft = draft := by
  cases step with
  | block name body =>
      cases entered : draft.environment.enter name with
      | error failure =>
          rw [run, entered]
          exact DraftRun.draft_ofResult _ _ _
      | ok inside =>
          have inner := follows_runAll ⟨inside, []⟩ (declaresWithin_of_entered entered) body
          rw [run_block entered inner] at fails ⊢
          exact DraftRun.draft_ofChange_of_failure fails
  | attempt step => exact (fails rfl).elim
  | askScope => rw [run, DraftRun.draft_ofResult]
  | askSymbol name => rw [run, DraftRun.draft_ofResult]
  | askHandle name => rw [run, DraftRun.draft_ofResult]
  | _ =>
      rw [run] at fails ⊢
      exact DraftRun.draft_ofChange_of_failure fails

end BlockStep

end BuildScribe
