import BuildScribe.Proofs.Building.Isolation
import Mathlib.Logic.Relation

/-!
# Moments of a build

Between two operations of a builder some blocks are open, one inside the other. Each of them
collects statements and has a scope of its own, and only the innermost one changes. At every
moment the names declared by the statements of a block are the names in its scope, whichever
operations have failed before.
-/

namespace BuildScribe

/-- The name in a declaration. -/
def Node.declaredName? : Node → Option String
  | declaration _ name _ _ _ => some name
  | _ => none

/-- The names in the declarations among statements. -/
def declaredNames (statements : List Node) : List String :=
  statements.filterMap Node.declaredName?

/-- The names in the scope of a layer; without a scope there are none. -/
def Layer.localNames (layer : Layer) : List String :=
  (layer.scope.map Scope.localNames).getD []

/-- A block in which another one is open. -/
structure OpenBlock where
  /-- The draft as it was when the inner block was opened. -/
  draft : Draft
  /-- The name of the inner block. -/
  inner : String

/-- What a builder holds between two operations: the draft of the innermost open block, and
the open blocks around it, the next one first. -/
structure Moment where
  draft : Draft
  around : List OpenBlock

namespace Moment

/-- The drafts of all open blocks, the innermost one first. -/
def openDrafts (moment : Moment) : List Draft :=
  moment.draft :: moment.around.map (·.draft)

/-- The operations that change what a builder holds. An open block ends as a statement of
the block around it, or it is abandoned after a failure. -/
inductive Next : Moment → Moment → Prop where
  | statement {draft : Draft} {around : List OpenBlock} {node : Node} :
      node.declaredName? = none → Next ⟨draft, around⟩ ⟨draft.add node, around⟩
  | addImport {draft : Draft} (path : String) :
      Next ⟨draft, []⟩
        ⟨{ draft with environment := draft.environment.addImport path }, []⟩
  | declare {draft changed : Draft} {around : List OpenBlock} {name : String}
      {type : Option ScriptType} {initial : Node} :
      draft.declare name type initial = .ok changed →
        Next ⟨draft, around⟩ ⟨changed, around⟩
  | openBlock {draft : Draft} {around : List OpenBlock} {name : String}
      {inside : Environment} :
      draft.environment.enter name = .ok inside →
        Next ⟨draft, around⟩ ⟨⟨inside, []⟩, ⟨draft, name⟩ :: around⟩
  | finish {draft : Draft} {outer : OpenBlock} {around : List OpenBlock} :
      Next ⟨draft, outer :: around⟩
        ⟨{ outer.draft with environment := draft.environment.leave }.add
          (.named outer.inner draft.statements), around⟩
  | abandon {draft : Draft} {outer : OpenBlock} {around : List OpenBlock} :
      Next ⟨draft, outer :: around⟩
        ⟨{ outer.draft with environment := draft.environment.leave }, around⟩

/-- Any number of operations. -/
abbrev Leads : Moment → Moment → Prop :=
  Relation.ReflTransGen Next

end Moment

/-- A moment of some build in the workshop. -/
def Workshop.Passes (workshop : Workshop) (moment : Moment) : Prop :=
  Moment.Leads ⟨workshop.newDraft, []⟩ moment

mutual

/-- Whether all declarations of a step are made by declaring. -/
def BlockStep.DeclaresByName : BlockStep → Prop
  | .statement node => node.declaredName? = none
  | .block _ body => BlockStep.AllDeclareByName body
  | .attempt step => step.DeclaresByName
  | _ => True

def BlockStep.AllDeclareByName : List BlockStep → Prop
  | [] => True
  | step :: rest => step.DeclaresByName ∧ BlockStep.AllDeclareByName rest

end

def RootStep.DeclaresByName : RootStep → Prop
  | within step => step.DeclaresByName
  | _ => True

namespace Moment

open Relation

mutual

/-- The run of a step leads from moment to moment. -/
theorem leads_run (draft : Draft) (around : List OpenBlock) (step : BlockStep)
    (byName : step.DeclaresByName) :
    Leads ⟨draft, around⟩ ⟨(step.run draft).draft, around⟩ := by
  cases step with
  | statement node => exact .single (.statement byName)
  | property path value => exact .single (.statement rfl)
  | call name arguments => exact .single (.statement rfl)
  | comment text => exact .single (.statement rfl)
  | declare name type initial =>
      rw [BlockStep.run]
      cases declares : draft.declare name type initial with
      | error failure => exact .refl
      | ok changed => exact .single (.declare declares)
  | block name body =>
      rw [BlockStep.run]
      cases entered : draft.environment.enter name with
      | error failure => exact .refl
      | ok inside =>
          have opened :
              Leads ⟨draft, around⟩ ⟨⟨inside, []⟩, ⟨draft, name⟩ :: around⟩ :=
            .single (.openBlock entered)
          have inner := leads_runAll ⟨inside, []⟩ (⟨draft, name⟩ :: around) body byName
          cases fails : (BlockStep.runAll ⟨inside, []⟩ body).failure with
          | none =>
              simp only [fails, DraftRun.draft_ofChange_ok]
              exact (opened.trans inner).tail .finish
          | some failure =>
              simp only [fails, DraftRun.draft_ofChange_error]
              exact (opened.trans inner).tail .abandon
  | attempt step => exact leads_run draft around step byName
  | askScope =>
      rw [BlockStep.run, DraftRun.draft_ofResult]
  | askSymbol name =>
      rw [BlockStep.run, DraftRun.draft_ofResult]
  | askHandle name =>
      rw [BlockStep.run, DraftRun.draft_ofResult]

theorem leads_runAll (draft : Draft) (around : List OpenBlock) (steps : List BlockStep)
    (byName : BlockStep.AllDeclareByName steps) :
    Leads ⟨draft, around⟩ ⟨(BlockStep.runAll draft steps).draft, around⟩ := by
  cases steps with
  | nil => exact .refl
  | cons step rest =>
      have first := leads_run draft around step byName.1
      rw [BlockStep.runAll]
      split
      · exact first
      · exact first.trans (leads_runAll _ around rest byName.2)

end

theorem leads_runRoot (draft : Draft) {step : RootStep} (byName : step.DeclaresByName) :
    Leads ⟨draft, []⟩ ⟨(step.run draft).draft, []⟩ := by
  cases step with
  | within step => exact leads_run draft [] step byName
  | addImport path => exact .single (.addImport path)
  | signing parts =>
      rw [RootStep.run, RootStep.signingBlock]
      cases draft.environment.resolveHandle? "publishing" with
      | none => exact .refl
      | some handle => exact .single (.statement rfl)
  | _ => exact .single (.statement rfl)

theorem leads_runAllRoot (strict : Bool) (draft : Draft) {steps : List RootStep}
    (byName : ∀ step ∈ steps, step.DeclaresByName) :
    Leads ⟨draft, []⟩ ⟨(RootStep.runAll strict draft steps).draft, []⟩ := by
  induction steps generalizing draft with
  | nil => exact .refl
  | cons step rest ih =>
      rw [List.forall_mem_cons] at byName
      have first := leads_runRoot draft byName.1
      have others := first.trans (ih (step.run draft).draft byName.2)
      cases fails : (step.run draft).failure with
      | none => cases strict <;> simpa only [RootStep.runAll, fails] using others
      | some failure =>
          cases strict with
          | false => simpa only [RootStep.runAll] using others
          | true => simpa only [RootStep.runAll, fails] using first

end Moment

/-- A draft on top of an environment, in step with the scope of its innermost layer. -/
structure Draft.InStep (draft : Draft) (hasScope : Bool) (below : Environment) : Prop where
  /-- The draft works in one layer on top of the environment. -/
  onTop : ∃ layer, (below.push layer).Follows draft.environment
  within : draft.environment.DeclaresWithin
  hasScope : draft.environment.own.scope.isSome = hasScope
  names : declaredNames draft.statements = draft.environment.own.localNames
  distinct : draft.environment.own.localNames.Nodup

namespace Draft.InStep

variable {draft changed : Draft} {hasScope : Bool} {below : Environment}

theorem leave (inStep : draft.InStep hasScope below) : draft.environment.leave = below := by
  obtain ⟨layer, follows⟩ := inStep.onTop
  exact follows.leave

theorem layers (inStep : draft.InStep hasScope below) :
    draft.environment.layers = draft.environment.own :: below.layers := by
  obtain ⟨layer, follows⟩ := inStep.onTop
  exact congrArg (draft.environment.own :: ·) follows.outer

theorem add (inStep : draft.InStep hasScope below) {node : Node}
    (plain : node.declaredName? = none) : (draft.add node).InStep hasScope below := by
  refine ⟨inStep.onTop, inStep.within, inStep.hasScope, ?_, inStep.distinct⟩
  have sameNames : declaredNames (draft.statements ++ [node]) =
      declaredNames draft.statements := by
    simp [declaredNames, plain]
  exact sameNames.trans inStep.names

theorem addImport (inStep : draft.InStep hasScope below) (path : String) :
    { draft with environment := draft.environment.addImport path }.InStep hasScope below := by
  obtain ⟨layer, follows⟩ := inStep.onTop
  have adds : draft.environment.Follows (draft.environment.addImport path) :=
    ⟨rfl, rfl, rfl⟩
  exact ⟨⟨layer, follows.trans adds⟩, adds.declaresWithin inStep.within, inStep.hasScope,
    inStep.names, inStep.distinct⟩

/-- A declaration adds the same name to the statements and to the scope, behind all
others. -/
theorem declare (inStep : draft.InStep hasScope below) {name : String}
    {type : Option ScriptType} {initial : Node}
    (declares : draft.declare name type initial = .ok changed) :
    changed.InStep hasScope below := by
  obtain ⟨layer, follows⟩ := inStep.onTop
  obtain ⟨scope, symbol, own, new, environment, statements⟩ :=
    declare_eq_ok inStep.within declares
  have localNames : draft.environment.own.localNames = scope.symbols.keys := by
    simp [Layer.localNames, own, Scope.localNames]
  have keysAfter : changed.environment.own.localNames =
      (scope.symbols.insert name symbol).keys := by
    simp [environment, Layer.localNames, Scope.localNames]
  have declares : draft.environment.Follows changed.environment := by
    rw [environment]
    exact ⟨rfl, rfl, by rw [own]; rfl⟩
  refine ⟨⟨layer, follows.trans declares⟩, declares.declaresWithin inStep.within,
    declares.keepsScope.trans inStep.hasScope, ?_, ?_⟩
  · have added : declaredNames changed.statements =
        declaredNames draft.statements ++ [name] := by
      simp [statements, declaredNames, Node.declaredName?]
    rw [keysAfter, OrderedMap.keys_insert, if_neg new, added, inStep.names, localNames]
  · have distinct := inStep.distinct
    rw [localNames] at distinct
    rw [keysAfter]
    exact OrderedMap.nodup_keys_insert distinct name symbol

/-- A block that has just been opened is in step with its empty scope. -/
theorem enter (inStep : draft.InStep hasScope below) {name : String}
    {inside : Environment} (entered : draft.environment.enter name = .ok inside) :
    Draft.InStep ⟨inside, []⟩ hasScope draft.environment := by
  have within := BlockStep.declaresWithin_of_entered entered
  obtain ⟨someScope, rfl⟩ := Environment.enter_eq_ok entered
  have known : hasScope = true := by
    rw [← inStep.hasScope, Option.isSome_iff_ne_none]
    exact mt inStep.within someScope
  exact ⟨⟨_, .refl _⟩, within, known.symm, rfl, List.nodup_nil⟩

/-- A declaration is refused exactly if the block has declared its name before, or if there
is no scope. -/
theorem declare_fails_iff (inStep : draft.InStep hasScope below) (name : String)
    (type : Option ScriptType) (initial : Node) :
    ((BlockStep.declare name type initial).run draft).failure ≠ none ↔
      name ∈ declaredNames draft.statements ∨ hasScope = false := by
  have refused : (∃ failure, draft.declare name type initial = .error failure) ↔
      name ∈ draft.environment.own.localNames ∨ hasScope = false := by
    rw [← inStep.hasScope]
    cases own : draft.environment.own.scope <;>
      simp [Draft.declare_eq_error_iff inStep.within, own, Layer.localNames,
        Scope.localNames]
  rw [inStep.names, ← refused, BlockStep.run]
  cases draft.declare name type initial <;>
    simp [DraftRun.ofChange, DraftRun.ofResult]

end Draft.InStep

/-- A workshop that Gradle's factory has set up for a catalogue has a scope. -/
theorem Catalogue.isSome_scope_of_createGradle {catalogue : Catalogue} {kind : BuildKind}
    {language : String} {workshop : Workshop}
    (isGradle : catalogue.factories.get? kind = some .gradle)
    (created : catalogue.createGradle kind language = .ok workshop) :
    workshop.ground.layer.scope.isSome = true := by
  unfold createGradle create at created
  rw [isGradle] at created
  cases found : catalogue.findModule language with
  | error failure =>
      rw [found] at created
      cases created
  | ok languageModule =>
      rw [found] at created
      cases created
      rfl

namespace Workshop

/-- All open blocks are in step, each on top of the next one around it. -/
def AllInStep (workshop : Workshop) : Draft → List OpenBlock → Prop
  | draft, [] => draft.InStep workshop.ground.layer.scope.isSome workshop.environment
  | draft, outer :: around =>
      draft.InStep workshop.ground.layer.scope.isSome outer.draft.environment ∧
        workshop.AllInStep outer.draft around

variable {workshop : Workshop} {draft changed : Draft} {around : List OpenBlock}

theorem AllInStep.exists_inStep (inStep : workshop.AllInStep draft around) :
    ∃ below, draft.InStep workshop.ground.layer.scope.isSome below := by
  cases around with
  | nil => exact ⟨_, inStep⟩
  | cons outer around => exact ⟨_, inStep.1⟩

/-- An operation on the innermost block leaves the blocks around it in step. -/
theorem AllInStep.change (inStep : workshop.AllInStep draft around)
    (keeps : ∀ {below}, draft.InStep workshop.ground.layer.scope.isSome below →
      changed.InStep workshop.ground.layer.scope.isSome below) :
    workshop.AllInStep changed around := by
  cases around with
  | nil => exact keeps inStep
  | cons outer around => exact ⟨keeps inStep.1, inStep.2⟩

/-- A new build has declared nothing. -/
theorem allInStep_newDraft (workshop : Workshop) :
    workshop.AllInStep workshop.newDraft [] := by
  refine ⟨⟨_, .refl _⟩, workshop.declaresWithin_newDraft, ?_, ?_, ?_⟩
  · simp [newDraft, buildLayer, Environment.push]
  all_goals
    cases scope : workshop.ground.layer.scope <;>
      simp [newDraft, buildLayer, Environment.push, scope, declaredNames,
        Layer.localNames, Scope.localNames, Scope.fresh, OrderedMap.empty,
        OrderedMap.keys]

/-- No operation gets a block out of step. -/
theorem AllInStep.next {moment later : Moment} (next : moment.Next later)
    (inStep : workshop.AllInStep moment.draft moment.around) :
    workshop.AllInStep later.draft later.around := by
  cases next with
  | statement plain => exact inStep.change fun known => known.add plain
  | addImport path => exact inStep.change fun known => known.addImport path
  | declare declares => exact inStep.change fun known => known.declare declares
  | openBlock entered =>
      obtain ⟨below, known⟩ := inStep.exists_inStep
      exact ⟨known.enter entered, inStep⟩
  | finish =>
      dsimp only
      rw [inStep.1.leave]
      exact inStep.2.change fun known => known.add rfl
  | abandon =>
      dsimp only
      rw [inStep.1.leave]
      exact inStep.2

theorem Passes.allInStep {moment : Moment} (passes : workshop.Passes moment) :
    workshop.AllInStep moment.draft moment.around := by
  induction passes with
  | refl => exact workshop.allInStep_newDraft
  | tail _ next ih => exact ih.next next

theorem AllInStep.of_mem_openDrafts (inStep : workshop.AllInStep draft around)
    {opened : Draft} (isOpen : opened ∈ (Moment.mk draft around).openDrafts) :
    ∃ below, opened.InStep workshop.ground.layer.scope.isSome below := by
  induction around generalizing draft with
  | nil =>
      rw [Moment.openDrafts, List.map_nil, List.mem_singleton] at isOpen
      exact isOpen ▸ inStep.exists_inStep
  | cons outer around ih =>
      rw [Moment.openDrafts, List.map_cons, List.mem_cons] at isOpen
      obtain rfl | isOpen := isOpen
      · exact inStep.exists_inStep
      · exact ih inStep.2 isOpen

/-- The layers are those of the open blocks, on top of that of the workshop. -/
theorem AllInStep.layers (inStep : workshop.AllInStep draft around) :
    draft.environment.layers =
      (Moment.mk draft around).openDrafts.map (·.environment.own) ++
        [workshop.ground.layer] := by
  induction around generalizing draft with
  | nil => exact inStep.layers
  | cons outer around ih => exact inStep.1.layers.trans (congrArg _ (ih inStep.2))

/-- At every moment of a build, after failures too, the declarations of every open block
are the names in its scope. Where there is a scope, as in every workshop of a catalogue, a
name is refused exactly if the innermost block has declared it. A step that fails leaves its
block as it was, and a block that is given up the block around it. -/
theorem declarations_in_step (workshop : Workshop) :
    (∀ (catalogue : Catalogue) kind language,
      catalogue.factories.get? kind = some .gradle →
      catalogue.createGradle kind language = .ok workshop →
      workshop.ground.layer.scope.isSome = true) ∧
    (∀ strict steps, (∀ step ∈ steps, step.DeclaresByName) →
      workshop.Passes ⟨(workshop.build strict steps).2.draft, []⟩) ∧
    ∀ moment, workshop.Passes moment →
      (∀ step : BlockStep, step.DeclaresByName →
        workshop.Passes ⟨(step.run moment.draft).draft, moment.around⟩) ∧
      (∀ name inside, moment.draft.environment.enter name = .ok inside →
        workshop.Passes ⟨⟨inside, []⟩, ⟨moment.draft, name⟩ :: moment.around⟩) ∧
      (∀ opened ∈ moment.openDrafts,
        declaredNames opened.statements = opened.environment.own.localNames ∧
          (declaredNames opened.statements).Nodup) ∧
      moment.draft.environment.layers =
        moment.openDrafts.map (·.environment.own) ++ [workshop.ground.layer] ∧
      (∀ name type initial,
        ((BlockStep.declare name type initial).run moment.draft).failure ≠ none ↔
          name ∈ declaredNames moment.draft.statements ∨
            workshop.ground.layer.scope.isSome = false) ∧
      (∀ step : BlockStep, (step.run moment.draft).failure ≠ none →
        (step.run moment.draft).draft = moment.draft) ∧
      ∀ outer around, moment.around = outer :: around →
        { outer.draft with environment := moment.draft.environment.leave } = outer.draft := by
  refine ⟨?_, ?_, ?_⟩
  · intro catalogue kind language isGradle created
    exact Catalogue.isSome_scope_of_createGradle isGradle created
  · intro strict steps byName
    exact Moment.leads_runAllRoot strict workshop.newDraft byName
  rintro ⟨draft, around⟩ passes
  have inStep := passes.allInStep
  refine ⟨?_, ?_, ?_, inStep.layers, ?_, ?_, ?_⟩
  · intro step byName
    exact passes.trans (Moment.leads_run draft around step byName)
  · intro name inside entered
    exact passes.tail (.openBlock entered)
  · intro opened isOpen
    obtain ⟨below, known⟩ := inStep.of_mem_openDrafts isOpen
    exact ⟨known.names, known.names ▸ known.distinct⟩
  · intro name type initial
    obtain ⟨below, known⟩ := inStep.exists_inStep
    exact known.declare_fails_iff name type initial
  · intro step fails
    exact BlockStep.draft_of_failure fails
  · rintro outer further rfl
    rw [inStep.1.leave]

/-- Inside a block a name of the script is declared once more, and a second time it is
refused. Giving the block up leaves the script with its own declaration. -/
theorem declarations_in_step_in_shadowing_block :
    let workshop := Catalogue.gradleWorkshop .kotlin
    let script := (workshop.build false
      [.within (.declare "a" none (.ofString "b")),
        .within (.declare "a" none (.ofString "c"))]).2.draft
    ∃ inside, script.environment.enter "d" = .ok inside ∧
      ∃ block, ((BlockStep.declare "a" none (.ofString "e")).run ⟨inside, []⟩).draft = block ∧
        declaredNames block.statements = ["a"] ∧
        block.environment.own.localNames = ["a"] ∧
        ((BlockStep.declare "a" none (.ofString "f")).run block).failure ≠ none ∧
        ((BlockStep.declare "a" none (.ofString "f")).run block).draft = block ∧
        { script with environment := block.environment.leave } = script ∧
        declaredNames script.statements = ["a"] := by
  intro workshop script
  obtain ⟨_, builds, moments⟩ := declarations_in_step workshop
  have atScript := builds false
    [.within (.declare "a" none (.ofString "b")),
      .within (.declare "a" none (.ofString "c"))] (by simp [RootStep.DeclaresByName,
        BlockStep.DeclaresByName])
  have entered : script.environment.enter "d" =
      .ok (script.environment.push { scope := some (.fresh "d") }) := rfl
  obtain ⟨_, opens, _⟩ := moments _ atScript
  obtain ⟨runs, _⟩ := moments _ (opens "d" _ entered)
  obtain ⟨_, _, _, _, refused, unchanged, leave⟩ :=
    moments _ (runs (.declare "a" none (.ofString "e")) trivial)
  have fails := (refused "a" none (.ofString "f")).mpr (by decide)
  exact ⟨_, entered, _, rfl, rfl, rfl, fails, unchanged _ fails, leave _ _ rfl, rfl⟩

end Workshop

end BuildScribe
