import BuildScribe.Proofs.Building.Catalogue
import BuildScribe.Proofs.Building.Layers

/-!
# Isolated builds

A build works in a layer of its own on top of the workshop, and whatever its steps do, and
wherever they fail, only that layer changes. So a workshop is after every build what it was
when it was set up, and no build can tell whether others came before it.
-/

namespace BuildScribe

namespace RootStep

variable {draft : Draft}

theorem follows_run (within : draft.environment.DeclaresWithin) (step : RootStep) :
    draft.environment.Follows (step.run draft).draft.environment := by
  cases step with
  | within step => exact BlockStep.follows_run draft within step
  | signing parts =>
      rw [run, signingBlock]
      cases draft.environment.resolveHandle? "publishing" <;> exact .refl _
  | _ => exact ⟨rfl, rfl, rfl⟩

/-- However a run of steps ends, only the innermost layer has changed. -/
theorem follows_runAll (strict : Bool) (within : draft.environment.DeclaresWithin)
    (steps : List RootStep) :
    draft.environment.Follows (runAll strict draft steps).draft.environment := by
  induction steps generalizing draft with
  | nil => exact .refl _
  | cons step rest ih =>
      have first := follows_run within step
      have others := first.trans (ih (first.declaresWithin within))
      cases fails : (step.run draft).failure with
      | none => cases strict <;> simpa only [runAll, fails] using others
      | some failure =>
          cases strict with
          | false => simpa only [runAll] using others
          | true => simpa only [runAll, fails] using first

end RootStep

namespace Workshop

/-- A draft is begun with a scope of its own if the workshop has a scope. -/
theorem declaresWithin_newDraft (workshop : Workshop) :
    workshop.newDraft.environment.DeclaresWithin := by
  intro unscoped
  have ground : workshop.ground.layer.scope = none := by
    simpa [newDraft, buildLayer, Environment.push] using unscoped
  simp [newDraft, buildLayer, Environment.push, Environment.scopes, Environment.layers,
    environment, ground]

/-- A build hands the workshop back as it was. -/
theorem fst_build (workshop : Workshop) (strict : Bool) (steps : List RootStep) :
    (workshop.build strict steps).1 = workshop := by
  have follows := RootStep.follows_runAll strict workshop.declaresWithin_newDraft steps
  rw [build, after, follows.leave]
  rfl

/-- The workshop after builds, each of which ends at its first failure or goes on. -/
def afterBuilds (workshop : Workshop) (builds : List (Bool × List RootStep)) : Workshop :=
  builds.foldl (fun current steps => (current.build steps.1 steps.2).1) workshop

theorem afterBuilds_eq (workshop : Workshop) (builds : List (Bool × List RootStep)) :
    workshop.afterBuilds builds = workshop := by
  induction builds with
  | nil => rfl
  | cons steps rest ih =>
      rw [afterBuilds, List.foldl_cons, fst_build]
      exact ih

/-- Builds in a row run as if each were the only one. -/
theorem buildAll_eq (workshop : Workshop) (strict : Bool) (builds : List (List RootStep)) :
    workshop.buildAll strict builds =
      (workshop, builds.map fun steps => (workshop.build strict steps).2) := by
  induction builds with
  | nil => rfl
  | cons steps rest ih =>
      have next := workshop.fst_build strict steps
      change (((workshop.build strict steps).1.buildAll strict rest).1,
        (workshop.build strict steps).2 ::
          ((workshop.build strict steps).1.buildAll strict rest).2) = _
      rw [next, ih]
      rfl

/-- Whatever was built before, in whichever way it ended, a workshop has the scope, the
imports, the handles and the settings that it was created with, and the next build leaves
behind what it would leave behind in a workshop that has just been created. -/
theorem builds_isolated {catalogue : Catalogue} {kind : BuildKind} {language : String}
    {workshop : Workshop} (created : catalogue.createGradle kind language = .ok workshop)
    (earlier : List (Bool × List RootStep)) :
    (workshop.afterBuilds earlier).environment = workshop.environment ∧
      (workshop.afterBuilds earlier).ground = workshop.ground ∧
      ∀ fresh, catalogue.createGradle kind language = .ok fresh →
        (∀ strict steps,
          ((workshop.afterBuilds earlier).build strict steps).2 =
              (fresh.build strict steps).2 ∧
            ((workshop.afterBuilds earlier).build strict steps).2.result =
              (fresh.build strict steps).2.result) ∧
        ∀ strict builds,
          (workshop.afterBuilds earlier).buildAll strict builds =
            (workshop, builds.map fun steps => (fresh.build strict steps).2) := by
  rw [afterBuilds_eq]
  refine ⟨rfl, rfl, ?_⟩
  intro fresh alsoCreated
  rw [created] at alsoCreated
  cases alsoCreated
  exact ⟨fun _ _ => ⟨rfl, rfl⟩, fun strict builds => workshop.buildAll_eq strict builds⟩

/-- One build fails when it declares a name again, another one goes on after that. The name
and the import are new to the build that follows. -/
theorem isolated_after_failed_build :
    Catalogue.standard.createGradle .gradle "Kotlin" =
        .ok (Catalogue.gradleWorkshop .kotlin) ∧
      (((Catalogue.gradleWorkshop .kotlin).afterBuilds
          [(true, [.addImport "x.A", .within (.declare "a" none (.ofString "b")),
            .within (.block "c" [.declare "d" none (.ofString "b"),
              .declare "d" none (.ofString "b")])]),
          (false, [.within (.declare "a" none (.ofString "b")),
            .within (.declare "a" none (.ofString "b")), .version "1"])]).build true
        [.within (.declare "a" none (.ofString "e"))]).2.result =
      .ok (.ofStatements [] [.declaration ⟨.declaration, none, .empty⟩ "a"
        (.ofList [.val]) none (some (.ofString "e"))]) := by
  have created : Catalogue.standard.createGradle .gradle "Kotlin" =
      .ok (Catalogue.gradleWorkshop .kotlin) :=
    Catalogue.createGradle_of_recognized (by decide)
  obtain ⟨_, _, isolated⟩ := builds_isolated created
    [(true, [.addImport "x.A", .within (.declare "a" none (.ofString "b")),
      .within (.block "c" [.declare "d" none (.ofString "b"),
        .declare "d" none (.ofString "b")])]),
    (false, [.within (.declare "a" none (.ofString "b")),
      .within (.declare "a" none (.ofString "b")), .version "1"])]
  exact ⟨created, ((isolated _ created).1 true _).2.trans rfl⟩

end Workshop

end BuildScribe
