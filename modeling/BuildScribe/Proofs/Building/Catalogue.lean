import BuildScribe.Building.Catalogue
import BuildScribe.Proofs.Building.Drafting

/-!
# What the standard catalogue sets up

A language is recognized by its name in any letter case and between any blanks. For
every recognized language there is a workshop with the usual Gradle generator, whose
drafts are ready for plain steps; any other name is refused.
-/

namespace BuildScribe

namespace Language

theorem foldedName_name (language : Language) : foldedName language.name = language.name := by
  cases language with
  | kotlin => decide
  | groovy => decide

theorem ofName?_of_foldedName {text : String} {language : Language}
    (spelled : foldedName text = language.name) : ofName? text = some language := by
  unfold ofName?
  rw [spelled]
  cases language <;> rfl

theorem ofName?_eq_none {text : String}
    (unknown : ∀ language : Language, foldedName text ≠ language.name) :
    ofName? text = none := by
  rw [ofName?, List.find?_eq_none]
  intro language _
  rw [beq_iff_eq]
  exact (unknown language).symm

theorem name_injective : Function.Injective name := by
  intro language other sameName
  have named := ofName?_of_foldedName language.foldedName_name
  rw [sameName, ofName?_of_foldedName other.foldedName_name] at named
  exact (Option.some.inj named).symm

theorem ofName?_eq_some_iff {text : String} {language : Language} :
    ofName? text = some language ↔ foldedName text = language.name := by
  constructor
  · intro recognized
    have named := List.find?_some recognized
    rw [beq_iff_eq] at named
    exact named.symm
  · exact ofName?_of_foldedName

end Language

namespace Handle

/-- The publishing section, as every Gradle workshop knows it. -/
def publishing : Handle :=
  ⟨"publishing", "PublishingExtension"⟩

end Handle

namespace Catalogue

theorem createGradle_of_unrecognized {language : String}
    (unknown : ∀ target : Language, foldedName language ≠ target.name) :
    standard.createGradle .gradle language = .error (.unsupportedLanguage language) := by
  rw [createGradle, create, findModule, Language.ofName?_eq_none unknown]
  rfl

/-- The Gradle workshop of a language, however its name is spelled. -/
def gradleWorkshop (target : Language) : Workshop :=
  let ground := ground .gradle target.standardModule
  let handles := OrderedMap.ofList
    [("publishing", .publishing),
      ("components", ⟨"components", "SoftwareComponentContainer"⟩)]
  { kind := .gradle
    gradle := true
    ground := { ground with layer := { ground.layer with handles := handles } }
    generator := .standard target }

theorem createGradle_of_recognized {language : String} {target : Language}
    (spelled : foldedName language = target.name) :
    standard.createGradle .gradle language = .ok (gradleWorkshop target) := by
  have found : standard.findModule language = .ok target.standardModule := by
    rw [findModule, Language.ofName?_of_foldedName spelled, spelled]
    cases target <;> rfl
  rw [createGradle, create, found]
  cases target <;> rfl

theorem ready_newDraft (target : Language) :
    (gradleWorkshop target).newDraft.Ready .publishing [] [] :=
  ⟨⟨_, rfl, rfl⟩, rfl, rfl⟩

end Catalogue

end BuildScribe
