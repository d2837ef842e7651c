import BuildScribe.Proofs.Building.Catalogue
import BuildScribe.Proofs.OrderedMap
import Mathlib.Data.List.Nodup

/-!
# Registration

Factories and language modules are registered in a catalogue in any order, and registrations
under unknown names are refused. A family of languages has modules under one name only, its
own, since every recognized spelling folds to it: the maps of a catalogue come to one slot for
each kind and one for each language. A slot keeps what was registered for it last; the names
stand in the order in which their slots were filled first.
-/

namespace BuildScribe

/-- What happens to a catalogue. -/
inductive CatalogueEvent where
  | factory (entered : Factory)
  | registered (name : String) (languageModule : LanguageModule)
  | refused (name : String) (languageModule : LanguageModule)

namespace CatalogueEvent

/-- The factory that a kind gets. -/
def factoryFor? (kind : BuildKind) : CatalogueEvent → Option Factory
  | factory entered => if entered.kind = kind then some entered else none
  | registered .. | refused .. => none

/-- The module that a language gets, under whatever spelling of its name. -/
def moduleFor? (language : Language) : CatalogueEvent → Option LanguageModule
  | registered name languageModule =>
      if foldedName name = language.name then some languageModule else none
  | factory _ | refused .. => none

/-- The language that gets a module. -/
def language? : CatalogueEvent → Option Language
  | registered name _ => Language.ofName? name
  | factory _ | refused .. => none

def isRefused : CatalogueEvent → Bool
  | refused .. => true
  | factory _ | registered .. => false

/-- The slot that is filled, by its kind, with its factory. -/
def factorySlot? : CatalogueEvent → Option (BuildKind × Factory)
  | factory entered => some (entered.kind, entered)
  | registered .. | refused .. => none

/-- The slot that is filled, by its language, with its module. -/
def moduleSlot? : CatalogueEvent → Option (Language × LanguageModule)
  | registered name languageModule =>
      (Language.ofName? name).map fun language => (language, languageModule)
  | factory _ | refused .. => none

theorem factoryFor?_eq (kind : BuildKind) :
    factoryFor? kind = fun event => event.factorySlot?.bind (OrderedMap.valueFor? kind) := by
  funext event
  cases event <;> rfl

theorem moduleFor?_eq (language : Language) :
    moduleFor? language =
      fun event => event.moduleSlot?.bind (OrderedMap.valueFor? language) := by
  funext event
  cases event with
  | registered name languageModule =>
      apply Option.ext
      intro found
      simp only [moduleFor?, moduleSlot?, Option.ite_none_right_eq_some,
        Option.bind_eq_some_iff, Option.map_eq_some_iff, OrderedMap.valueFor?_eq_some_iff,
        ← Language.ofName?_eq_some_iff]
      constructor
      · intro registers
        obtain ⟨recognized, isFound⟩ := registers
        cases isFound
        exact ⟨_, ⟨language, recognized, rfl⟩, rfl⟩
      · intro fills
        obtain ⟨slot, ⟨other, recognized, isSlot⟩, isFound⟩ := fills
        cases isSlot.trans isFound
        exact ⟨recognized, rfl⟩
  | _ => rfl

theorem language?_eq (event : CatalogueEvent) :
    event.language? = event.moduleSlot?.map (·.1) := by
  cases event with
  | registered name languageModule =>
      rw [language?, moduleSlot?, Option.map_map]
      exact Option.map_id'.symm
  | _ => rfl

end CatalogueEvent

namespace Catalogue

variable {catalogue start after : Catalogue} {past before : List CatalogueEvent}
  {event : CatalogueEvent} {name : String} {languageModule : LanguageModule}

/-- The registrations in a catalogue. -/
inductive Next : Catalogue → CatalogueEvent → Catalogue → Prop where
  | factory {catalogue : Catalogue} (entered : Factory) :
      Next catalogue (.factory entered) (catalogue.registerFactory entered)
  | registered {catalogue after : Catalogue} {name : String}
      {languageModule : LanguageModule} :
      catalogue.registerModule name languageModule = .ok after →
        Next catalogue (.registered name languageModule) after
  | refused {catalogue : Catalogue} {name : String} {languageModule : LanguageModule}
      {failure : Failure} :
      catalogue.registerModule name languageModule = .error failure →
        Next catalogue (.refused name languageModule) catalogue

/-- The modules of a language: one, under the name of the language. -/
def only (language : Language) (languageModule : LanguageModule) :
    OrderedMap String LanguageModule :=
  ⟨[(language.name, languageModule)]⟩

/-- What the kinds have got. -/
def factorySlots (past : List CatalogueEvent) : OrderedMap BuildKind Factory :=
  .ofList (past.filterMap CatalogueEvent.factorySlot?)

/-- What the languages have got. -/
def moduleSlots (past : List CatalogueEvent) : OrderedMap Language LanguageModule :=
  .ofList (past.filterMap CatalogueEvent.moduleSlot?)

theorem get?_factorySlots (past : List CatalogueEvent) (kind : BuildKind) :
    (factorySlots past).get? kind = mostRecent? (CatalogueEvent.factoryFor? kind) past := by
  rw [CatalogueEvent.factoryFor?_eq, ← mostRecent?_filterMap]
  exact (OrderedMap.get?_insertAll .empty _ kind).trans Option.or_none

theorem get?_moduleSlots (past : List CatalogueEvent) (language : Language) :
    (moduleSlots past).get? language =
      mostRecent? (CatalogueEvent.moduleFor? language) past := by
  rw [CatalogueEvent.moduleFor?_eq, ← mostRecent?_filterMap]
  exact (OrderedMap.get?_insertAll .empty _ language).trans Option.or_none

theorem factorySlots_factory (past : List CatalogueEvent) (entered : Factory) :
    factorySlots (past ++ [.factory entered]) =
      (factorySlots past).insert entered.kind entered := by
  rw [factorySlots, filterMap_concat]
  exact OrderedMap.ofList_concat _ (entered.kind, entered)

theorem moduleSlots_registered {language : Language}
    (recognized : Language.ofName? name = some language) (past : List CatalogueEvent)
    (languageModule : LanguageModule) :
    moduleSlots (past ++ [.registered name languageModule]) =
      (moduleSlots past).insert language languageModule := by
  rw [moduleSlots, filterMap_concat, CatalogueEvent.moduleSlot?, recognized]
  exact OrderedMap.ofList_concat _ (language, languageModule)

theorem keys_moduleSlots (past : List CatalogueEvent) :
    (moduleSlots past).keys = (past.filterMap CatalogueEvent.language?).eraseDups := by
  rw [moduleSlots, OrderedMap.keys_ofList, List.map_filterMap]
  congr 2
  funext event
  exact (event.language?_eq).symm

/-- A catalogue that holds in its slots what its history says. -/
structure Recorded (past : List CatalogueEvent) (catalogue : Catalogue) : Prop where
  factories : catalogue.factories = factorySlots past
  modules : catalogue.modules = (moduleSlots past).mapValues only

theorem registerModule_eq_ok_iff :
    catalogue.registerModule name languageModule = .ok after ↔
      ∃ language, Language.ofName? name = some language ∧
        after = catalogue.enterModule language (foldedName name) languageModule := by
  rw [registerModule]
  cases recognized : Language.ofName? name with
  | none => simp
  | some language => simp [eq_comm]

theorem registerModule_eq_error_iff {failure : Failure} :
    catalogue.registerModule name languageModule = .error failure ↔
      failure = .unsupportedLanguage name ∧
        ∀ language : Language, foldedName name ≠ language.name := by
  rw [registerModule]
  by_cases known : ∃ language : Language, foldedName name = language.name
  · obtain ⟨language, spelled⟩ := known
    rw [Language.ofName?_of_foldedName spelled]
    simp [spelled]
  · rw [not_exists] at known
    rw [Language.ofName?_eq_none known]
    simp [known, eq_comm]

namespace Recorded

variable (recorded : Recorded past catalogue)
include recorded

theorem modulesOf_eq (language : Language) :
    catalogue.modulesOf language =
      ((mostRecent? (CatalogueEvent.moduleFor? language) past).map (only language)).getD
        .empty := by
  rw [modulesOf, recorded.modules, OrderedMap.get?_mapValues, get?_moduleSlots]

/-- A module takes the place of the one before. -/
theorem insert_modulesOf (language : Language) (languageModule : LanguageModule) :
    (catalogue.modulesOf language).insert language.name languageModule =
      only language languageModule := by
  rw [recorded.modulesOf_eq]
  cases mostRecent? (CatalogueEvent.moduleFor? language) past with
  | none => rfl
  | some earlier => simp [only, OrderedMap.insert, OrderedMap.insertEntry]

theorem next (next : Next catalogue event after) : Recorded (past ++ [event]) after := by
  cases next with
  | factory entered =>
      refine ⟨?_, ?_⟩
      · rw [factorySlots_factory, registerFactory, recorded.factories]
      · rw [moduleSlots, filterMap_concat_of_none rfl]
        exact recorded.modules
  | @registered _ name languageModule registers =>
      obtain ⟨language, recognized, rfl⟩ := registerModule_eq_ok_iff.mp registers
      refine ⟨?_, ?_⟩
      · rw [factorySlots, filterMap_concat_of_none rfl]
        exact recorded.factories
      · -- The spelling folds to the name of the language, under which alone modules stand.
        rw [enterModule, Language.ofName?_eq_some_iff.mp recognized,
          recorded.insert_modulesOf, recorded.modules, ← OrderedMap.mapValues_insert,
          moduleSlots_registered recognized]
  | refused _ =>
      refine ⟨?_, ?_⟩
      · rw [factorySlots, filterMap_concat_of_none rfl]
        exact recorded.factories
      · rw [moduleSlots, filterMap_concat_of_none rfl]
        exact recorded.modules

theorem moduleNames_eq :
    catalogue.moduleNames =
      ((past.filterMap CatalogueEvent.language?).eraseDups).map Language.name := by
  rw [moduleNames, recorded.modules, OrderedMap.values_mapValues, List.flatMap_map,
    ← keys_moduleSlots, OrderedMap.keys, List.map_map, List.map_eq_flatMap]
  rfl

theorem findModule_of_found {language : Language} (spelled : foldedName name = language.name)
    (found : mostRecent? (CatalogueEvent.moduleFor? language) past = some languageModule) :
    catalogue.findModule name = .ok languageModule := by
  have held : (only language languageModule).get? language.name = some languageModule := by
    simp [only, OrderedMap.get?]
  rw [findModule, Language.ofName?_of_foldedName spelled, spelled]
  simp only [recorded.modulesOf_eq, found, Option.map_some, Option.getD_some, held]

theorem findModule_of_missing {language : Language}
    (spelled : foldedName name = language.name)
    (missing : mostRecent? (CatalogueEvent.moduleFor? language) past = none) :
    catalogue.findModule name = .error (.configuration (.languageModule name)) := by
  rw [findModule, Language.ofName?_of_foldedName spelled]
  simp only [recorded.modulesOf_eq, missing, Option.map_none, Option.getD_none]
  rfl

end Recorded

theorem recorded_empty : Recorded [] .empty :=
  ⟨rfl, rfl⟩

/-- What has been registered in the standard catalogue. -/
def standardHistory : List CatalogueEvent :=
  .factory .gradle ::
    Language.all.map fun language => .registered language.name language.standardModule

theorem run_standard : Run Next .empty standardHistory .standard := by
  have registers (catalogue : Catalogue) (language : Language) :
      catalogue.registerModule language.name language.standardModule =
        .ok (catalogue.enterModule language language.name language.standardModule) := by
    rw [registerModule_eq_ok_iff, language.foldedName_name]
    exact ⟨language, Language.ofName?_of_foldedName language.foldedName_name, rfl⟩
  exact .step (.factory .gradle) (.step (.registered (registers _ .kotlin))
    (.step (.registered (registers _ .groovy)) (.done _)))

/-- The catalogues that registrations start from, with their histories. -/
inductive Starts : Catalogue → List CatalogueEvent → Prop where
  | empty : Starts .empty []
  | standard : Starts .standard standardHistory

theorem recorded_of_run (starts : Starts start before) (run : Run Next start past catalogue) :
    Recorded (before ++ past) catalogue := by
  have begun : Recorded before start := by
    cases starts with
    | empty => exact recorded_empty
    | standard => exact run_standard.invariant recorded_empty fun recorded => recorded.next
  exact run.keeps (fun recorded next => recorded.next next) begun

theorem Next.eq_of_refused (next : Next catalogue event after)
    (refused : event.isRefused = true) : after = catalogue := by
  cases next with
  | refused => rfl
  | _ => cases refused

/-- A catalogue that answers from its history. -/
structure AnswersFrom (past : List CatalogueEvent) (catalogue : Catalogue) : Prop where
  /-- The names are those of languages, in the order in which these first got a module. -/
  names : catalogue.moduleNames =
    ((past.filterMap CatalogueEvent.language?).eraseDups).map Language.name
  distinct : catalogue.moduleNames.Nodup
  lowercase : ∀ name ∈ catalogue.moduleNames,
    foldedName name = name ∧ ∃ language : Language, name = language.name
  unsupported : ∀ name, catalogue.findModule name = .error (.unsupportedLanguage name) ↔
    ∀ language : Language, foldedName name ≠ language.name
  /-- A module is found under any spelling of its language, the most recent one. -/
  found : ∀ name (language : Language) languageModule, foldedName name = language.name →
    mostRecent? (CatalogueEvent.moduleFor? language) past = some languageModule →
      catalogue.findModule name = .ok languageModule
  missing : ∀ name (language : Language), foldedName name = language.name →
    mostRecent? (CatalogueEvent.moduleFor? language) past = none →
      catalogue.findModule name = .error (.configuration (.languageModule name))
  /-- Without a factory of the kind the language does not matter. -/
  withoutFactory : ∀ kind name,
    mostRecent? (CatalogueEvent.factoryFor? kind) past = none →
      catalogue.create kind name = .error (.configuration (.factory kind.name))
  withoutModule : ∀ kind name factory failure,
    mostRecent? (CatalogueEvent.factoryFor? kind) past = some factory →
    catalogue.findModule name = .error failure →
      catalogue.create kind name = .error failure
  /-- The most recent factory of the kind gets a ground with the language, the types and the
  generator of the module, a fresh scope and no imports. -/
  created : ∀ kind name factory languageModule,
    mostRecent? (CatalogueEvent.factoryFor? kind) past = some factory →
    catalogue.findModule name = .ok languageModule →
      catalogue.create kind name = factory.assemble
        { language := some languageModule.language
          types := some languageModule.types
          generator := some languageModule.generator
          layer := { scope := some (.fresh kind.name), imports := some [] } }
  refusals : ∀ name languageModule failure,
    catalogue.registerModule name languageModule = .error failure ↔
      failure = .unsupportedLanguage name ∧
        ∀ language : Language, foldedName name ≠ language.name

theorem Recorded.answersFrom (recorded : Recorded past catalogue) :
    AnswersFrom past catalogue := by
  have factory?_eq (kind : BuildKind) : catalogue.factories.get? kind =
      mostRecent? (CatalogueEvent.factoryFor? kind) past := by
    rw [recorded.factories, get?_factorySlots]
  refine {
    names := recorded.moduleNames_eq
    distinct := ?_
    lowercase := ?_
    unsupported := ?_
    found := fun _ _ _ => recorded.findModule_of_found
    missing := fun _ _ => recorded.findModule_of_missing
    withoutFactory := ?_
    withoutModule := ?_
    created := ?_
    refusals := fun _ _ _ => registerModule_eq_error_iff }
  · rw [recorded.moduleNames_eq, ← keys_moduleSlots]
    exact (OrderedMap.nodup_keys_ofList _).map Language.name_injective
  · intro name isName
    rw [recorded.moduleNames_eq] at isName
    obtain ⟨language, _, rfl⟩ := List.mem_map.mp isName
    exact ⟨language.foldedName_name, language, rfl⟩
  · intro name
    constructor
    · intro refuses language spelled
      cases found : mostRecent? (CatalogueEvent.moduleFor? language) past with
      | none => cases (recorded.findModule_of_missing spelled found).symm.trans refuses
      | some languageModule =>
          cases (recorded.findModule_of_found spelled found).symm.trans refuses
    · intro unknown
      rw [findModule, Language.ofName?_eq_none unknown]
  · intro kind name none
    rw [create, factory?_eq, none]
  · intro kind name factory failure isFactory refuses
    rw [create, factory?_eq, isFactory]
    simp only [refuses]
    rfl
  · intro kind name factory languageModule isFactory found
    rw [create, factory?_eq, isFactory]
    simp only [found]
    rfl

/-- After every run of registrations, from nothing or from the standard catalogue, a catalogue
answers from its whole history, and as if no refused registration had been tried. -/
theorem answersFrom_of_run (starts : Starts start before)
    (run : Run Next start past catalogue) :
    AnswersFrom (before ++ past) catalogue ∧
      Run Next start (past.filter (!·.isRefused)) catalogue :=
  ⟨(recorded_of_run starts run).answersFrom,
    run.without CatalogueEvent.isRefused Next.eq_of_refused⟩

/-- The Groovy module of the standard catalogue gives way to another one under a spelling of
its own. No kind but Gradle has a factory, whatever the language. -/
theorem answersFrom_of_another_spelling :
    let other : LanguageModule := { Language.groovy.standardModule with types := .standard }
    ∃ catalogue,
      Run Next .standard [.refused "scala" other, .registered " GROOVY " other] catalogue ∧
        catalogue.moduleNames = ["kotlin", "groovy"] ∧
        catalogue.findModule "Groovy" = .ok other ∧
        catalogue.create .maven "cobol" = .error (.configuration (.factory "maven")) ∧
        catalogue.create .gradle "cobol" = .error (.unsupportedLanguage "cobol") ∧
        Run Next .standard [.registered " GROOVY " other] catalogue := by
  intro other
  have run : Run Next .standard
      [.refused "scala" other, .registered " GROOVY " other] _ :=
    .step (.refused rfl) (.step (.registered rfl) (.done _))
  obtain ⟨answers, withoutRefused⟩ := answersFrom_of_run .standard run
  have unsupported := (answers.unsupported "cobol").mpr fun language => by
    cases language <;> decide
  refine ⟨_, run, answers.names, ?_, ?_, ?_, withoutRefused⟩
  · exact answers.found "Groovy" .groovy other (by decide) rfl
  · exact answers.withoutFactory .maven "cobol" rfl
  · exact answers.withoutModule .gradle "cobol" .gradle _ rfl unsupported

end Catalogue

end BuildScribe
