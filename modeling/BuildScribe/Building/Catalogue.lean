import BuildScribe.Building.Workshop

/-!
# Catalogues

A catalogue holds the factories by kind and the modules of target languages by family
and name, and sets up workshops from them. Registering again replaces what was
registered before and keeps its place.
-/

namespace BuildScribe

structure LanguageModule where
  language : LanguageProfile
  types : TypeRegistry
  generator : Generator

def Language.standardModule (language : Language) : LanguageModule :=
  ⟨language.profile, language.types, .language language⟩

/-- Factories and language modules. -/
structure Catalogue where
  factories : OrderedMap BuildKind Factory
  modules : OrderedMap Language (OrderedMap String LanguageModule)

namespace Catalogue

def empty : Catalogue :=
  ⟨.empty, .empty⟩

def registerFactory (catalogue : Catalogue) (factory : Factory) : Catalogue :=
  { catalogue with
    factories := catalogue.factories.insert factory.kind factory }

/-- The modules of a language family by their names. -/
def modulesOf (catalogue : Catalogue) (family : Language) :
    OrderedMap String LanguageModule :=
  (catalogue.modules.get? family).getD .empty

/-- Enters a module under a name, among the modules of a language family. -/
def enterModule (catalogue : Catalogue) (family : Language) (name : String)
    (languageModule : LanguageModule) : Catalogue :=
  { catalogue with
    modules :=
      catalogue.modules.insert family
        ((catalogue.modulesOf family).insert name languageModule) }

/-- Registers a module under the name of a target language. -/
def registerModule (catalogue : Catalogue) (name : String)
    (languageModule : LanguageModule) : Except Failure Catalogue :=
  match Language.ofName? name with
  | none => .error (.unsupportedLanguage name)
  | some family =>
      .ok (catalogue.enterModule family (foldedName name) languageModule)

/-- The catalogue of Gradle and of all languages. -/
def standard : Catalogue :=
  Language.all.foldl
    (fun catalogue language =>
      catalogue.enterModule language language.name language.standardModule)
    (empty.registerFactory .gradle)

def findModule (catalogue : Catalogue) (name : String) :
    Except Failure LanguageModule :=
  match Language.ofName? name with
  | none => .error (.unsupportedLanguage name)
  | some family =>
      match (catalogue.modulesOf family).get? (foldedName name) with
      | some found => .ok found
      | none => .error (.configuration (.languageModule name))

def ground (kind : BuildKind) (languageModule : LanguageModule) : Ground :=
  { language := some languageModule.language
    types := some languageModule.types
    generator := some languageModule.generator
    layer := { scope := some (.fresh kind.name), imports := some [] } }

def create (catalogue : Catalogue) (kind : BuildKind) (language : String) :
    Except Failure Workshop :=
  match catalogue.factories.get? kind with
  | none => .error (.configuration (.factory kind.name))
  | some factory => do factory.assemble (ground kind (← catalogue.findModule language))

def createGradle (catalogue : Catalogue) (kind : BuildKind) (language : String) :
    Except Failure Workshop := do
  let workshop ← catalogue.create kind language
  if workshop.gradle then
    pure workshop
  else
    .error (.configuration (.gradleProduct kind.name))

def kinds (catalogue : Catalogue) : List BuildKind :=
  catalogue.factories.keys

/-- The names of all modules, family by family. -/
def moduleNames (catalogue : Catalogue) : List String :=
  catalogue.modules.values.flatMap (·.keys)

def languages (catalogue : Catalogue) : List LanguageProfile :=
  catalogue.modules.values.flatMap fun modules => modules.values.map (·.language)

def debugText (catalogue : Catalogue) : String :=
  "DslManager \x7b factories: [" ++
    String.intercalate ", " (catalogue.kinds.map (·.title)) ++
    "], modules: [" ++
    String.intercalate ", " (catalogue.moduleNames.map quoted) ++ "] \x7d"

end Catalogue

end BuildScribe
