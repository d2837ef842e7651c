import BuildScribe.Text.Blank
import BuildScribe.Typing.Registry

/-!
# Target languages

A script is written in one of two languages, which are known by their names in any
letter case. A profile says what a language of one of them offers to code
generators.
-/

namespace BuildScribe

inductive LanguageFeature where
  | typeInference
  | smartCasts
  | extensionFunctions
  | operatorOverloading
  | nullableTypes
  | groovyClosures
  | gradlePlugins
deriving DecidableEq

namespace LanguageFeature

def all : List LanguageFeature :=
  [typeInference, smartCasts, extensionFunctions, operatorOverloading,
    nullableTypes, groovyClosures, gradlePlugins]

def name : LanguageFeature → String
  | typeInference => "TypeInference"
  | smartCasts => "SmartCasts"
  | extensionFunctions => "ExtensionFunctions"
  | operatorOverloading => "OperatorOverloading"
  | nullableTypes => "NullableTypes"
  | groovyClosures => "GroovyClosures"
  | gradlePlugins => "GradlePlugins"

end LanguageFeature

inductive Language where
  | kotlin
  | groovy
deriving DecidableEq

namespace Language

def all : List Language := [kotlin, groovy]

/-- The name under which the language is looked up. -/
def name : Language → String
  | kotlin => "kotlin"
  | groovy => "groovy"

def title : Language → String
  | kotlin => "Kotlin"
  | groovy => "Groovy"

/-- The language with a name, whatever its letter case and the blanks around
it. -/
def ofName? (text : String) : Option Language :=
  all.find? fun language => language.name == foldedName text

/-- The types that are known before any script is built. -/
def types : Language → TypeRegistry
  | kotlin => .standard
  | groovy =>
      TypeRegistry.standard.register (.simple "Object" "java.lang.Object" [])

end Language

/-- A language as it presents itself. Its title is for readers; what is written
goes by its family. -/
structure LanguageProfile where
  title : String
  family : Language
  /-- What the language offers, in the order of `LanguageFeature.all`. -/
  features : List LanguageFeature
deriving DecidableEq

namespace LanguageProfile

def supports (profile : LanguageProfile) (feature : LanguageFeature) : Bool :=
  profile.features.contains feature

def kotlin : LanguageProfile :=
  { title := Language.kotlin.title
    family := .kotlin
    features :=
      [.typeInference, .smartCasts, .extensionFunctions, .operatorOverloading,
        .nullableTypes] }

def groovy : LanguageProfile :=
  { title := Language.groovy.title
    family := .groovy
    features := [.typeInference, .groovyClosures, .gradlePlugins] }

end LanguageProfile

def Language.profile : Language → LanguageProfile
  | kotlin => .kotlin
  | groovy => .groovy

end BuildScribe
