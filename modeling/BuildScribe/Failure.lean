import BuildScribe.Json.Fault

/-!
# Failures

What can go wrong between a description and a script. A `Failure` names its
cause; the wording of every cause is in this module.
-/

namespace BuildScribe

/-- Something that has to be set up first and is not. -/
inductive MissingSetup where
  /-- No scope to declare names in. -/
  | scope (kind : String)
  | language
  | generator
  /-- A kind of build language that does not exist. -/
  | knownKind (name : String)
  | factory (kind : String)
  | languageModule (name : String)
  /-- A factory that makes something else than Gradle workshops. -/
  | gradleProduct (kind : String)
  /-- No reference to publications that could be signed. -/
  | publishing
deriving DecidableEq

namespace MissingSetup

def message : MissingSetup → String
  | scope kind => kind ++ " context has no current scope"
  | language => "gradle context has no language"
  | generator => "gradle context has no code generator"
  | knownKind name => "unknown DSL kind `" ++ name ++ "`"
  | factory kind => "no DSL factory registered for `" ++ kind ++ "`"
  | languageModule name => "no language module registered for `" ++ name ++ "`"
  | gradleProduct kind =>
      "factory for `" ++ kind ++ "` does not produce polydsl::gradle::GradleDsl"
  | publishing => "signing requires a `publishing` reference"

end MissingSetup

/-- Why a description is no description. -/
inductive InputFault where
  | unreadable (path : List PathStep) (cause : ReadCause)
      (position : Option TextPosition)
  /-- A value that is neither a scalar nor a reference, shown as JSON. -/
  | noScalar (shown : String)
deriving DecidableEq

namespace InputFault

def ofText (text : String) (fault : ReadFault) : InputFault :=
  .unreadable fault.path fault.cause
    (fault.offset.map (TextPosition.ofOffset text.toList))

def ofJson (fault : ReadFault) : InputFault :=
  .unreadable fault.path fault.cause none

def message : InputFault → String
  | unreadable path cause position =>
      "at JSON path " ++ PathStep.pathText path ++ " → " ++ cause.message ++
        (position.map TextPosition.text).getD ""
  | noScalar shown => "expected a scalar or a reference, found " ++ shown

end InputFault

/-- Why no script comes out. -/
inductive Failure where
  | configuration (missing : MissingSetup)
  | unsupportedLanguage (name : String)
  | duplicateSymbol (name scope : String)
  | unrenderable (generator node : String)
  | input (fault : InputFault)
deriving DecidableEq

namespace Failure

def message : Failure → String
  | configuration missing => "configuration error: " ++ missing.message
  | unsupportedLanguage name => "unsupported language: " ++ name
  | duplicateSymbol name scope =>
      "symbol `" ++ name ++ "` already defined in scope `" ++ scope ++ "`"
  | unrenderable generator node =>
      "generator `" ++ generator ++ "` cannot render node `" ++ node ++ "`"
  | input fault => "invalid input: " ++ fault.message

end Failure

end BuildScribe
