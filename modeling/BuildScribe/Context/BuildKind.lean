import BuildScribe.Failure
import BuildScribe.Text.Blank

/-!
# Kinds of build languages
-/

namespace BuildScribe

/-- A family of build languages. -/
inductive BuildKind where
  | gradle
  | maven
  | custom
deriving DecidableEq

namespace BuildKind

def all : List BuildKind := [gradle, maven, custom]

def name : BuildKind → String
  | gradle => "gradle"
  | maven => "maven"
  | custom => "custom"

def title : BuildKind → String
  | gradle => "Gradle"
  | maven => "Maven"
  | custom => "Custom"

/-- The kind with a name, whatever its letter case and the blanks around it. -/
def ofName (text : String) : Except Failure BuildKind :=
  match all.find? fun kind => kind.name == foldedName text with
  | some kind => .ok kind
  | none => .error (.configuration (.knownKind text))

end BuildKind

end BuildScribe
