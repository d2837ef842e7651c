import BuildScribe.Target.Language
import BuildScribe.Tree.Node

/-!
# Spelling

How names, strings, references and types are written in each target language. A
name that is no plain identifier is quoted: in Kotlin between backticks, in
Groovy as a string behind a receiver.
-/

namespace BuildScribe

def isIdentifierStart (c : Char) : Bool :=
  ('A' ≤ c && c ≤ 'Z') || ('a' ≤ c && c ≤ 'z') || c == '_'

def isIdentifierPart (c : Char) : Bool :=
  isIdentifierStart c || ('0' ≤ c && c ≤ '9')

/-- Whether a name is a plain identifier of ASCII letters, digits and
underscores. -/
def isIdentifierChars : List Char → Bool
  | [] => false
  | first :: rest => isIdentifierStart first && rest.all isIdentifierPart

def isIdentifier (name : String) : Bool :=
  isIdentifierChars name.toList

namespace Language

def quote : Language → Char
  | kotlin => '"'
  | groovy => '\''

/-- One character inside a string literal. Line breaks and tabs are escaped, and in
Kotlin also the dollar sign, which starts a template. -/
def literalChar (language : Language) (c : Char) : List Char :=
  if c == '\\' then ['\\', '\\']
  else if c == language.quote then ['\\', c]
  else if c == '$' && language == kotlin then ['\\', '$']
  else if c == '\n' then ['\\', 'n']
  else if c == '\r' then ['\\', 'r']
  else if c == '\t' then ['\\', 't']
  else [c]

def literalChars (language : Language) (value : List Char) : List Char :=
  language.quote :: (value.flatMap language.literalChar ++ [language.quote])

def stringLiteral (language : Language) (value : String) : String :=
  String.ofList (language.literalChars value.toList)

/-- Strings become string literals, all other values are written plainly. -/
def literalText (language : Language) : LiteralValue → String
  | .string value => language.stringLiteral value
  | value => value.plainText

/-- A name between backticks unless it is a plain identifier. -/
def backtickedName (name : String) : String :=
  if isIdentifier name then name else "`" ++ name ++ "`"

/-- A name behind a receiver: a string literal unless it is a plain identifier. -/
def propertyName (name : String) : String :=
  if isIdentifier name then name else groovy.stringLiteral name

/-- The names of a reference as they are written. A Groovy reference that starts
with a quoted name reads it off `this`. -/
def referenceParts : Language → List String → List String
  | kotlin, segments => segments.map backtickedName
  | groovy, segments =>
      let parts := segments.map propertyName
      match segments with
      | [] => parts
      | first :: _ => if isIdentifier first then parts else "this" :: parts

def referenceText (language : Language) (reference : Reference) : String :=
  String.intercalate "." (language.referenceParts reference.segments)

/-- A type by its short name. Groovy types have no nullability, so its mark is left
out at every level. -/
def typeText : Language → ScriptType → String
  | kotlin, type => type.name
  | groovy, type => type.textBy (fun short _ => short) ""

def writesModifier : Language → Modifier → Bool
  | kotlin, modifier => modifier != .val && modifier != .var
  | groovy, modifier =>
      [.publicAccess, .privateAccess, .protectedAccess, .abstractMember,
        .final].contains modifier

/-- The modifiers of a declaration, each with a blank behind it. -/
def modifierText (language : Language) (modifiers : ModifierSet) : String :=
  String.join
    ((modifiers.members.filter language.writesModifier).map (·.keyword ++ " "))

end Language

end BuildScribe
