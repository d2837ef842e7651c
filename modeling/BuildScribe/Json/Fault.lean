import BuildScribe.Json.Print
import BuildScribe.Text.Quoted

/-!
# Faults of a document

A document fails to be read for one cause, at one place in its structure and,
when it is read from text, at one position. The wording of every cause is in
this module.
-/

namespace BuildScribe

inductive PathStep where
  | key (name : String)
  | index (position : Nat)
  /-- A member whose key could not be read. -/
  | unreadKey
deriving DecidableEq

namespace PathStep

/-- The steps written one after the other; only names are set apart by points. -/
def joined (first : Bool) : List PathStep → String
  | [] => ""
  | step :: rest =>
      let separator := if first then "" else "."
      let written :=
        match step with
        | .key name => separator ++ name
        | .index position => "[" ++ toString position ++ "]"
        | .unreadKey => separator ++ "?"
      written ++ joined false rest

/-- The text of a path; a point stands for the whole document. -/
def pathText : List PathStep → String
  | [] => "."
  | steps => joined true steps

end PathStep

inductive TextFault where
  | endInValue
  | endInList
  | endInObject
  | endInString
  | expectedValue
  | expectedWord
  | expectedColon
  | expectedCommaOrBracket
  | expectedCommaOrBrace
  | keyNotString
  | trailingComma
  | trailingCharacters
  | invalidNumber
  | numberOutOfRange
  | invalidEscape
  | loneSurrogate
  | unfinishedSurrogatePair
  | controlCharacter
  | tooDeep
deriving DecidableEq

namespace TextFault

def message : TextFault → String
  | endInValue => "EOF while parsing a value"
  | endInList => "EOF while parsing a list"
  | endInObject => "EOF while parsing an object"
  | endInString => "EOF while parsing a string"
  | expectedValue => "expected value"
  | expectedWord => "expected ident"
  | expectedColon => "expected `:`"
  | expectedCommaOrBracket => "expected `,` or `]`"
  | expectedCommaOrBrace => "expected `,` or `\x7d`"
  | keyNotString => "key must be a string"
  | trailingComma => "trailing comma"
  | trailingCharacters => "trailing characters"
  | invalidNumber => "invalid number"
  | numberOutOfRange => "number out of range"
  | invalidEscape => "invalid escape"
  | loneSurrogate => "lone leading surrogate in hex escape"
  | unfinishedSurrogatePair => "unexpected end of hex escape"
  | controlCharacter =>
      "control character (\\u0000-\\u001F) found while parsing a string"
  | tooDeep => "recursion limit exceeded"

end TextFault

/-- What stands where something else was expected. -/
inductive Found where
  | null
  | boolean (value : Bool)
  | number (value : JsonNumber)
  | string (value : String)
  | list
  | object
  /-- A variant named by a bare string. -/
  | bareVariant
deriving DecidableEq

namespace Found

def text : Found → String
  | null => "null"
  | boolean value => "boolean `" ++ toString value ++ "`"
  | number (.integer value) => "integer `" ++ toString value ++ "`"
  | number (.double value) =>
      "floating point `" ++ NumeralStyle.json.text value ++ "`"
  | string value => "string " ++ quoted value
  | list => "sequence"
  | object => "map"
  | bareVariant => "unit variant"

def ofJson : Json → Found
  | .null => null
  | .bool value => boolean value
  | .number value => number value
  | .string value => string value
  | .array _ => list
  | .object _ => object

end Found

inductive ReadCause where
  | malformed (fault : TextFault)
  | wrongType (found : Found) (expected : String)
  | wrongValue (found : Found) (expected : String)
  | wrongLength (count : Nat) (expected : String)
  | unknownField (name : String) (known : List String)
  | unknownVariant (name : String) (known : List String)
  | missingField (name : String)
  | repeatedField (name : String)
  /-- None of the forms that the named choice may take. -/
  | noForm (choice : String)
deriving DecidableEq

namespace ReadCause

def alternatives : List String → String
  | [] => ""
  | [only] => "`" ++ only ++ "`"
  | [first, second] => "`" ++ first ++ "` or `" ++ second ++ "`"
  | names =>
      "one of " ++ String.intercalate ", " (names.map fun name => "`" ++ name ++ "`")

def message : ReadCause → String
  | malformed fault => fault.message
  | wrongType found expected =>
      "invalid type: " ++ found.text ++ ", expected " ++ expected
  | wrongValue found expected =>
      "invalid value: " ++ found.text ++ ", expected " ++ expected
  | wrongLength count expected =>
      "invalid length " ++ toString count ++ ", expected " ++ expected
  | unknownField name known =>
      "unknown field `" ++ name ++ "`, expected " ++ alternatives known
  | unknownVariant name known =>
      "unknown variant `" ++ name ++ "`, expected " ++ alternatives known
  | missingField name => "missing field `" ++ name ++ "`"
  | repeatedField name => "duplicate field `" ++ name ++ "`"
  | noForm choice => "data did not match any variant of untagged enum " ++ choice

end ReadCause

/-- A fault with its place in the structure and, once it is known, the number of
bytes of the text before it. -/
structure ReadFault where
  cause : ReadCause
  path : List PathStep := []
  offset : Option Nat := none
deriving DecidableEq

namespace ReadFault

/-- The fault seen from one level further out. -/
def under (step : PathStep) (fault : ReadFault) : ReadFault :=
  { fault with path := step :: fault.path }

/-- Places a fault that has no place in the text yet. -/
def placedAt (offset : Nat) (fault : ReadFault) : ReadFault :=
  { fault with offset := some (fault.offset.getD offset) }

end ReadFault

/-- A position in a text: lines count from one, columns count the bytes since
the last line feed. -/
structure TextPosition where
  line : Nat
  column : Nat
deriving DecidableEq

namespace TextPosition

/-- The position after the given number of bytes, where `before` counts the
bytes already passed. -/
def scan (offset : Nat) : List Char → (before : Nat) → TextPosition → TextPosition
  | [], before, position =>
      { position with column := position.column + (offset - before) }
  | c :: rest, before, position =>
      if offset ≤ before then
        position
      else if c == '\n' then
        scan offset rest (before + 1) ⟨position.line + 1, 0⟩
      else
        let size := min c.utf8Size (offset - before)
        scan offset rest (before + c.utf8Size)
          { position with column := position.column + size }

def ofOffset (text : List Char) (offset : Nat) : TextPosition :=
  scan offset text 0 ⟨1, 0⟩

def text (position : TextPosition) : String :=
  " at line " ++ toString position.line ++ " column " ++ toString position.column

end TextPosition

namespace ReadFault

/-- The cause, followed by the position when the fault has one in the text. -/
def causeText (source : List Char) (fault : ReadFault) : String :=
  match fault.offset with
  | none => fault.cause.message
  | some offset =>
      fault.cause.message ++ (TextPosition.ofOffset source offset).text

end ReadFault

end BuildScribe
