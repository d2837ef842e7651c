import BuildScribe.Json.Basic
import BuildScribe.Number.Numeral

/-!
# JSON text

`Json.compact` writes a value without any blanks. Strings escape quotes,
backslashes and control characters; every other character stands as it is.
-/

namespace BuildScribe

def jsonChar (c : Char) : List Char :=
  if c == '"' then ['\\', '"']
  else if c == '\\' then ['\\', '\\']
  else if c == '\n' then ['\\', 'n']
  else if c == '\r' then ['\\', 'r']
  else if c == '\t' then ['\\', 't']
  else if c.toNat == 8 then ['\\', 'b']
  else if c.toNat == 12 then ['\\', 'f']
  else if c.toNat < 16 then
    '\\' :: 'u' :: '0' :: '0' :: '0' :: Nat.toDigits 16 c.toNat
  else if c.toNat < 32 then '\\' :: 'u' :: '0' :: '0' :: Nat.toDigits 16 c.toNat
  else [c]

def jsonString (text : String) : List Char :=
  '"' :: (text.toList.flatMap jsonChar ++ ['"'])

/-- The text of a number: integers in full, doubles as the shortest decimal. -/
def JsonNumber.text : JsonNumber → String
  | integer value => toString value
  | double value => NumeralStyle.json.text value

namespace Json

mutual

def compactChars : Json → List Char
  | null => "null".toList
  | bool true => "true".toList
  | bool false => "false".toList
  | number value => value.text.toList
  | string value => jsonString value
  | array items => '[' :: compactItems items
  | object members => '\x7b' :: compactMembers members

/-- The elements of a list up to and with its closing bracket. -/
def compactItems : List Json → List Char
  | [] => [']']
  | [item] => item.compactChars ++ [']']
  | item :: next :: rest =>
      item.compactChars ++ ',' :: compactItems (next :: rest)

/-- The members of an object up to and with its closing brace. -/
def compactMembers : List (String × Json) → List Char
  | [] => ['\x7d']
  | [(key, value)] => jsonString key ++ ':' :: (value.compactChars ++ ['\x7d'])
  | (key, value) :: next :: rest =>
      jsonString key ++ ':' :: (value.compactChars ++
        ',' :: compactMembers (next :: rest))

end

def compact (value : Json) : String :=
  String.ofList value.compactChars

end Json

end BuildScribe
