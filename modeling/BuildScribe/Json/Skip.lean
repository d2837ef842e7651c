import BuildScribe.Json.Reader

/-!
# Skipped values

The value of a field that nobody asks for is skipped: its brackets, commas,
words and escapes are checked, but its nesting is not bounded, its numbers are
not evaluated and its surrogates need no partners.
-/

namespace BuildScribe

inductive Enclosure where
  | list
  | object
deriving DecidableEq

namespace Enclosure

def closing : Enclosure → Char
  | list => ']'
  | object => '\x7d'

def endFault : Enclosure → TextFault
  | list => .endInList
  | object => .endInObject

/-- The fault of a text that goes on after an element without a comma. -/
def separatorFault : Enclosure → TextFault
  | list => .expectedCommaOrBracket
  | object => .expectedCommaOrBrace

end Enclosure

def skipEscape (cursor : Cursor) : Except TokenFault Cursor :=
  match cursor.rest with
  | [] => .error (.endInString, cursor.offset)
  | c :: rest =>
      if (simpleEscape? c).isSome then
        .ok ⟨rest, cursor.offset + 1⟩
      else if c == 'u' then
        (fourHexDigits ⟨rest, cursor.offset + 1⟩).map (·.2)
      else
        .error (.invalidEscape, cursor.offset + 1)

/-- Passes a string behind its opening quote. -/
def skipStringTail : (steps : Nat) → Cursor → Except TokenFault Cursor
  | 0, cursor => .error (.endInString, cursor.offset)
  | steps + 1, cursor =>
      match cursor.rest with
      | [] => .error (.endInString, cursor.offset)
      | c :: rest =>
          if c == '"' then
            .ok ⟨rest, cursor.offset + 1⟩
          else if c == '\\' then
            match skipEscape ⟨rest, cursor.offset + 1⟩ with
            | .ok next => skipStringTail steps next
            | .error fault => .error fault
          else if c.toNat < 0x20 then
            .error (.controlCharacter, cursor.offset)
          else
            skipStringTail steps ⟨rest, cursor.offset + c.utf8Size⟩

namespace Reading

def skipString : Reading Unit := do
  advance
  fun cursor =>
    match skipStringTail (cursor.rest.length + 1) cursor with
    | .ok next => .ok () next
    | .error (fault, offset) =>
        .error ⟨.malformed fault, [], some offset⟩ cursor

/-- Passes the exponent of a number, whose letter is next. -/
def skipExponent : Reading Unit := do
  advance
  let sign ← peek
  if sign == some '+' || sign == some '-' then
    advance
  match ← peek with
  | none => failHere .invalidNumber
  | some c =>
      if isDigit c then
        let _ ← takeAscii isDigit
      else
        failAfter 1 .invalidNumber

def skipNumberTail : Reading Unit := do
  if (← peek) == some '.' then
    advance
    let digits ← takeAscii isDigit
    if digits.isEmpty then
      failNext .invalidNumber
  let next ← peek
  if next == some 'e' || next == some 'E' then
    skipExponent

def skipNumber : Reading Unit := do
  if (← peek) == some '-' then
    advance
  match ← peek with
  | none => failHere .invalidNumber
  | some c =>
      if c == '0' then
        advance
        match ← peek with
        | some next =>
            if isDigit next then failNext .invalidNumber else skipNumberTail
        | none => pure ()
      else if isDigit c then
        let _ ← takeAscii isDigit
        skipNumberTail
      else
        failAfter 1 .invalidNumber

/-- How a value that is neither a list nor an object is passed, by its first
character. -/
def skipScalar? (c : Char) : Option (Reading Unit) :=
  if c == 'n' then some (wholeWord ['u', 'l', 'l'])
  else if c == 't' then some (wholeWord ['r', 'u', 'e'])
  else if c == 'f' then some (wholeWord ['a', 'l', 's', 'e'])
  else if c == '-' || isDigit c then some skipNumber
  else if c == '"' then some skipString
  else none

/-- Passes what precedes the next value inside a container: in an object its key
and the colon. -/
def skipKey : Enclosure → Reading Unit
  | .list => pure ()
  | .object => do
      skipBlanks
      match ← peek with
      | none => failNext .endInObject
      | some c =>
          if c == '"' then
            skipString
            colon
          else
            failNext .keyNotString

mutual

/-- Passes the next value and then everything up to the end of the outermost
enclosing container. -/
def skipInside : (steps : Nat) → List Enclosure → Reading Unit
  | 0, _ => failNext .endInValue
  | steps + 1, enclosures => do
      skipBlanks
      match ← peek with
      | none => failNext .endInValue
      | some c =>
          match skipScalar? c with
          | some scalar =>
              scalar
              skipBehind steps enclosures true
          | none =>
              if c == '[' then
                advance
                skipBehind steps (.list :: enclosures) false
              else if c == '\x7b' then
                advance
                skipBehind steps (.object :: enclosures) false
              else
                failNext .expectedValue

/-- Goes on behind an element, or behind an opening bracket when no comma may
follow. -/
def skipBehind : (steps : Nat) → List Enclosure → (afterElement : Bool) →
    Reading Unit
  | 0, _, _ => failNext .endInValue
  | _ + 1, [], _ => pure ()
  | steps + 1, enclosure :: outer, afterElement => do
      skipBlanks
      match ← peek with
      | none => failNext enclosure.endFault
      | some c =>
          if c == enclosure.closing then
            advance
            skipBehind steps outer true
          else if afterElement then
            if c == ',' then
              advance
              skipKey enclosure
              skipInside steps (enclosure :: outer)
            else
              failNext enclosure.separatorFault
          else
            skipKey enclosure
            skipInside steps (enclosure :: outer)

end

/-- Passes a whole value. Each step but every second reads a character. -/
def skipValue : Reading Unit :=
  fun cursor => skipInside (2 * cursor.rest.length + 2) [] cursor

end Reading

end BuildScribe
