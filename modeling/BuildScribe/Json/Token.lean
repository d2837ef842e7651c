import BuildScribe.Json.Cursor

/-!
# Numbers and strings of a JSON text

A number without point and exponent that fits 64 bits is read exactly. Any
other number is a significand below `2 ^ 64` with a power of ten: digits beyond
that bound are dropped, and only those before the point raise the power.
-/

namespace BuildScribe

def isDigit (c : Char) : Bool :=
  '0' ≤ c && c ≤ '9'

def digitValue (c : Char) : Nat :=
  c.toNat - '0'.toNat

/-- Appends digits to a significand while it stays below the bound; yields the
number of digits left over as well. -/
def gatherDigits (bound significand : Nat) : List Char → Nat × Nat
  | [] => (significand, 0)
  | digit :: rest =>
      let next := significand * 10 + digitValue digit
      if next < bound then gatherDigits bound next rest
      else (significand, rest.length + 1)

namespace Reading

def scaledNumber (negative : Bool) (significand : Nat) (scale : Int) :
    Reading JsonNumber :=
  match Binary64.ofDecimal significand scale with
  | some value => pure (.double (value.withSign negative))
  | none => failHere .numberOutOfRange

/-- Reads an exponent whose letter is next. An exponent that fits no 32 bits
makes the number zero, unless it is positive and the significand is not zero. -/
def exponentPart (negative : Bool) (significand : Nat) (scale : Int) :
    Reading JsonNumber := do
  advance
  let sign ← peek
  if sign == some '+' || sign == some '-' then
    advance
  let positive := sign != some '-'
  match ← peek with
  | none => failHere .endInValue
  | some c =>
      if !isDigit c then
        failAfter 1 .invalidNumber
      else
        let before ← get
        let digits ← takeAscii isDigit
        let (value, left) := gatherDigits (Nat.pow 2 31) 0 digits
        if left = 0 then
          scaledNumber negative significand
            (if positive then scale + value else scale - value)
        else if significand ≠ 0 && positive then
          set before
          failAfter (digits.length - left + 1) .numberOutOfRange
        else
          pure (.double (Binary64.ofMagnitudeBits negative 0))

def fractionPart (negative : Bool) (significand : Nat) (scale : Int) :
    Reading JsonNumber := do
  advance
  let digits ← takeAscii isDigit
  if digits.isEmpty then
    match ← peek with
    | none => failNext .endInValue
    | some _ => failNext .invalidNumber
  else
    let (significand, left) := gatherDigits (Nat.pow 2 64) significand digits
    let scale := scale - (digits.length - left : Nat)
    let next ← peek
    if next == some 'e' || next == some 'E' then
      exponentPart negative significand scale
    else
      scaledNumber negative significand scale

/-- Reads what follows the digits before the point; `left` of them did not fit
the significand. -/
def numberTail (negative : Bool) (significand left : Nat) : Reading JsonNumber := do
  let next ← peek
  if next == some '.' then
    fractionPart negative significand left
  else if next == some 'e' || next == some 'E' then
    exponentPart negative significand left
  else if left ≠ 0 then
    scaledNumber negative significand left
  else if !negative then
    pure (.integer significand)
  else if 0 < significand && significand ≤ Nat.pow 2 63 then
    pure (.integer (-significand))
  else
    pure (.double ((Binary64.ofNat significand).withSign true))

def unsignedNumber (negative : Bool) : Reading JsonNumber := do
  match ← peek with
  | none => failHere .endInValue
  | some c =>
      if c == '0' then
        advance
        match ← peek with
        | some next =>
            if isDigit next then failNext .invalidNumber
            else numberTail negative 0 0
        | none => numberTail negative 0 0
      else if isDigit c then
        let digits ← takeAscii isDigit
        let (significand, left) := gatherDigits (Nat.pow 2 64) 0 digits
        numberTail negative significand left
      else
        failAfter 1 .invalidNumber

def number : Reading JsonNumber := do
  if (← peek) == some '-' then
    advance
    unsignedNumber true
  else
    unsignedNumber false

end Reading

def hexValue? (c : Char) : Option Nat :=
  if isDigit c then some (digitValue c)
  else if 'a' ≤ c && c ≤ 'f' then some (c.toNat - 'a'.toNat + 10)
  else if 'A' ≤ c && c ≤ 'F' then some (c.toNat - 'A'.toNat + 10)
  else none

def byteCount (cs : List Char) : Nat :=
  cs.foldl (fun total c => total + c.utf8Size) 0

/-- A fault of a token with the number of bytes before it. -/
abbrev TokenFault := TextFault × Nat

/-- Reads four hexadecimal digits. Without them the fault stands behind the next
four bytes, or at the end of a shorter text. -/
def fourHexDigits (cursor : Cursor) : Except TokenFault (Nat × Cursor) :=
  let bytes := byteCount cursor.rest
  let fault : TokenFault :=
    if 4 ≤ bytes then (.invalidEscape, cursor.offset + 4)
    else (.endInString, cursor.offset + bytes)
  match cursor.rest with
  | a :: b :: c :: d :: rest =>
      match hexValue? a, hexValue? b, hexValue? c, hexValue? d with
      | some a, some b, some c, some d =>
          .ok (((a * 16 + b) * 16 + c) * 16 + d, ⟨rest, cursor.offset + 4⟩)
      | _, _, _, _ => .error fault
  | _ => .error fault

def isLeadingSurrogate (unit : Nat) : Bool :=
  0xd800 ≤ unit && unit ≤ 0xdbff

def isTrailingSurrogate (unit : Nat) : Bool :=
  0xdc00 ≤ unit && unit ≤ 0xdfff

/-- Reads a `\u` escape behind its letter. A leading surrogate needs an escaped
trailing one right behind it. -/
def unicodeEscape (cursor : Cursor) : Except TokenFault (Char × Cursor) := do
  let (unit, next) ← fourHexDigits cursor
  if isTrailingSurrogate unit then
    .error (.loneSurrogate, next.offset)
  else if isLeadingSurrogate unit then
    match next.rest with
    | [] => .error (.endInString, next.offset)
    | ['\\'] => .error (.endInString, next.offset + 1)
    | '\\' :: 'u' :: rest =>
        let (second, last) ← fourHexDigits ⟨rest, next.offset + 2⟩
        if isTrailingSurrogate second then
          .ok (Char.ofNat ((unit - 0xd800) * 0x400 + (second - 0xdc00) + 0x10000),
            last)
        else
          .error (.loneSurrogate, last.offset)
    | '\\' :: _ => .error (.unfinishedSurrogatePair, next.offset + 2)
    | _ => .error (.unfinishedSurrogatePair, next.offset + 1)
  else
    .ok (Char.ofNat unit, next)

def simpleEscape? (c : Char) : Option Char :=
  if c == '"' || c == '\\' || c == '/' then some c
  else if c == 'b' then some '\x08'
  else if c == 'f' then some '\x0c'
  else if c == 'n' then some '\n'
  else if c == 'r' then some '\r'
  else if c == 't' then some '\t'
  else none

def escapeTail (cursor : Cursor) : Except TokenFault (Char × Cursor) :=
  match cursor.rest with
  | [] => .error (.endInString, cursor.offset)
  | c :: rest =>
      match simpleEscape? c with
      | some plain => .ok (plain, ⟨rest, cursor.offset + 1⟩)
      | none =>
          if c == 'u' then unicodeEscape ⟨rest, cursor.offset + 1⟩
          else .error (.invalidEscape, cursor.offset + 1)

/-- Reads a string behind its opening quote up to and with the closing one. Each
step reads a character, so the length of the text bounds the steps. -/
def stringTail : (steps : Nat) → List Char → Cursor →
    Except TokenFault (List Char × Cursor)
  | 0, _, cursor => .error (.endInString, cursor.offset)
  | steps + 1, done, cursor =>
      match cursor.rest with
      | [] => .error (.endInString, cursor.offset)
      | c :: rest =>
          if c == '"' then
            .ok (done.reverse, ⟨rest, cursor.offset + 1⟩)
          else if c == '\\' then
            match escapeTail ⟨rest, cursor.offset + 1⟩ with
            | .ok (plain, next) => stringTail steps (plain :: done) next
            | .error fault => .error fault
          else if c.toNat < 0x20 then
            .error (.controlCharacter, cursor.offset + 1)
          else
            stringTail steps (c :: done) ⟨rest, cursor.offset + c.utf8Size⟩

namespace Reading

def string : Reading String := do
  advance
  fun cursor =>
    match stringTail (cursor.rest.length + 1) [] cursor with
    | .ok (text, next) => .ok (String.ofList text) next
    | .error (fault, offset) =>
        .error ⟨.malformed fault, [], some offset⟩ cursor

end Reading

end BuildScribe
