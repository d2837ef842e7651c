import BuildScribe.Json.Reader

/-!
# Tokens of filters

A filter is written in words, keys, numbers, strings and marks. Blanks and comments
between tokens do not count.
-/

namespace BuildScribe

inductive FilterToken where
  | word (name : String)
  /-- A name directly behind a point. -/
  | key (name : String)
  | point
  | number (digits : List Char)
  | text (value : String)
  /-- A name directly behind a dollar sign. -/
  | binding (name : String)
  | equal
  | mark (c : Char)
deriving DecidableEq

namespace FilterToken

def isNameStart (c : Char) : Bool :=
  c == '_' || ('a' ≤ c && c ≤ 'z') || ('A' ≤ c && c ≤ 'Z')

def isNamePart (c : Char) : Bool :=
  isNameStart c || isDigit c

def isMark (c : Char) : Bool :=
  ['(', ')', '[', ']', '\x7b', '\x7d', ',', '|', ':', ';', '-'].contains c

def nameAt (cs : List Char) : Option (String × List Char) :=
  match cs with
  | [] => none
  | first :: rest =>
      if isNameStart first then
        some (String.ofList (first :: rest.takeWhile isNamePart),
          rest.dropWhile isNamePart)
      else
        none

/-- The sign and the digits of an exponent, and the rest of the text. Without digits
there is no exponent. -/
def exponentAt (cs : List Char) : List Char × List Char :=
  match cs with
  | e :: rest =>
      if e == 'e' || e == 'E' then
        let (sign, tail) :=
          match rest with
          | '+' :: tail => (['+'], tail)
          | '-' :: tail => (['-'], tail)
          | tail => ([], tail)
        let digits := tail.takeWhile isDigit
        if digits.isEmpty then ([], cs)
        else (e :: (sign ++ digits), tail.dropWhile isDigit)
      else
        ([], cs)
  | [] => ([], [])

def numberAt (cs : List Char) : List Char × List Char :=
  let whole := cs.takeWhile isDigit
  let rest := cs.dropWhile isDigit
  let (fraction, rest) :=
    match rest with
    | '.' :: tail => ('.' :: tail.takeWhile isDigit, tail.dropWhile isDigit)
    | tail => ([], tail)
  let (exponent, rest) := exponentAt rest
  (whole ++ fraction ++ exponent, rest)

/-- The token at the beginning of a text that starts with a visible character, and
the rest of the text. -/
def tokenAt (cs : List Char) : Option (FilterToken × List Char) :=
  match cs with
  | [] => none
  | '.' :: rest =>
      match nameAt rest with
      | some (name, tail) => some (.key name, tail)
      | none => some (.point, rest)
  | '$' :: rest => (nameAt rest).map fun (name, tail) => (.binding name, tail)
  | '"' :: rest =>
      match Reading.string ⟨'"' :: rest, 0⟩ with
      | .ok value cursor => some (.text value, cursor.rest)
      | .error _ _ => none
  | '=' :: '=' :: rest => some (.equal, rest)
  | c :: rest =>
      if isDigit c then
        let (digits, tail) := numberAt cs
        some (.number digits, tail)
      else if isMark c then
        some (.mark c, rest)
      else
        (nameAt cs).map fun (name, tail) => (.word name, tail)

/-- Splits a text into tokens. Every token takes at least one character, so the
length of the text bounds the steps. -/
def scan : (steps : Nat) → List Char → Option (List FilterToken)
  | 0, _ => some []
  | steps + 1, cs =>
      match cs with
      | [] => some []
      | '#' :: rest => scan steps (rest.dropWhile (· != '\n'))
      | c :: rest =>
          if isJsonBlank c then
            scan steps rest
          else do
            let (token, tail) ← tokenAt cs
            let others ← scan steps tail
            pure (token :: others)

/-- The tokens of a filter, unless it holds something that is no token. -/
def ofText? (text : String) : Option (List FilterToken) :=
  scan text.toList.length text.toList

end FilterToken

end BuildScribe
