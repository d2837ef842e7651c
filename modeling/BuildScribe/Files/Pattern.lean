/-!
# Patterns of file names

A pattern matches names character by character: `?` stands for any character, `*` for
any number of them, `[…]` for one of some characters and `[!…]` for any other one. A
step `**` of a path stands for any number of directories.
-/

namespace BuildScribe

inductive PatternPart where
  | char (c : Char)
  | anyChar
  /-- One of the characters in the given ranges. -/
  | within (ranges : List (Char × Char))
  /-- A character in none of the given ranges. -/
  | except (ranges : List (Char × Char))
  /-- Any number of characters. -/
  | anyRun
  /-- Any number of directories. -/
  | anyDirectories
deriving DecidableEq

inductive PatternCause where
  | wildcards
  | lonelyDirectories
  | range
deriving DecidableEq

/-- What is wrong with a pattern, and after how many characters. -/
structure PatternFault where
  position : Nat
  cause : PatternCause
deriving DecidableEq

namespace PatternFault

def message (fault : PatternFault) : String :=
  "Pattern syntax error near position " ++ toString fault.position ++ ": " ++
    match fault.cause with
    | .wildcards => "wildcards are either regular `*` or recursive `**`"
    | .lonelyDirectories =>
        "recursive wildcards must form a single path component"
    | .range => "invalid range pattern"

end PatternFault

abbrev Pattern := List PatternPart

namespace Pattern

/-- The ranges between the brackets; a single character is a range of its own. -/
def ranges : List Char → List (Char × Char)
  | first :: '-' :: last :: rest => (first, last) :: ranges rest
  | c :: rest => (c, c) :: ranges rest
  | [] => []

/-- The ranges up to the closing bracket and what follows it. The first character
never closes the brackets. -/
def bracketed : List Char → Option (List (Char × Char) × List Char)
  | [] => none
  | first :: rest =>
      if rest.contains ']' then
        some (ranges (first :: rest.takeWhile (· != ']')),
          (rest.dropWhile (· != ']')).drop 1)
      else
        none

/-- Reads a pattern. `before` is the character before the rest, and `position` the
number of characters before it. -/
def scan : (steps position : Nat) → (before : Option Char) → List Char →
    Except PatternFault Pattern
  | 0, _, _, _ => .ok []
  | steps + 1, position, before, cs =>
      match cs with
      | [] => .ok []
      | '?' :: rest => do
          pure (.anyChar :: (← scan steps (position + 1) (some '?') rest))
      | '*' :: '*' :: '*' :: _ => .error ⟨position + 2, .wildcards⟩
      | '*' :: '*' :: rest =>
          if before != none && before != some '/' then
            .error ⟨position - 1, .lonelyDirectories⟩
          else
            match rest with
            | [] => .ok [.anyDirectories]
            | '/' :: rest => do
                pure (.anyDirectories :: (← scan steps (position + 3) (some '/') rest))
            | _ => .error ⟨position + 2, .lonelyDirectories⟩
      | '*' :: rest => do
          pure (.anyRun :: (← scan steps (position + 1) (some '*') rest))
      | '[' :: '!' :: inner =>
          match bracketed inner with
          | none => .error ⟨position, .range⟩
          | some (found, rest) => do
              let taken := cs.length - rest.length
              pure (.except found :: (← scan steps (position + taken) (some ']') rest))
      | '[' :: inner =>
          match bracketed inner with
          | none => .error ⟨position, .range⟩
          | some (found, rest) => do
              let taken := cs.length - rest.length
              pure (.within found :: (← scan steps (position + taken) (some ']') rest))
      | c :: rest => do
          pure (.char c :: (← scan steps (position + 1) (some c) rest))

/-- The pattern with a text. Every part takes at least one character. -/
def ofChars (cs : List Char) : Except PatternFault Pattern :=
  scan cs.length 0 none cs

/-- The name that the pattern spells out, if it has nothing but characters. -/
def literal? : Pattern → Option (List Char)
  | [] => some []
  | .char c :: rest => (literal? rest).map (c :: ·)
  | _ => none

def spansDirectories (pattern : Pattern) : Bool :=
  pattern.contains .anyDirectories

def inRanges (ranges : List (Char × Char)) (c : Char) : Bool :=
  ranges.any fun (first, last) => first ≤ c && c ≤ last

/-- The list itself and everything that is left after dropping from its front. -/
def suffixes : List Char → List (List Char)
  | [] => [[]]
  | c :: rest => (c :: rest) :: suffixes rest

def accepts : Pattern → List Char → Bool
  | [], cs => cs.isEmpty
  | .anyRun :: rest, cs => (suffixes cs).any fun tail => accepts rest tail
  | .anyDirectories :: rest, cs => (suffixes cs).any fun tail => accepts rest tail
  | _ :: _, [] => false
  | .char expected :: rest, c :: cs => c == expected && accepts rest cs
  | .anyChar :: rest, _ :: cs => accepts rest cs
  | .within ranges :: rest, c :: cs => inRanges ranges c && accepts rest cs
  | .except ranges :: rest, c :: cs => !inRanges ranges c && accepts rest cs

/-- The characters that make a path a pattern. An opening brace does, although it
stands for itself. -/
def isWildcard (c : Char) : Bool :=
  c == '*' || c == '?' || c == '[' || c == '\x7b'

end Pattern

end BuildScribe
