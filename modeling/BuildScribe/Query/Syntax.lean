import BuildScribe.Query.Filter
import BuildScribe.Query.Token

/-!
# The grammar of filters

From loose to tight: `|`, which takes everything to its right, then `,`, then `==`,
then a minus sign, then the parts behind a term. The value of an object member is a
filter without commas outside of brackets.
-/

namespace BuildScribe

namespace Filter

/-- The words that are no names of filters. -/
def reservedWords : List String :=
  ["def", "if", "then", "elif", "else", "end", "reduce", "foreach", "try", "catch",
    "label", "import", "include", "as", "and", "or"]

def numberConstant (digits : List Char) : Option Filter :=
  match (String.ofList digits).toNat? with
  | some value =>
      if JsonNumber.holds value then some (.constant (.integer value))
      else fromText digits
  | none => fromText digits
where
  fromText (digits : List Char) : Option Filter :=
    match Reading.document.run digits with
    | .ok value => some (.constant value)
    | .error _ => none

def textConstant (value : String) : Filter :=
  .constant (.string value)

mutual

/-- Filters with `|` between them; with `commas` also `,` may stand between. -/
def pipeline (commas : Bool) : (steps : Nat) → List FilterToken →
    Option (Filter × List FilterToken)
  | 0, _ => none
  | steps + 1, tokens => do
      let (first, rest) ←
        if commas then alternatives steps tokens else comparison steps tokens
      match rest with
      | .mark '|' :: rest => do
          let (second, rest) ← pipeline commas steps rest
          pure (.pipe first second, rest)
      | _ => pure (first, rest)

/-- Filters with `,` between them. -/
def alternatives : (steps : Nat) → List FilterToken →
    Option (Filter × List FilterToken)
  | 0, _ => none
  | steps + 1, tokens => do
      let (first, rest) ← comparison steps tokens
      moreAlternatives steps first rest

def moreAlternatives : (steps : Nat) → Filter → List FilterToken →
    Option (Filter × List FilterToken)
  | 0, _, _ => none
  | steps + 1, first, tokens =>
      match tokens with
      | .mark ',' :: rest => do
          let (second, rest) ← comparison steps rest
          moreAlternatives steps (.beside first second) rest
      | _ => pure (first, tokens)

/-- Filters with `==` between them. -/
def comparison : (steps : Nat) → List FilterToken →
    Option (Filter × List FilterToken)
  | 0, _ => none
  | steps + 1, tokens => do
      let (left, rest) ← signed steps tokens
      moreComparison steps left rest

def moreComparison : (steps : Nat) → Filter → List FilterToken →
    Option (Filter × List FilterToken)
  | 0, _, _ => none
  | steps + 1, left, tokens =>
      match tokens with
      | .equal :: rest => do
          let (right, rest) ← signed steps rest
          moreComparison steps (.equal left right) rest
      | _ => pure (left, tokens)

/-- A term, perhaps behind a minus sign. -/
def signed : (steps : Nat) → List FilterToken →
    Option (Filter × List FilterToken)
  | 0, _ => none
  | steps + 1, tokens =>
      match tokens with
      | .mark '-' :: rest => do
          let (operand, rest) ← term steps rest
          pure (.negate operand, rest)
      | _ => term steps tokens

/-- A term with the parts behind it. -/
def term : (steps : Nat) → List FilterToken →
    Option (Filter × List FilterToken)
  | 0, _ => none
  | steps + 1, tokens => do
      let (start, rest) ← atom steps tokens
      parts steps start rest

def parts : (steps : Nat) → Filter → List FilterToken →
    Option (Filter × List FilterToken)
  | 0, _, _ => none
  | steps + 1, start, tokens =>
      match tokens with
      | .key name :: rest => parts steps (.part start (textConstant name)) rest
      | .point :: .text name :: rest =>
          parts steps (.part start (textConstant name)) rest
      | .point :: .mark '[' :: rest => bracket steps start rest
      | .mark '[' :: rest => bracket steps start rest
      | _ => pure (start, tokens)

/-- The rest of a part in brackets, and the parts behind it. -/
def bracket : (steps : Nat) → Filter → List FilterToken →
    Option (Filter × List FilterToken)
  | 0, _, _ => none
  | steps + 1, start, tokens =>
      match tokens with
      | .mark ']' :: rest => parts steps (.each start) rest
      | _ => do
          let (index, rest) ← pipeline true steps tokens
          match rest with
          | .mark ']' :: rest => parts steps (.part start index) rest
          | _ => none

/-- A term without parts behind it. -/
def atom : (steps : Nat) → List FilterToken →
    Option (Filter × List FilterToken)
  | 0, _ => none
  | steps + 1, tokens =>
      match tokens with
      | .key name :: rest => some (.part .identity (textConstant name), rest)
      | .point :: .text name :: rest =>
          some (.part .identity (textConstant name), rest)
      | .point :: rest => some (.identity, rest)
      | .number digits :: rest => do
          let value ← numberConstant digits
          pure (value, rest)
      | .text value :: rest => some (textConstant value, rest)
      | .binding name :: rest => some (.undefinedBinding name, rest)
      | .word name :: .mark '(' :: rest => do
          if reservedWords.contains name then
            none
          else
            let (arguments, rest) ← callArguments steps rest
            pure (.ofCall name arguments, rest)
      | .word name :: rest =>
          if reservedWords.contains name then none
          else some (.ofCall name [], rest)
      | .mark '(' :: rest => do
          let (inner, rest) ← pipeline true steps rest
          match rest with
          | .mark ')' :: rest => pure (inner, rest)
          | _ => none
      | .mark '[' :: .mark ']' :: rest => some (.constant (.array []), rest)
      | .mark '[' :: rest => do
          let (items, rest) ← pipeline true steps rest
          match rest with
          | .mark ']' :: rest => pure (.collect items, rest)
          | _ => none
      | .mark '\x7b' :: .mark '\x7d' :: rest => some (.construct [], rest)
      | .mark '\x7b' :: rest => do
          let (members, rest) ← objectMembers steps rest
          pure (.construct members, rest)
      | _ => none

/-- The arguments of a call up to and with the closing parenthesis. -/
def callArguments : (steps : Nat) → List FilterToken →
    Option (List Filter × List FilterToken)
  | 0, _ => none
  | steps + 1, tokens => do
      let (first, rest) ← pipeline true steps tokens
      match rest with
      | .mark ';' :: rest => do
          let (others, rest) ← callArguments steps rest
          pure (first :: others, rest)
      | .mark ')' :: rest => pure ([first], rest)
      | _ => none

def objectMembers : (steps : Nat) → List FilterToken →
    Option (List (Filter × Filter) × List FilterToken)
  | 0, _ => none
  | steps + 1, tokens => do
      let (first, rest) ← objectMember steps tokens
      match rest with
      | .mark ',' :: rest => do
          let (others, rest) ← objectMembers steps rest
          pure (first :: others, rest)
      | .mark '\x7d' :: rest => pure ([first], rest)
      | _ => none

/-- A member of an object. A name or a string alone stands for the part of the value
under it. -/
def objectMember : (steps : Nat) → List FilterToken →
    Option ((Filter × Filter) × List FilterToken)
  | 0, _ => none
  | steps + 1, tokens =>
      match tokens with
      | .mark '(' :: rest => do
          let (key, rest) ← pipeline true steps rest
          match rest with
          | .mark ')' :: .mark ':' :: rest => do
              let (value, rest) ← pipeline false steps rest
              pure ((key, value), rest)
          | _ => none
      | .word name :: rest => namedMember steps name rest
      | .text name :: rest => namedMember steps name rest
      | .binding name :: rest => some ((textConstant name, .undefinedBinding name), rest)
      | _ => none

def namedMember : (steps : Nat) → String → List FilterToken →
    Option ((Filter × Filter) × List FilterToken)
  | 0, _, _ => none
  | steps + 1, name, tokens =>
      let key := textConstant name
      match tokens with
      | .mark ':' :: rest => do
          let (value, rest) ← pipeline false steps rest
          pure ((key, value), rest)
      | _ => some ((key, .part .identity key), tokens)

end

/-- The filter with a text, unless the text is no filter. Between two tokens at most
eight rules follow one another, which bounds the steps. -/
def ofText? (text : String) : Option Filter := do
  let tokens ← FilterToken.ofText? text
  match ← pipeline true (8 * (tokens.length + 1)) tokens with
  | (filter, []) => pure filter
  | _ => none

end Filter

end BuildScribe
