import BuildScribe.Json.Token

/-!
# Values of a JSON text

Lists and objects are read element by element, so that a fault shows where the
reading stood. `Reading.value` reads any value with its repeated keys; it
descends through at most `room` containers.
-/

namespace BuildScribe

/-- The number of containers that may enclose one another. -/
def nestingLimit : Nat := 127

namespace Reading

variable {α σ : Type}

/-- Moves to the next element of a list; there is none at the closing bracket,
which stays unread. -/
def hasElement (first : Bool) : Reading Bool := do
  skipBlanks
  match ← peek with
  | none => failNext .endInList
  | some c =>
      if c == ']' then
        pure false
      else if first then
        pure true
      else if c == ',' then
        advance
        skipBlanks
        match ← peek with
        | none => failNext .endInValue
        | some next =>
            if next == ']' then failNext .trailingComma else pure true
      else
        failNext .expectedCommaOrBracket

def finishList : Reading Unit := do
  skipBlanks
  match ← peek with
  | none => failNext .endInList
  | some c =>
      if c == ']' then
        advance
      else if c == ',' then
        advance
        skipBlanks
        if (← peek) == some ']' then failNext .trailingComma
        else failNext .trailingCharacters
      else
        failNext .trailingCharacters

/-- Moves to the key of the next member of an object; there is none at the
closing brace, which stays unread. -/
def hasMember (first : Bool) : Reading Bool := do
  skipBlanks
  match ← peek with
  | none => failNext .endInObject
  | some c =>
      if c == '\x7d' then
        pure false
      else if first then
        if c == '"' then pure true else failNext .keyNotString
      else if c == ',' then
        advance
        skipBlanks
        match ← peek with
        | none => failNext .endInValue
        | some next =>
            if next == '"' then pure true
            else if next == '\x7d' then failNext .trailingComma
            else failNext .keyNotString
      else
        failNext .expectedCommaOrBrace

def finishObject : Reading Unit := do
  skipBlanks
  match ← peek with
  | none => failNext .endInObject
  | some c =>
      if c == '\x7d' then advance
      else if c == ',' then failNext .trailingComma
      else failNext .trailingCharacters

def nextKey (first : Bool) : Reading (Option String) :=
  under .unreadKey do
    if ← hasMember first then
      some <$> string
    else
      pure none

def colon : Reading Unit := do
  skipBlanks
  match ← peek with
  | none => failNext .endInObject
  | some c => if c == ':' then advance else failNext .expectedColon

/-- Reads the remaining elements of a list. Every element but the last is
followed by a comma, so the length of the text bounds the steps. -/
def elements (item : Reading α) : (steps index : Nat) → Reading (List α)
  | 0, _ => failNext .endInList
  | steps + 1, index => do
      if ← hasElement (index == 0) then
        let value ← under (.index index) item
        let others ← elements item steps (index + 1)
        pure (value :: others)
      else
        pure []

def members (value : Reading α) :
    (steps : Nat) → (first : Bool) → Reading (List (String × α))
  | 0, _ => failNext .endInObject
  | steps + 1, first => do
      match ← nextKey first with
      | none => pure []
      | some key =>
          colon
          let current ← under (.key key) value
          let others ← members value steps false
          pure ((key, current) :: others)

/-- A bound for the elements or members that can still follow. -/
def remainingSteps : Reading Nat :=
  fun cursor => .ok (cursor.rest.length + 1) cursor

/-- Reads a list behind its opening bracket. -/
def listTail (item : Reading α) : Reading (List α) :=
  enclosed (do elements item (← remainingSteps) 0) finishList

/-- Reads an object behind its opening brace. -/
def objectTail (value : Reading α) : Reading (List (String × α)) :=
  enclosed (do members value (← remainingSteps) true) finishObject

/-- How a value that is neither a list nor an object is read, by its first
character. -/
def scalar? (c : Char) : Option (Reading Json) :=
  if c == 'n' then
    some (do wholeWord ['u', 'l', 'l']; pure .null)
  else if c == 't' then
    some (do wholeWord ['r', 'u', 'e']; pure (.bool true))
  else if c == 'f' then
    some (do wholeWord ['a', 'l', 's', 'e']; pure (.bool false))
  else if c == '-' || isDigit c then
    some (.number <$> number)
  else if c == '"' then
    some (.string <$> string)
  else
    none

/-- Reads a value whose elements or members are read by `inner`. Without it no
container may open. -/
def valueOver (inner : Option (Reading Json)) : Reading Json := do
  skipBlanks
  match ← peek with
  | none => failNext .endInValue
  | some c =>
      match scalar? c with
      | some scalar => scalar
      | none =>
          if c == '[' || c == '\x7b' then
            match inner with
            | none => failNext .tooDeep
            | some inner =>
                advance
                if c == '[' then .array <$> listTail inner
                else .object <$> objectTail inner
          else
            failNext .expectedValue

/-- Reads any value. Repeated keys of an object are all kept. -/
def value : (room : Nat) → Reading Json
  | 0 => valueOver none
  | room + 1 => valueOver (some (value room))

def endOfText : Reading Unit := do
  skipBlanks
  match ← peek with
  | none => pure ()
  | some _ => failNext .trailingCharacters

/-- Reads a text that holds one value and nothing else. Repeated keys are
merged. -/
def document : Reading Json := do
  let read ← value nestingLimit
  endOfText
  pure read.merged

def run (reading : Reading α) (text : List Char) : Except ReadFault α :=
  match reading (.start text) with
  | .ok value _ => .ok value
  | .error fault _ => .error fault

end Reading

def Json.parse (text : String) : Except ReadFault Json :=
  Reading.document.run text.toList

end BuildScribe
