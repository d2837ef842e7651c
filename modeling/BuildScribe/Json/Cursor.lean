import BuildScribe.Json.Fault

/-!
# Reading positions

A `Cursor` stands between the characters read and those still to read. A
`Reading` moves a cursor forward and yields a value or a fault; after a fault
the cursor shows how far the text was read, because the containers around the
fault place it there.
-/

namespace BuildScribe

/-- What is still to read, and the number of bytes before it. -/
structure Cursor where
  rest : List Char
  offset : Nat

def Cursor.start (text : List Char) : Cursor :=
  ⟨text, 0⟩

/-- A step through a text with a value or a fault as its result. -/
abbrev Reading := EStateM ReadFault Cursor

def isJsonBlank (c : Char) : Bool :=
  c == ' ' || c == '\t' || c == '\n' || c == '\r'

namespace Reading

variable {α β : Type}

/-- The next character, which stays unread. -/
def peek : Reading (Option Char) :=
  fun cursor => .ok cursor.rest.head? cursor

def advance : Reading Unit :=
  fun cursor =>
    match cursor.rest with
    | [] => .ok () cursor
    | c :: rest => .ok () ⟨rest, cursor.offset + c.utf8Size⟩

def takeAscii (test : Char → Bool) : Reading (List Char) :=
  fun cursor =>
    let taken := cursor.rest.takeWhile test
    .ok taken ⟨cursor.rest.dropWhile test, cursor.offset + taken.length⟩

def skipBlanks : Reading Unit := do
  let _ ← takeAscii isJsonBlank

def failAfter (bytes : Nat) (fault : TextFault) : Reading α :=
  fun cursor => .error ⟨.malformed fault, [], some (cursor.offset + bytes)⟩ cursor

/-- Fails behind everything that was read. -/
def failHere (fault : TextFault) : Reading α :=
  failAfter 0 fault

/-- Fails at the next byte, or behind the last one at the end of the text. -/
def failNext (fault : TextFault) : Reading α :=
  fun cursor => failAfter (if cursor.rest.isEmpty then 0 else 1) fault cursor

/-- Refuses what was read, behind everything that was read. -/
def refuseHere (cause : ReadCause) : Reading α :=
  fun cursor => .error ⟨cause, [], some cursor.offset⟩ cursor

/-- Refuses what was read and leaves it to the enclosing container to place the
fault. -/
def refuse (cause : ReadCause) : Reading α :=
  fun cursor => .error ⟨cause, [], none⟩ cursor

/-- Reads a part of a value; its faults carry the step to the part. -/
def under (step : PathStep) (part : Reading α) : Reading α :=
  fun cursor =>
    match part cursor with
    | .ok value next => .ok value next
    | .error fault next => .error (fault.under step) next

/-- Reads the inside of a container and then its end. The end is looked for even
after a fault, and a fault without a place is placed where that search stops. -/
def enclosed (inside : Reading α) (finish : Reading Unit) : Reading α :=
  fun cursor =>
    match inside cursor with
    | .ok value next =>
        match finish next with
        | .ok _ last => .ok value last
        | .error fault last => .error fault last
    | .error fault next =>
        let last :=
          match finish next with
          | .ok _ last => last
          | .error _ last => last
        .error (fault.placedAt last.offset) last

def word : List Char → Reading Unit
  | [] => pure ()
  | expected :: more => do
      match ← peek with
      | none => failHere .endInValue
      | some c =>
          if c == expected then
            advance
            word more
          else
            failAfter 1 .expectedWord

/-- Reads a whole word whose first character is next. -/
def wholeWord (rest : List Char) : Reading Unit := do
  advance
  word rest

end Reading

end BuildScribe
