import BuildScribe.Json.Skip

/-!
# Codecs

A `Codec` describes one form of data once and uses the description in three
ways: it reads the data from the text of a document, it reads it from a JSON
value, and it writes it as a JSON value. The two readers differ only where the
text shows more than the value does.
-/

namespace BuildScribe

/-- How data of one type is read and written. -/
structure Codec (α : Type) where
  /-- Reads from a text, descending through at most `room` containers. -/
  fromText : (room : Nat) → Reading α
  /-- Reads from a value without repeated keys. -/
  fromJson : Json → Except ReadFault α
  toJson : α → Json

/-- A fault of a value that needs no path. -/
def ReadFault.of (cause : ReadCause) : ReadFault :=
  { cause := cause }

/-- The result of reading a part of a value; its fault carries the step to the
part. -/
def underStep {α : Type} (step : PathStep) (part : Except ReadFault α) :
    Except ReadFault α :=
  part.mapError (·.under step)

namespace Reading

variable {α : Type}

/-- Takes over a result, placing its cause behind everything that was read. -/
def settle : Except ReadCause α → Reading α
  | .ok value => pure value
  | .error cause => refuseHere cause

/-- Reads a value that has to be neither a list nor an object. Lists and objects
are judged at their opening bracket. -/
def scalarValue (accept : Json → Except ReadCause α) : Reading α := do
  skipBlanks
  match ← peek with
  | none => failNext .endInValue
  | some c =>
      match scalar? c with
      | some scalar => do settle (accept (← scalar))
      | none =>
          if c == '[' then settle (accept (.array []))
          else if c == '\x7b' then settle (accept (.object []))
          else failNext .expectedValue

def refuseValue (expected : String) : Reading α :=
  scalarValue fun found => .error (.wrongType (.ofJson found) expected)

/-- Enters a container whose opening bracket is next. -/
def descend (room : Nat) (inside : (room : Nat) → Reading α) : Reading α :=
  match room with
  | 0 => failNext .tooDeep
  | room + 1 => do
      advance
      inside room

end Reading

namespace Codec

open Reading

variable {α σ : Type}

/-- Data that is written as one word, number or string. -/
def scalar (accept : Json → Except ReadCause α) (toJson : α → Json) : Codec α :=
  { fromText := fun _ => scalarValue accept
    fromJson := fun json => (accept json).mapError .of
    toJson := toJson }

def text : Codec String :=
  scalar
    (fun
      | .string value => .ok value
      | json => .error (.wrongType (.ofJson json) "a string"))
    .string

def flag : Codec Bool :=
  scalar
    (fun
      | .bool value => .ok value
      | json => .error (.wrongType (.ofJson json) "a boolean"))
    .bool

def natural (bound : Nat) (expected : String) : Codec Nat :=
  scalar
    (fun
      | .number (.integer value) =>
          if 0 ≤ value ∧ value < bound then .ok value.toNat
          else .error (.wrongValue (.number (.integer value)) expected)
      | json => .error (.wrongType (.ofJson json) expected))
    (fun value => .integer value)

def any : Codec Json :=
  { fromText := fun room => Json.merged <$> value room
    fromJson := .ok
    toJson := id }

/-- Data that may be missing, which `null` says. -/
def optional (codec : Codec α) : Codec (Option α) :=
  { fromText := fun room => do
      skipBlanks
      if (← peek) == some 'n' then
        wholeWord ['u', 'l', 'l']
        pure none
      else
        some <$> codec.fromText room
    fromJson := fun
      | .null => .ok none
      | json => some <$> codec.fromJson json
    toJson := fun
      | none => .null
      | some value => codec.toJson value }

def itemsFromJson (codec : Codec α) :
    (index : Nat) → List Json → Except ReadFault (List α)
  | _, [] => .ok []
  | index, item :: rest => do
      let value ← underStep (.index index) (codec.fromJson item)
      let others ← itemsFromJson codec (index + 1) rest
      pure (value :: others)

def list (codec : Codec α) : Codec (List α) :=
  { fromText := fun room => do
      skipBlanks
      if (← peek) == some '[' then
        descend room fun room => listTail (codec.fromText room)
      else
        refuseValue "a sequence"
    fromJson := fun
      | .array items => codec.itemsFromJson 0 items
      | json => .error (.of (.wrongType (.ofJson json) "a sequence"))
    toJson := fun values => .array (values.map codec.toJson) }

def membersFromJson (codec : Codec α) :
    List (String × Json) → Except ReadFault (List (String × α))
  | [] => .ok []
  | (key, member) :: rest => do
      let value ← underStep (.key key) (codec.fromJson member)
      let others ← membersFromJson codec rest
      pure ((key, value) :: others)

/-- Named data of one form. Of a repeated name the last value counts, at the
name's first place. -/
def dictionary (codec : Codec α) : Codec (OrderedMap String α) :=
  { fromText := fun room => do
      skipBlanks
      if (← peek) == some '\x7b' then
        descend room fun room => do
          let members ← objectTail (codec.fromText room)
          pure (OrderedMap.ofList members)
      else
        refuseValue "a map"
    fromJson := fun
      | .object members => OrderedMap.ofList <$> codec.membersFromJson members
      | json => .error (.of (.wrongType (.ofJson json) "a map"))
    toJson := fun map =>
      .object (map.entries.map fun (key, value) => (key, codec.toJson value)) }

/-- Data that takes one of several forms, told apart only when it has been read
as a whole. -/
def oneOf (name : String) (select : Json → Option α) (toJson : α → Json) :
    Codec α :=
  { fromText := fun room => do
      match select (← value room) with
      | some chosen => pure chosen
      | none => refuse (.noForm name)
    fromJson := fun json =>
      match select json with
      | some chosen => .ok chosen
      | none => .error (.of (.noForm name))
    toJson := toJson }

end Codec

structure Field (σ : Type) where
  name : String
  required : Bool
  /-- Reads the field and says how it changes the record. -/
  fromText : (room : Nat) → Reading (σ → σ)
  fromJson : Json → Except ReadFault (σ → σ)
  toJson : σ → Json

/-- A record: its fields in order, and the record before any field was read. -/
structure Record (σ : Type) where
  title : String
  /-- Whether a key that is no field is a fault. -/
  strict : Bool
  blank : σ
  fields : List (Field σ)

namespace Field

variable {α σ : Type}

def of (name : String) (required : Bool) (codec : Codec α) (get : σ → α)
    (set : α → σ → σ) : Field σ :=
  { name := name
    required := required
    fromText := fun room => set <$> codec.fromText room
    fromJson := fun json => set <$> codec.fromJson json
    toJson := fun record => codec.toJson (get record) }

end Field

namespace Record

open Reading

variable {σ : Type}

def names (record : Record σ) : List String :=
  record.fields.map (·.name)

def field? (record : Record σ) (name : String) : Option (Field σ) :=
  record.fields.find? (·.name == name)

/-- The first required field that was not read. -/
def missing? (record : Record σ) (seen : List String) : Option String :=
  (record.fields.find? fun field => field.required && !seen.contains field.name).map
    (·.name)

def lengthText (record : Record σ) : String :=
  let count := record.fields.length
  record.title ++ " with " ++ toString count ++
    (if count = 1 then " element" else " elements")

/-- Reads the members of an object that stands for the record; `seen` are the
fields already read. -/
def textMembers (record : Record σ) (room : Nat) :
    (steps : Nat) → (first : Bool) → (seen : List String) → σ → Reading σ
  | 0, _, _, _ => failNext .endInObject
  | steps + 1, first, seen, current => do
      match ← nextKey first with
      | none =>
          match record.missing? seen with
          | some name => refuse (.missingField name)
          | none => pure current
      | some key =>
          match record.field? key with
          | none =>
              if record.strict then
                under (.key key) (refuse (.unknownField key record.names))
              else
                colon
                under (.key key) skipValue
                record.textMembers room steps false seen current
          | some field =>
              if seen.contains key then
                refuse (.repeatedField key)
              else
                colon
                let update ← under (.key key) (field.fromText room)
                record.textMembers room steps false (key :: seen) (update current)

/-- Reads the elements of a list that stands for the record, one for each field
in order; missing ones keep the record as it is. -/
def textElements (record : Record σ) (room : Nat) :
    (index : Nat) → List (Field σ) → σ → Reading σ
  | _, [], current => pure current
  | index, field :: fields, current => do
      if ← hasElement (index == 0) then
        let update ← under (.index index) (field.fromText room)
        record.textElements room (index + 1) fields (update current)
      else if field.required then
        refuse (.wrongLength index record.lengthText)
      else
        record.textElements room (index + 1) fields current

/-- Reads the record from an object or from a list of its fields. -/
def fromText (record : Record σ) (room : Nat) : Reading σ := do
  skipBlanks
  match ← peek with
  | some '\x7b' =>
      descend room fun room =>
        enclosed
          (do record.textMembers room (← remainingSteps) true [] record.blank)
          finishObject
  | some '[' =>
      descend room fun room =>
        enclosed (record.textElements room 0 record.fields record.blank) finishList
  | _ => refuseValue record.title

def jsonMembers (record : Record σ) :
    (seen : List String) → List (String × Json) → σ → Except ReadFault σ
  | seen, [], current =>
      match record.missing? seen with
      | some name => .error (.of (.missingField name))
      | none => .ok current
  | seen, (key, json) :: rest, current =>
      match record.field? key with
      | none =>
          if record.strict then
            underStep (.key key) (.error (.of (.unknownField key record.names)))
          else
            record.jsonMembers seen rest current
      | some field => do
          let update ← underStep (.key key) (field.fromJson json)
          record.jsonMembers (key :: seen) rest (update current)

def jsonElements (record : Record σ) (count : Nat) :
    (index : Nat) → List (Field σ) → List Json → σ → Except ReadFault σ
  | _, [], [], current => .ok current
  | _, [], _ :: _, _ =>
      .error (.of (.wrongLength count "fewer elements in array"))
  | index, field :: fields, [], current =>
      if field.required then
        .error (.of (.wrongLength index record.lengthText))
      else
        record.jsonElements count (index + 1) fields [] current
  | index, field :: fields, json :: rest, current => do
      let update ← underStep (.index index) (field.fromJson json)
      record.jsonElements count (index + 1) fields rest (update current)

def fromJson (record : Record σ) : Json → Except ReadFault σ
  | .object members => record.jsonMembers [] members record.blank
  | .array items =>
      record.jsonElements items.length 0 record.fields items record.blank
  | json => .error (.of (.wrongType (.ofJson json) record.title))

def toJson (record : Record σ) (value : σ) : Json :=
  .object (record.fields.map fun field => (field.name, field.toJson value))

def codec (record : Record σ) : Codec σ :=
  { fromText := record.fromText
    fromJson := record.fromJson
    toJson := record.toJson }

end Record

structure Variant (α : Type) where
  name : String
  /-- What the bare name stands for. A variant without it has a body. -/
  bare : Option α
  fromText : (room : Nat) → Reading α
  fromJson : Json → Except ReadFault α

namespace Variant

open Reading

variable {α σ : Type}

/-- A variant without a body. In the place of a body only `null` may stand. -/
def plain (name : String) (value : α) : Variant α :=
  let body : Codec α :=
    .scalar
      (fun
        | .null => .ok value
        | json => .error (.wrongType (.ofJson json) "unit"))
      (fun _ => .null)
  { name := name
    bare := some value
    fromText := body.fromText
    fromJson := body.fromJson }

/-- A variant whose body is a record. A text may give the body as a list, a
value may not. -/
def withBody (name : String) (record : Record σ) (make : σ → α) : Variant α :=
  { name := name
    bare := none
    fromText := fun room => make <$> record.fromText room
    fromJson := fun
      | .object members => make <$> record.fromJson (.object members)
      | json => .error (.of (.wrongType (.ofJson json) "struct variant")) }

def select (variants : List (Variant α)) (name : String) :
    Except ReadCause (Variant α) :=
  match variants.find? (·.name == name) with
  | some variant => .ok variant
  | none => .error (.unknownVariant name (variants.map (·.name)))

/-- The value that a bare name stands for. -/
def bareValue (variant : Variant α) : Except ReadCause α :=
  match variant.bare with
  | some value => .ok value
  | none => .error (.wrongType .bareVariant "struct variant")

/-- Takes over a result and leaves its cause without a place. -/
def orRefuse : Except ReadCause α → Reading α
  | .ok value => pure value
  | .error cause => refuse cause

/-- Reads a choice from a text: a bare name, or an object with the name as its
only key. -/
def choiceFromText (variants : List (Variant α)) (room : Nat) : Reading α := do
  skipBlanks
  match ← peek with
  | none => failNext .endInValue
  | some '"' =>
      let name ← string
      let variant ← settle (select variants name)
      under (.key name) (orRefuse variant.bareValue)
  | some '\x7b' =>
      descend room fun room => do
        let name ← scalarValue fun
          | .string name => .ok name
          | json => .error (.wrongType (.ofJson json) "variant identifier")
        let variant ← settle (select variants name)
        colon
        let value ← under (.key name) (variant.fromText room)
        skipBlanks
        match ← peek with
        | some '\x7d' =>
            advance
            pure value
        | some _ => failHere .expectedValue
        | none => failHere .endInObject
  | some _ => failNext .expectedValue

def choiceFromJson (variants : List (Variant α)) : Json → Except ReadFault α
  | .string name => do
      let variant ← (select variants name).mapError .of
      underStep (.key name) (variant.bareValue.mapError .of)
  | .object [(name, body)] => do
      let variant ← (select variants name).mapError .of
      underStep (.key name) (variant.fromJson body)
  | .object _ => .error (.of (.wrongValue .object "map with a single key"))
  | json => .error (.of (.wrongType (.ofJson json) "string or map"))

def codec (variants : List (Variant α)) (toJson : α → Json) : Codec α :=
  { fromText := choiceFromText variants
    fromJson := choiceFromJson variants
    toJson := toJson }

end Variant

namespace Codec

variable {α : Type}

/-- Reads data from the beginning of a text. What follows the data is not looked
at. -/
def readText (codec : Codec α) (text : String) : Except ReadFault α :=
  (codec.fromText nestingLimit).run text.toList

end Codec

end BuildScribe
