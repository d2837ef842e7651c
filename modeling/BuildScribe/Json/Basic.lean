import BuildScribe.Number.Binary64
import BuildScribe.OrderedMap

/-!
# JSON values

Objects keep their members in order, and numbers keep their kind: an integer
that fits 64 bits stays exact, everything else is a double. The type admits
repeated keys, because a text may hold them; `Json.merged` is the value that
such a text stands for.
-/

namespace BuildScribe

inductive JsonNumber where
  | integer (value : Int)
  | double (value : Binary64)
deriving DecidableEq

inductive Json where
  | null
  | bool (value : Bool)
  | number (value : JsonNumber)
  | string (value : String)
  | array (items : List Json)
  | object (members : List (String × Json))

namespace JsonNumber

/-- The integers that a JSON number keeps exactly. -/
def holds (value : Int) : Bool :=
  -Nat.pow 2 63 ≤ value && value < Nat.pow 2 64

def toBinary64 : JsonNumber → Binary64
  | integer value => .ofInt value
  | double value => value

/-- The number a double stands for in JSON, which has no words for infinities
and NaN. -/
def ofBinary64? (value : Binary64) : Option JsonNumber :=
  if value.isFinite then some (.double value) else none

end JsonNumber

namespace Json

def integer (value : Int) : Json :=
  .number (.integer value)

/-- A double as a JSON value; what JSON cannot write becomes `null`. -/
def ofBinary64 (value : Binary64) : Json :=
  match JsonNumber.ofBinary64? value with
  | some written => .number written
  | none => .null

/-- The member of an object under a key. Of repeated keys the last one counts. -/
def field? (key : String) : Json → Option Json
  | object members => (members.reverse.find? (·.1 == key)).map (·.2)
  | _ => none

mutual

/-- The value with repeated keys merged in every object: a repeated key keeps
its first place and takes its last value. -/
def merged : Json → Json
  | array items => array (mergedItems items)
  | object members => object (OrderedMap.ofList (mergedMembers members)).entries
  | value => value

def mergedItems : List Json → List Json
  | [] => []
  | item :: rest => item.merged :: mergedItems rest

def mergedMembers : List (String × Json) → List (String × Json)
  | [] => []
  | (key, value) :: rest => (key, value.merged) :: mergedMembers rest

end

end Json

end BuildScribe
