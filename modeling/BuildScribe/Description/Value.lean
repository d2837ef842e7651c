import BuildScribe.Failure
import BuildScribe.Json.Codec
import BuildScribe.Json.Equality
import BuildScribe.Tree.Node

/-!
# Described values

A value of a description is a reference to something declared elsewhere, or a
literal. Every JSON value that is no reference counts as a literal; only scalars can
be written into a script.
-/

namespace BuildScribe

/-- A value of a description. -/
inductive DescribedValue where
  /-- What is found under a dotted path. -/
  | reference (path : String)
  | literal (json : Json)
deriving DecidableEq

namespace DescribedValue

/-- The values under a key of an object, in order. -/
def valuesUnder (key : String) (members : List (String × Json)) : List Json :=
  (members.filter (·.1 == key)).map (·.2)

/-- An object with a single string under `ref` is a reference, whatever else it
holds. -/
def ofJson : Json → DescribedValue
  | .object members =>
      match valuesUnder "ref" members with
      | [.string path] => .reference path
      | _ => .literal (Json.object members).merged
  | json => .literal json.merged

def toJson : DescribedValue → Json
  | reference path => .object [("ref", .string path)]
  | literal json => json

def codec : Codec DescribedValue :=
  .oneOf "ValueDescription" (fun json => some (ofJson json)) toJson

/-- The integers that stand for themselves in a script; larger ones become
doubles. -/
def isScriptInteger (value : Int) : Bool :=
  -Nat.pow 2 63 ≤ value && value < Nat.pow 2 63

def numberLiteral : JsonNumber → LiteralValue
  | .integer value =>
      if isScriptInteger value then .integer value else .double (.ofInt value)
  | .double value => .double value

def toNode : DescribedValue → Except Failure Node
  | reference path => .ok (.ofPath path)
  | literal (.string value) => .ok (.ofString value)
  | literal (.bool value) => .ok (.ofLiteral (.boolean value))
  | literal .null => .ok (.ofLiteral .null)
  | literal (.number value) => .ok (.ofLiteral (numberLiteral value))
  | literal json => .error (.input (.noScalar json.compact))

end DescribedValue

end BuildScribe
