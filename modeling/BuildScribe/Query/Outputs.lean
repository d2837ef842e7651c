import BuildScribe.Json.Print
import BuildScribe.Query.Syntax

/-!
# Running basic filters

The outputs of a filter come in order up to the first failure; what would come after
a failure is never looked at. This is one engine among others: the program is put
together with it, and what is proved of runs is proved for every engine.
-/

namespace BuildScribe

/-- Outputs in order, and whether a failure came after them. -/
structure Outputs where
  values : List Json
  failed : Bool

namespace Outputs

def none : Outputs :=
  ⟨[], false⟩

def one (value : Json) : Outputs :=
  ⟨[value], false⟩

def failure : Outputs :=
  ⟨[], true⟩

/-- The outputs of the first, then those of the second unless the first fails. -/
def andThen (first second : Outputs) : Outputs :=
  if first.failed then first
  else ⟨first.values ++ second.values, second.failed⟩

def ofValues (use : Json → Outputs) : List Json → Outputs
  | [] => none
  | value :: rest => (use value).andThen (ofValues use rest)

def bind (outputs : Outputs) (use : Json → Outputs) : Outputs :=
  (ofValues use outputs.values).andThen ⟨[], outputs.failed⟩

def collected (outputs : Outputs) : Outputs :=
  if outputs.failed then failure else one (.array outputs.values)

end Outputs

namespace JsonNumber

/-- The integers that filters compare exactly; all other numbers are compared as
doubles. -/
def wholeInteger? : JsonNumber → Option Int
  | integer value =>
      if -Nat.pow 2 63 ≤ value ∧ value < Nat.pow 2 63 then some value else none
  | double _ => none

def sameNumber (left right : JsonNumber) : Bool :=
  match left.wholeInteger?, right.wholeInteger? with
  | some a, some b => a == b
  | _, _ => left.toBinary64.sameValue right.toBinary64

def negated (number : JsonNumber) : JsonNumber :=
  match number.wholeInteger? with
  | some value => .integer (-value)
  | none =>
      let value := number.toBinary64
      .double (value.withSign (!value.negative))

end JsonNumber

namespace Json

mutual

/-- Equality of values: numbers by value, objects whatever the order of their
members. -/
def sameValue : Json → Json → Bool
  | null, null => true
  | bool left, bool right => left == right
  | number left, number right => left.sameNumber right
  | string left, string right => left == right
  | array left, array right => sameItems left right
  | object left, object right =>
      left.length == right.length && sameMembers left (.object right)
  | _, _ => false

def sameItems : List Json → List Json → Bool
  | [], [] => true
  | left :: lefts, right :: rights => sameValue left right && sameItems lefts rights
  | _, _ => false

def sameMembers : List (String × Json) → Json → Bool
  | [], _ => true
  | (key, left) :: rest, other =>
      (match other.field? key with
        | some right => sameValue left right
        | none => false) && sameMembers rest other

end

/-- Everything but `false` and `null` counts as true. -/
def isTrue : Json → Bool
  | null => false
  | bool value => value
  | _ => true

/-- The position that an index stands for; negative ones count from the end. -/
def position? (length : Nat) (index : Int) : Option Nat :=
  if 0 ≤ index then some index.toNat
  else if 0 ≤ index + length then some (index + length).toNat
  else none

/-- The part of a container under an index or a key; a part that is not there is
`null`. -/
def partAt (container index : Json) : Outputs :=
  match container, index with
  | array items, number (.integer position) =>
      .one (((position? items.length position).bind fun at? => items[at?]?).getD null)
  | object members, string key => .one ((field? key (object members)).getD null)
  | _, _ => .failure

def parts : Json → Outputs
  | array items => ⟨items, false⟩
  | object members => ⟨members.map (·.2), false⟩
  | _ => .failure

end Json

namespace Filter

mutual

def outputs (input : Json) : Filter → Outputs
  | identity => .one input
  | constant value => .one value
  | negate operand =>
      (operand.outputs input).bind fun
        | .number value => .one (.number value.negated)
        | _ => .failure
  | pipe first second => (first.outputs input).bind fun value => second.outputs value
  | beside first second => (first.outputs input).andThen (second.outputs input)
  | equal left right =>
      (left.outputs input).bind fun a =>
        (right.outputs input).bind fun b => .one (.bool (a.sameValue b))
  | collect items => (items.outputs input).collected
  | construct members => objectOutputs input members []
  | each container => (container.outputs input).bind Json.parts
  | part container index =>
      (container.outputs input).bind fun value =>
        (index.outputs input).bind fun position => value.partAt position
  | nothing => .none
  | choose condition =>
      (condition.outputs input).bind fun value =>
        if value.isTrue then .one input else .none
  | mapItems change => (input.parts.bind fun item => change.outputs item).collected
  | undefinedCall _ _ => .failure
  | undefinedBinding _ => .failure

/-- The objects for every choice of keys and values, going on from some members. -/
def objectOutputs (input : Json) :
    List (Filter × Filter) → List (String × Json) → Outputs
  | [], done => .one (.object done)
  | (key, value) :: rest, done =>
      (key.outputs input).bind fun name =>
        (value.outputs input).bind fun member =>
          match name with
          | .string name =>
              objectOutputs input rest (OrderedMap.insertEntry name member done)
          | _ => .failure

end

end Filter

/-- The outputs as texts. There are no words for a failure. -/
def Outputs.texts (outputs : Outputs) : List FilterOutput :=
  outputs.values.map (.ok ·.compact) ++ if outputs.failed then [.error Option.none] else []

namespace FilterEngine

/-- The engine of basic filters. -/
def basic : FilterEngine where
  compile source :=
    match Filter.ofText? source with
    | none => .error (.unparsable [(source, none)])
    | some filter =>
        match filter.undefinedNames with
        | [] => .ok fun input => (filter.outputs input).texts
        | names => .error (.undefinedNames names)

end FilterEngine

/-- All documents that a basic filter makes of a value. -/
def Json.filtered (source : String) (input : Json) : Except FilterFault (List Json) :=
  FilterEngine.basic.documents source input

end BuildScribe
