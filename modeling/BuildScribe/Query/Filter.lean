import BuildScribe.Query.Engine

/-!
# Basic filters

A small language of filters for the engine that comes with the program: they select
parts of a value, build new values, and are put one after or beside the other.
-/

namespace BuildScribe

inductive Filter where
  /-- The value itself. -/
  | identity
  | constant (value : Json)
  /-- A number with the other sign. -/
  | negate (operand : Filter)
  /-- Every value of the first filter goes through the second. -/
  | pipe (first second : Filter)
  /-- The values of the first filter, then those of the second. -/
  | beside (first second : Filter)
  /-- Whether two values are equal. -/
  | equal (left right : Filter)
  /-- The list of all values of a filter. -/
  | collect (items : Filter)
  /-- An object for every choice of keys and values. -/
  | construct (members : List (Filter × Filter))
  /-- The items of a list or the values of an object. -/
  | each (container : Filter)
  /-- The part of a container under an index or a key. The index is computed from the
  value that the whole filter is given. -/
  | part (container index : Filter)
  /-- No value at all. -/
  | nothing
  /-- The value itself, for every true value of the condition. -/
  | choose (condition : Filter)
  /-- The list of the values that a filter has for the items. -/
  | mapItems (change : Filter)
  /-- A call of a filter that nobody defined. -/
  | undefinedCall (name : String) (arguments : List Filter)
  /-- A name that nobody bound. -/
  | undefinedBinding (name : String)

namespace UndefinedName

def filter (name : String) (arity : Nat) : UndefinedName :=
  ⟨name, "Filter(" ++ toString arity ++ ")"⟩

def binding (name : String) : UndefinedName :=
  ⟨"$" ++ name, "Var"⟩

end UndefinedName

namespace Filter

mutual

/-- The undefined names of a filter in the order of their use; those in the arguments
of a call come before the call. -/
def undefinedNames : Filter → List UndefinedName
  | identity | constant _ | nothing => []
  | negate operand => operand.undefinedNames
  | pipe first second => first.undefinedNames ++ second.undefinedNames
  | beside first second => first.undefinedNames ++ second.undefinedNames
  | equal left right => left.undefinedNames ++ right.undefinedNames
  | collect items => items.undefinedNames
  | construct members => undefinedInMembers members
  | each container => container.undefinedNames
  | part container index => container.undefinedNames ++ index.undefinedNames
  | choose condition => condition.undefinedNames
  | mapItems change => change.undefinedNames
  | undefinedCall name arguments =>
      undefinedInList arguments ++ [.filter name arguments.length]
  | undefinedBinding name => [.binding name]

def undefinedInList : List Filter → List UndefinedName
  | [] => []
  | filter :: rest => filter.undefinedNames ++ undefinedInList rest

def undefinedInMembers : List (Filter × Filter) → List UndefinedName
  | [] => []
  | (key, value) :: rest =>
      key.undefinedNames ++ value.undefinedNames ++ undefinedInMembers rest

end

def ofCall (name : String) (arguments : List Filter) : Filter :=
  match name, arguments with
  | "empty", [] => nothing
  | "true", [] => constant (.bool true)
  | "false", [] => constant (.bool false)
  | "null", [] => constant .null
  | "select", [condition] => choose condition
  | "map", [change] => mapItems change
  | _, _ => undefinedCall name arguments

end Filter

end BuildScribe
