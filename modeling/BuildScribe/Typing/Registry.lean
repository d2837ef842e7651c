import BuildScribe.OrderedMap
import BuildScribe.Typing.ScriptType

/-!
# Registered types

A registry finds types by name. Every type is entered under its short and its
qualified name, and a later entry replaces an earlier one of the same name.
-/

namespace BuildScribe

structure TypeRegistry where
  types : OrderedMap String ScriptType

namespace TypeRegistry

def empty : TypeRegistry := ⟨.empty⟩

/-- Enters a type under its qualified and its short name. -/
def register (registry : TypeRegistry) (type : ScriptType) : TypeRegistry :=
  let qualified :=
    if type.name = type.qualifiedName then registry.types
    else registry.types.insert type.qualifiedName type
  ⟨qualified.insert type.name type⟩

def resolve? (registry : TypeRegistry) (name : String) : Option ScriptType :=
  registry.types.get? name

def size (registry : TypeRegistry) : Nat :=
  registry.types.size

/-- The simple types that every registry of a language starts with. -/
def builtins : List ScriptType :=
  ["Any", "Nothing", "Unit", "String", "Int", "Boolean", "Long", "Double", "Float"].map
    fun name => .simple name ("kotlin." ++ name) []

def registerAll (registry : TypeRegistry) (types : List ScriptType) : TypeRegistry :=
  types.foldl register registry

def standard : TypeRegistry :=
  empty.registerAll builtins

/-- Whether the first type is assignable to the second. -/
def isSubtype (_registry : TypeRegistry) (subtype supertype : ScriptType) : Bool :=
  supertype.accepts subtype

/-- The type registered under a short name, or else the simple type with the
given names. -/
def wellKnown (registry : TypeRegistry) (name qualifiedName : String) : ScriptType :=
  (registry.resolve? name).getD (.simple name qualifiedName [])

/-- A type to which all given types are assignable, without looking for the
least one: a single type stands for itself, several have the top type, which is
nullable when one of them is. -/
def commonSupertype (registry : TypeRegistry) : List ScriptType → ScriptType
  | [] => registry.wellKnown "Nothing" ScriptType.nothingName
  | [only] => only
  | types =>
      let top := registry.wellKnown "Any" ScriptType.anyName
      if types.any ScriptType.isNullable then top.orNull else top

end TypeRegistry

end BuildScribe
