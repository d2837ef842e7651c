import BuildScribe.Json.Basic
import BuildScribe.Typing.ScriptType

/-!
# Symbols

What a scope knows about a declared name: its type, its kind, its modifiers and
its value when that is a constant.
-/

namespace BuildScribe

inductive Modifier where
  | publicAccess
  | privateAccess
  | protectedAccess
  | internalAccess
  | abstractMember
  | final
  | openMember
  | sealedClass
  | var
  | val
  | const
  | inlined
  | suspending
  | operator
deriving DecidableEq

namespace Modifier

/-- All modifiers in the order in which declarations show them. -/
def all : List Modifier :=
  [publicAccess, privateAccess, protectedAccess, internalAccess, abstractMember,
    final, openMember, sealedClass, var, val, const, inlined, suspending, operator]

def keyword : Modifier → String
  | publicAccess => "public"
  | privateAccess => "private"
  | protectedAccess => "protected"
  | internalAccess => "internal"
  | abstractMember => "abstract"
  | final => "final"
  | openMember => "open"
  | sealedClass => "sealed"
  | var => "var"
  | val => "val"
  | const => "const"
  | inlined => "inline"
  | suspending => "suspend"
  | operator => "operator"

def ofKeyword? (word : String) : Option Modifier :=
  all.find? fun modifier => modifier.keyword == word

end Modifier

/-- A set of modifiers, listed in their canonical order. -/
structure ModifierSet where
  members : List Modifier
deriving DecidableEq

namespace ModifierSet

/-- The set of the given modifiers, whatever their order and repetitions. -/
def ofList (given : List Modifier) : ModifierSet :=
  ⟨Modifier.all.filter given.contains⟩

def contains (set : ModifierSet) (modifier : Modifier) : Bool :=
  set.members.contains modifier

def keywords (set : ModifierSet) : List String :=
  set.members.map Modifier.keyword

end ModifierSet

inductive SymbolKind where
  | binding
  | function
  | classType
  | interfaceType
  | property
  | parameter
deriving DecidableEq

namespace SymbolKind

def all : List SymbolKind :=
  [binding, function, classType, interfaceType, property, parameter]

def name : SymbolKind → String
  | binding => "variable"
  | function => "function"
  | classType => "class"
  | interfaceType => "interface"
  | property => "property"
  | parameter => "parameter"

def ofName? (word : String) : Option SymbolKind :=
  all.find? fun kind => kind.name == word

end SymbolKind

structure Symbol where
  name : String
  type : ScriptType
  kind : SymbolKind
  modifiers : ModifierSet
  value : Option Json

end BuildScribe
