import BuildScribe.Failure
import BuildScribe.Scoping.Forest
import BuildScribe.Scoping.Symbol

/-!
# Lexical scopes

A scope holds symbols in the order of their definitions. Defining a name twice
in one scope is a failure; a definition in an inner scope hides the outer one.
-/

namespace BuildScribe

structure Scope where
  name : String
  symbols : OrderedMap String Symbol

namespace Scope

def fresh (name : String) : Scope :=
  ⟨name, .empty⟩

/-- Adds a symbol under a name that the scope does not hold yet. -/
def define (scope : Scope) (key : String) (symbol : Symbol) : Except Failure Scope :=
  if scope.symbols.contains key then
    .error (.duplicateSymbol key scope.name)
  else
    .ok { scope with symbols := scope.symbols.insert key symbol }

def resolveLocal? (scope : Scope) (key : String) : Option Symbol :=
  scope.symbols.get? key

def localNames (scope : Scope) : List String :=
  scope.symbols.keys

/-- The symbol of the innermost scope that holds the name; the innermost scope
stands first. -/
def resolve? (lineage : List Scope) (key : String) : Option Symbol :=
  lineage.findSome? (·.resolveLocal? key)

/-- The names of the scopes, outermost first, with points between them. -/
def path (lineage : List Scope) : String :=
  String.intercalate "." (lineage.reverse.map (·.name))

end Scope

abbrev ScopeForest := Forest Scope

namespace ScopeForest

def root (scopes : ScopeForest) (name : String) : ScopeForest :=
  scopes.add none (.fresh name)

def child (scopes : ScopeForest) (outer : Nat) (name : String) : ScopeForest :=
  scopes.add (some outer) (.fresh name)

/-- Defines a symbol in a scope. A failure leaves every scope as it was. -/
def define (scopes : ScopeForest) (number : Nat) (key : String) (symbol : Symbol) :
    Except Failure ScopeForest :=
  match scopes.get? number with
  | none => .ok scopes
  | some scope => do
      let defined ← scope.define key symbol
      pure (scopes.modify number fun _ => defined)

/-- The symbol of the nearest scope, from the numbered one outwards, that holds
the name. -/
def resolve? (scopes : ScopeForest) (number : Nat) (key : String) : Option Symbol :=
  Scope.resolve? (scopes.lineage number) key

def resolveLocal? (scopes : ScopeForest) (number : Nat) (key : String) :
    Option Symbol :=
  (scopes.get? number).bind (·.resolveLocal? key)

def localNames (scopes : ScopeForest) (number : Nat) : List String :=
  ((scopes.get? number).map (·.localNames)).getD []

def path (scopes : ScopeForest) (number : Nat) : String :=
  Scope.path (scopes.lineage number)

def outerName? (scopes : ScopeForest) (number : Nat) : Option String :=
  ((scopes.lineage number).drop 1).head?.map (·.name)

end ScopeForest

end BuildScribe
