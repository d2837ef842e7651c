import BuildScribe.Context.BuildKind
import BuildScribe.Context.Handle
import BuildScribe.Context.Setting
import BuildScribe.Scoping.Scope

/-!
# Benches

A bench is a context in use for one kind of build language, with handles of its
own. It belongs to two chains: its settings come from the context and the contexts
around it, its handles from the bench and the benches it was opened from. Benches
over one context share its settings and keep their handles apart.
-/

namespace BuildScribe

structure Bench where
  kind : BuildKind
  context : Nat
  handles : HandleMap

/-- Benches with the contexts and scopes they refer to. -/
structure Workroom (α : Type) where
  scopes : ScopeForest := .empty
  contexts : Contexts α := .empty
  benches : Forest Bench := .empty

namespace Workroom

variable {α κ : Type}

/-- Adds a context without an outer one. -/
def addRoot (room : Workroom α) : Workroom α :=
  { room with contexts := room.contexts.root }

/-- Adds a context inside another one. -/
def addChild (room : Workroom α) (outer : Nat) : Workroom α :=
  { room with contexts := room.contexts.child outer }

/-- Adds a bench over a context, opened from another bench or from none. -/
def addBench (room : Workroom α) (outer : Option Nat) (kind : BuildKind)
    (context : Nat) : Workroom α :=
  { room with benches := room.benches.add outer ⟨kind, context, .empty⟩ }

def openFresh (room : Workroom α) (kind : BuildKind) : Workroom α :=
  room.addRoot.addBench none kind room.contexts.size

/-- Opens a bench over the context of another bench. -/
def openShared (room : Workroom α) (kind : BuildKind) (other : Bench) : Workroom α :=
  room.addBench none kind other.context

/-- Opens a bench inside another one: settings and handles fall back to it. -/
def openInside (room : Workroom α) (number : Nat) (outer : Bench) : Workroom α :=
  (room.addChild outer.context).addBench (some number) outer.kind room.contexts.size

/-- Opens a bench over a context inside that of another bench. Only settings fall
back to it. -/
def openOverChild (room : Workroom α) (other : Bench) : Workroom α :=
  (room.addChild other.context).addBench none other.kind room.contexts.size

/-- Binds a key in the context of a bench. -/
def bind (room : Workroom α) (bench : Bench) (key : String) (value : α) :
    Workroom α :=
  { room with contexts := room.contexts.bind bench.context key value }

def register (room : Workroom α) (number : Nat) (handle : Handle) : Workroom α :=
  { room with
    benches := room.benches.modify number fun bench =>
      { bench with handles := bench.handles.register handle } }

def resolve? [HasKind α κ] [DecidableEq κ] (room : Workroom α) (bench : Bench)
    (key : String) (kind : κ) : Option α :=
  room.contexts.resolve? bench.context key kind

/-- The handle of the nearest bench that holds the name. -/
def resolveHandle? (room : Workroom α) (number : Nat) (name : String) :
    Option Handle :=
  HandleMap.resolve? ((room.benches.lineage number).map (·.handles)) name

variable [HoldsScopes α κ]

/-- The scope that new declarations go into. -/
def scope [DecidableEq κ] (room : Workroom α) (bench : Bench) : Except Failure Nat :=
  match
    (room.resolve? bench Context.scopeKey (Context.scopeKind α)).bind
      HoldsScopes.scope? with
  | some number => .ok number
  | none => .error (.configuration (.scope bench.kind.name))

/-- Binds a fresh scope without an enclosing one. -/
def bindScope (room : Workroom α) (bench : Bench) (name : String) : Workroom α :=
  { room with scopes := room.scopes.root name }.bind bench Context.scopeKey
    (HoldsScopes.ofScope room.scopes.size)

/-- Binds a fresh scope inside the current one. -/
def bindInnerScope [DecidableEq κ] (room : Workroom α) (bench : Bench)
    (name : String) : Except Failure (Workroom α) := do
  let outer ← room.scope bench
  pure ({ room with scopes := room.scopes.child outer name }.bind bench
    Context.scopeKey (HoldsScopes.ofScope room.scopes.size))

end Workroom

/-- Benches over contexts that bind settings. -/
abbrev BenchStore := Workroom Setting

end BuildScribe
