import BuildScribe.OrderedMap
import BuildScribe.Scoping.Forest
import BuildScribe.Text.Quoted

/-!
# Contexts

A context binds keys to values of any types, and every context but a root has an
outer one. A lookup asks for a value of a certain kind, which is its static type: a
binding of another kind counts as absent, so the lookup goes on outwards. Bindings
are only ever made in the context itself.
-/

namespace BuildScribe

/-- Values that contexts can bind. Each has a static type, its kind. -/
class HasKind (α : Type) (κ : outParam Type) where
  kind : α → κ

/-- Values among which are scopes, each known by its number: they are the values of
one kind. -/
class HoldsScopes (α : Type) (κ : outParam Type) extends HasKind α κ where
  scopeKind : κ
  ofScope : Nat → α
  scope? : α → Option Nat
  scope?_ofScope (number : Nat) : scope? (ofScope number) = some number
  isSome_scope?_iff (value : α) : (scope? value).isSome ↔ kind value = scopeKind

inductive Setting where
  | integer (value : Int)
  | text (value : String)
  | flag (value : Bool)
  /-- A scope, by its number. -/
  | scope (number : Nat)
deriving DecidableEq

inductive SettingKind where
  | integer
  | text
  | flag
  | scope
deriving DecidableEq

def Setting.kind : Setting → SettingKind
  | integer _ => .integer
  | text _ => .text
  | flag _ => .flag
  | scope _ => .scope

def Setting.scope? : Setting → Option Nat
  | scope number => some number
  | _ => none

instance : HoldsScopes Setting SettingKind where
  kind := Setting.kind
  scopeKind := .scope
  ofScope := .scope
  scope? := Setting.scope?
  scope?_ofScope _ := rfl
  isSome_scope?_iff value := by
    cases value <;> simp [Setting.scope?, Setting.kind]

/-- The bindings of one context. -/
abbrev Context (α : Type) := OrderedMap String α

namespace Context

section Lookup

variable {α κ : Type} [HasKind α κ] [DecidableEq κ]

/-- The local value of a key, if it is of the kind that is asked for. -/
def local? (context : Context α) (key : String) (kind : κ) : Option α :=
  (context.get? key).filter fun value => HasKind.kind value = kind

/-- The value of the nearest context that binds the key to the kind; the
innermost context stands first. -/
def resolve? (lineage : List (Context α)) (key : String) (kind : κ) : Option α :=
  lineage.findSome? (·.local? key kind)

end Lookup

section Text

variable {α : Type}

/-- How a context shows itself: its keys in order, then the outer context. -/
def debugText : List (Context α) → String
  | [] => "None"
  | [root] => shown root "None"
  | context :: outer :: rest =>
      shown context ("Some(" ++ debugText (outer :: rest) ++ ")")
where
  shown (context : Context α) (outer : String) : String :=
    "Context \x7b keys: [" ++
      String.intercalate ", " (context.keys.map quoted) ++
      "], parent: " ++ outer ++ " \x7d"

end Text

def keyText (key : String) : String :=
  "ContextKey(" ++ key ++ ")"

def languageKey : String := "language"

def scopeKey : String := "currentScope"

/-- The kind of the current scope. -/
def scopeKind (α : Type) {κ : Type} [HoldsScopes α κ] : κ :=
  HoldsScopes.scopeKind (α := α)

end Context

abbrev Contexts (α : Type) := Forest (Context α)

namespace Contexts

variable {α κ : Type}

def root (contexts : Contexts α) : Contexts α :=
  contexts.add none .empty

def child (contexts : Contexts α) (outer : Nat) : Contexts α :=
  contexts.add (some outer) .empty

/-- Binds a key in one context, in the place of an earlier binding. -/
def bind (contexts : Contexts α) (number : Nat) (key : String) (value : α) :
    Contexts α :=
  contexts.modify number (·.insert key value)

def resolve? [HasKind α κ] [DecidableEq κ] (contexts : Contexts α) (number : Nat)
    (key : String) (kind : κ) : Option α :=
  Context.resolve? (contexts.lineage number) key kind

/-- Whether the context itself binds a key, to whatever kind. -/
def bindsLocally (contexts : Contexts α) (number : Nat) (key : String) : Bool :=
  ((contexts.get? number).map (·.contains key)).getD false

def depth (contexts : Contexts α) (number : Nat) : Nat :=
  (contexts.lineage number).length - 1

def debugText (contexts : Contexts α) (number : Nat) : String :=
  Context.debugText (contexts.lineage number)

end Contexts

/-- Contexts that bind settings. -/
abbrev ContextForest := Contexts Setting

end BuildScribe
