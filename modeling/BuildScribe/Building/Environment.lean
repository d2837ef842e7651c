import BuildScribe.Context.BuildKind
import BuildScribe.Context.Handle
import BuildScribe.Scoping.Scope

/-!
# Environments of builders

A builder works in the innermost of several layers. Scope, imports and handles are
looked up from the inside out; new scopes, imports and handles go to the innermost
layer, and a declaration goes to the innermost scope.
-/

namespace BuildScribe

/-- Import paths without repetitions, in ascending order. -/
abbrev ImportSet := List String

namespace ImportSet

/-- Adds a path at its place, unless it is there. -/
def insert (path : String) : ImportSet → ImportSet
  | [] => [path]
  | other :: rest =>
      if path = other then other :: rest
      else if path < other then path :: other :: rest
      else other :: insert path rest

end ImportSet

/-- What one layer adds to the layers around it. -/
structure Layer where
  scope : Option Scope := none
  imports : Option ImportSet := none
  handles : HandleMap := .empty

/-- The layer of a builder and the layers around it, the next one first. -/
structure Environment where
  kind : BuildKind
  own : Layer
  outer : List Layer

namespace Environment

def layers (environment : Environment) : List Layer :=
  environment.own :: environment.outer

/-- The scopes from the current one outwards. -/
def scopes (environment : Environment) : List Scope :=
  environment.layers.filterMap (·.scope)

/-- The scope that new declarations go into. -/
def currentScope (environment : Environment) : Except Failure Scope :=
  match environment.scopes with
  | [] => .error (.configuration (.scope environment.kind.name))
  | scope :: _ => .ok scope

/-- The imports of the innermost layer that has any. -/
def imports (environment : Environment) : ImportSet :=
  (environment.layers.findSome? (·.imports)).getD []

def resolveHandle? (environment : Environment) (name : String) : Option Handle :=
  HandleMap.resolve? (environment.layers.map (·.handles)) name

def resolveSymbol? (environment : Environment) (name : String) : Option Symbol :=
  Scope.resolve? environment.scopes name

def replaceScope (scope : Scope) : List Layer → List Layer
  | [] => []
  | layer :: outer =>
      match layer.scope with
      | some _ => { layer with scope := some scope } :: outer
      | none => layer :: replaceScope scope outer

/-- The environment with other layers in the place of its own ones. -/
def withLayers (environment : Environment) : List Layer → Environment
  | [] => environment
  | own :: outer => { environment with own := own, outer := outer }

def define (environment : Environment) (symbol : Symbol) :
    Except Failure Environment := do
  let scope ← environment.currentScope
  let defined ← scope.define symbol.name symbol
  pure (environment.withLayers (replaceScope defined environment.layers))

/-- Adds an import. The innermost layer takes over the imports found so far. -/
def addImport (environment : Environment) (path : String) : Environment :=
  { environment with
    own :=
      { environment.own with
        imports := some (ImportSet.insert path environment.imports) } }

def push (environment : Environment) (layer : Layer) : Environment :=
  { environment with own := layer, outer := environment.layers }

/-- Opens a layer with a scope inside the current one. -/
def enter (environment : Environment) (name : String) :
    Except Failure Environment := do
  let _ ← environment.currentScope
  pure (environment.push { scope := some (.fresh name) })

def leave (environment : Environment) : Environment :=
  environment.withLayers environment.outer

end Environment

end BuildScribe
