import BuildScribe.Tree.Node

/-!
# Handles

A handle names an object that lives outside the block being built, so that other
blocks can point at it. Handles are found by name, the innermost first.
-/

namespace BuildScribe

/-- A named object and the name of its type. -/
structure Handle where
  name : String
  typeName : String
deriving DecidableEq

namespace Handle

def child (handle : Handle) (property : String) : Handle :=
  ⟨handle.name ++ "." ++ property, "Any"⟩

/-- The reference to what the handle names. Every point of the name separates two
names, also where one of them is empty. -/
def toReference (handle : Handle) : Reference :=
  .ofSegments (pathSegments handle.name)

end Handle

abbrev HandleMap := OrderedMap String Handle

namespace HandleMap

/-- Enters a handle, in the place of an earlier one of the same name. -/
def register (handles : HandleMap) (handle : Handle) : HandleMap :=
  handles.insert handle.name handle

/-- The handle of the innermost map that holds the name. -/
def resolve? (lineage : List HandleMap) (name : String) : Option Handle :=
  lineage.findSome? (·.get? name)

end HandleMap

end BuildScribe
