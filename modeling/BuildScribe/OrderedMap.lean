/-!
# Maps in insertion order

An `OrderedMap` lists its entries in the order in which their keys were first
inserted. Inserting a key again replaces its value and keeps its place.
-/

namespace BuildScribe

/-- Entries in the order of their keys' first insertion. -/
structure OrderedMap (κ α : Type) where
  entries : List (κ × α) := []
deriving DecidableEq, Repr

namespace OrderedMap

variable {κ α : Type} [DecidableEq κ]

/-- Replaces the value of a key in place, or adds the key at the end. -/
def insertEntry (key : κ) (value : α) : List (κ × α) → List (κ × α)
  | [] => [(key, value)]
  | entry :: rest =>
      if entry.1 = key then (key, value) :: rest
      else entry :: insertEntry key value rest

def empty : OrderedMap κ α := ⟨[]⟩

def insert (map : OrderedMap κ α) (key : κ) (value : α) : OrderedMap κ α :=
  ⟨insertEntry key value map.entries⟩

def get? (map : OrderedMap κ α) (key : κ) : Option α :=
  (map.entries.find? fun entry => entry.1 = key).map (·.2)

def contains (map : OrderedMap κ α) (key : κ) : Bool :=
  map.entries.any fun entry => entry.1 = key

omit [DecidableEq κ] in
def keys (map : OrderedMap κ α) : List κ :=
  map.entries.map (·.1)

omit [DecidableEq κ] in
def values (map : OrderedMap κ α) : List α :=
  map.entries.map (·.2)

omit [DecidableEq κ] in
def size (map : OrderedMap κ α) : Nat :=
  map.entries.length

def ofList (entries : List (κ × α)) : OrderedMap κ α :=
  entries.foldl (fun map entry => map.insert entry.1 entry.2) empty

end OrderedMap

end BuildScribe
