/-!
# Forests of numbered entries

Entries are numbered in the order of their creation, and each one either is a
root or has an earlier entry as its parent. The newest entry stands first, so
the ancestors of an entry are found by going down the list once.
-/

namespace BuildScribe

/-- Entries with their parents, newest first. -/
structure Forest (α : Type) where
  nodes : List (Option Nat × α) := []

namespace Forest

variable {α : Type}

def empty : Forest α := ⟨[]⟩

/-- The number of entries, which is the number of the next one. -/
def size (forest : Forest α) : Nat :=
  forest.nodes.length

/-- Adds an entry; its number is the size before. -/
def add (forest : Forest α) (parent : Option Nat) (value : α) : Forest α :=
  ⟨(parent, value) :: forest.nodes⟩

def lineageIn : List (Option Nat × α) → Nat → List α
  | [], _ => []
  | (parent, value) :: older, number =>
      if number = older.length then
        value ::
          match parent with
          | none => []
          | some above => lineageIn older above
      else
        lineageIn older number

/-- The entry with a number, followed by its ancestors up to the root. -/
def lineage (forest : Forest α) (number : Nat) : List α :=
  lineageIn forest.nodes number

def get? (forest : Forest α) (number : Nat) : Option α :=
  (forest.lineage number).head?

def modifyIn (change : α → α) : List (Option Nat × α) → Nat → List (Option Nat × α)
  | [], _ => []
  | (parent, value) :: older, number =>
      if number = older.length then (parent, change value) :: older
      else (parent, value) :: modifyIn change older number

def modify (forest : Forest α) (number : Nat) (change : α → α) : Forest α :=
  ⟨modifyIn change forest.nodes number⟩

end Forest

end BuildScribe
