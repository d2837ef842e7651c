import BuildScribe.Tree.Walk

/-!
# Visitors

A visitor answers at the granularity of categories. Literals, references and
blocks have hooks of their own; every other node goes by its tag, and a node that
is merely tagged like one of the three has a `…Like` hook. A hook that a visitor
does not fill falls back along `Hook.chain`, and at last to the visitor's
`otherwise`.
-/

namespace BuildScribe

/-- The places at which a visitor may answer for a node. -/
inductive Hook where
  | literal
  | reference
  | block
  | expression
  | statement
  | declaration
  | type
  /-- Tagged as a literal without being one. -/
  | literalLike
  /-- Tagged as a reference without being one. -/
  | referenceLike
  /-- Tagged as a block without being one. -/
  | blockLike
deriving DecidableEq

namespace Hook

def ofCategory : Category → Hook
  | .expression => expression
  | .statement => statement
  | .declaration => declaration
  | .block => blockLike
  | .literal => literalLike
  | .reference => referenceLike
  | .type => type

/-- The hooks that are asked in turn, starting with the given one. -/
def chain : Hook → List Hook
  | literalLike => [literalLike, expression]
  | referenceLike => [referenceLike, expression]
  | hook => [hook]

/-- What the first filled hook of the chain holds. -/
def pick? {β : Type} (filled : Hook → Option β) (hook : Hook) : Option β :=
  hook.chain.findSome? filled

end Hook

/-- The hook of a node. The three kinds with hooks of their own go there whatever
their tag is. -/
def Node.hook : Node → Hook
  | .literal _ _ => .literal
  | .reference _ => .reference
  | .block _ => .block
  | node => .ofCategory node.info.category

/-- Answers for the nodes of a tree, given the answers for their children. -/
structure Visitor (α : Type) where
  hooks : Hook → Option (Node → List α → α)
  otherwise : Node → List α → α

namespace Visitor

variable {α : Type}

def answer (visitor : Visitor α) (node : Node) : List α → α :=
  match node.hook.pick? visitor.hooks with
  | some own => own node
  | none => visitor.otherwise node

def visit (visitor : Visitor α) (node : Node) : α :=
  node.fold visitor.answer

/-- Every filled hook, and `otherwise`, records the node and then visits its
children; the record tells the hook, or none for `otherwise`. -/
def recording (filled : Hook → Bool) : Visitor (List (Option Hook × Node)) :=
  { hooks := fun hook =>
      if filled hook then
        some fun node below => (some hook, node) :: below.flatten
      else
        none
    otherwise := fun node below => (none, node) :: below.flatten }

end Visitor

end BuildScribe
