import BuildScribe.Tree.Node

/-!
# Walks over a tree

`Node.fold` gathers a result from every node and the results of its children.
The pre-order walk with depths and the number of nodes are folds.
-/

namespace BuildScribe

variable {α : Type}

def Reference.fold (visit : Node → List α → α) : Reference → α
  | .root info name => visit (.reference (.root info name)) []
  | .member info qualifier name =>
      visit (.reference (.member info qualifier name)) [qualifier.fold visit]

def TypeMention.fold (visit : Node → List α → α) (mention : TypeMention) : α :=
  visit (.typeMention mention) []

namespace Node

mutual

/-- Gathers a result bottom-up: `visit` sees a node and the results of its
children in order. -/
def fold (visit : Node → List α → α) : Node → α
  | literal info value => visit (literal info value) []
  | reference target => target.fold visit
  | block body => foldBlock visit body
  | typeMention mention => mention.fold visit
  | declaration info name modifiers type initial =>
      visit (declaration info name modifiers type initial)
        (type.toList.map (·.fold visit) ++ (foldOption visit initial).toList)
  | comment info text => visit (comment info text) []
  | script info imports statements =>
      visit (script info imports statements) (foldList visit statements)
  | assignment info target value =>
      visit (assignment info target value) [target.fold visit, fold visit value]
  | namedBlock info name body =>
      visit (namedBlock info name body) [foldBlock visit body]
  | call info receiver name typeArguments arguments trailing =>
      visit (call info receiver name typeArguments arguments trailing)
        ((foldOption visit receiver).toList ++
          typeArguments.map (·.fold visit) ++ foldList visit arguments ++
          (foldOptionBlock visit trailing).toList)
  | plugin info spec => visit (plugin info spec) []
  | component info name => visit (component info name) []
  | mavenRepository info url => visit (mavenRepository info url) []
  | foreign info kind children =>
      visit (foreign info kind children) (foldList visit children)

def foldList (visit : Node → List α → α) : List Node → List α
  | [] => []
  | node :: rest => fold visit node :: foldList visit rest

def foldOption (visit : Node → List α → α) : Option Node → Option α
  | none => none
  | some node => some (fold visit node)

def foldBlock (visit : Node → List α → α) : Block Node → α
  | ⟨info, statements⟩ =>
      visit (block ⟨info, statements⟩) (foldList visit statements)

def foldOptionBlock (visit : Node → List α → α) : Option (Block Node) → Option α
  | none => none
  | some body => some (foldBlock visit body)

end

/-- Every node with its depth, each before its children. -/
def preorder (node : Node) : List (Nat × Node) :=
  node.fold fun visited below =>
    (0, visited) :: below.flatten.map fun (depth, inner) => (depth + 1, inner)

def count (node : Node) : Nat :=
  node.fold fun _ below => below.foldr (· + ·) 1

theorem foldList_eq_map (visit : Node → List α → α) (nodes : List Node) :
    foldList visit nodes = nodes.map (fold visit) := by
  induction nodes with
  | nil => rfl
  | cons node rest ih => simp [foldList, ih]

theorem foldOption_eq_map (visit : Node → List α → α) (node? : Option Node) :
    foldOption visit node? = node?.map (fold visit) := by
  cases node? <;> rfl

theorem foldBlock_eq (visit : Node → List α → α) (body : Block Node) :
    foldBlock visit body = fold visit (block body) := by
  rw [fold]

theorem foldOptionBlock_eq_map (visit : Node → List α → α)
    (body? : Option (Block Node)) :
    foldOptionBlock visit body? = body?.map fun body => fold visit (block body) := by
  cases body? with
  | none => rfl
  | some body => simp [foldOptionBlock, foldBlock_eq]

/-- A fold sees every node together with the results of exactly its children. -/
theorem fold_eq (visit : Node → List α → α) (node : Node) :
    node.fold visit = visit node (node.children.map (fold visit)) := by
  cases node with
  | reference target => cases target <;> rfl
  | block body =>
      cases body
      simp [fold, foldBlock, children, foldList_eq_map]
  | declaration info name modifiers type initial =>
      cases type <;> cases initial <;> rfl
  | call info receiver name typeArguments arguments trailing =>
      simp only [fold, children, foldOption_eq_map, foldList_eq_map,
        foldOptionBlock_eq_map, List.map_append, List.map_map]
      congr 1
      cases receiver <;> cases trailing <;> rfl
  | script info imports statements => simp [fold, children, foldList_eq_map]
  | foreign info kind children => simp [fold, Node.children, foldList_eq_map]
  | namedBlock info name body => cases body; rfl
  | _ => rfl

end Node

end BuildScribe
