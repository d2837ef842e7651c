import BuildScribe.Tree.Hook

/-!
# Editing trees

An editor decides for a node whether it stays, is replaced, or, if it is a
block, gets its statements edited. Nodes that are kept are not descended
into, so a kept node stays the same down to its last part.
-/

namespace BuildScribe

/-- What becomes of a node. -/
inductive Edit where
  | keep
  | replace (node : Node)
  /-- A block keeps its metadata and has every statement edited. Any other node
  is kept. -/
  | descend

/-- Decides by the hook of a node what becomes of it. -/
structure Editor where
  hooks : Hook → Option (Node → Edit)
  otherwise : Node → Edit

namespace Editor

def decision (editor : Editor) (node : Node) : Edit :=
  match node.hook.pick? editor.hooks with
  | some own => own node
  | none => editor.otherwise node

mutual

def apply (editor : Editor) : Node → Node
  | .block body => editor.applyBlock body
  | node =>
      match editor.decision node with
      | .replace other => other
      | _ => node

def applyBlock (editor : Editor) : Block Node → Node
  | ⟨info, statements⟩ =>
      match editor.decision (.block ⟨info, statements⟩) with
      | .keep => .block ⟨info, statements⟩
      | .replace other => other
      | .descend => .block ⟨info, editor.applyList statements⟩

def applyList (editor : Editor) : List Node → List Node
  | [] => []
  | node :: rest => editor.apply node :: editor.applyList rest

end

/-- Whether a node is kept as it is, and not only an equal node put in its
place. -/
def keeps (editor : Editor) (node : Node) : Bool :=
  match editor.decision node, node with
  | .keep, _ => true
  | .replace _, _ => false
  | .descend, .block _ => false
  | .descend, _ => true

/-- For every child of the edited root that has a counterpart, whether it is
kept from the root before. A kept root keeps all of its children. -/
def keptChildren (editor : Editor) (node : Node) : List Bool :=
  if editor.keeps node then
    node.children.map fun _ => true
  else
    match editor.decision node with
    | .replace other =>
        (other.children.zip node.children).map fun _ => false
    | _ => node.children.map editor.keeps

def keepAll : Editor :=
  { hooks := fun _ => none
    otherwise := fun _ => .keep }

def onLiterals (change : Metadata → LiteralValue → Edit) : Editor :=
  { hooks := fun
      | .literal => some fun
          | .literal info value => change info value
          | _ => .keep
      | .block => some fun _ => .descend
      | _ => none
    otherwise := fun _ => .keep }

end Editor

end BuildScribe
