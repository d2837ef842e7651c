import BuildScribe.Proofs.Tree.Descent
import BuildScribe.Tree.Edit
import Mathlib.Data.List.Basic

/-!
# Rewriting literals

An editor that puts another literal in the place of each literal and edits the statements of
each block reaches a literal only if all nodes above it are blocks. It keeps every other node
that it reaches, with all that is below it. Rewriting by one function and then by another is
rewriting by both at once.
-/

namespace BuildScribe

/-- A literal with what it carries beside its value. -/
structure Literal where
  info : Metadata
  value : LiteralValue

def Literal.node (literal : Literal) : Node :=
  .literal literal.info literal.value

namespace Node

def isLiteral : Node → Bool
  | literal _ _ => true
  | _ => false

def isBlock : Node → Bool
  | block _ => true
  | _ => false

/-- Induction along the blocks of a tree. Of a node that is neither a literal nor a block
nothing is assumed for its children. -/
theorem throughBlocks {motive : Node → Prop}
    (onLiteral : ∀ info value, motive (literal info value))
    (onBlock : ∀ body : Block Node,
      (∀ statement ∈ body.statements, motive statement) → motive (block body))
    (onOther : ∀ node, node.isLiteral = false → node.isBlock = false → motive node)
    (node : Node) : motive node := by
  induction node using descend with
  | step node ih =>
      cases node with
      | literal info value => exact onLiteral info value
      | block body => exact onBlock body ih
      | _ => exact onOther _ rfl rfl

/-- A node on the walk over a tree, with its depth and whether all nodes above it are
blocks. -/
structure Visit where
  depth : Nat
  reached : Bool
  node : Node

namespace Visit

/-- The visit of the same node in the walk that starts at `above`. -/
def below (above : Node) (visit : Visit) : Visit :=
  ⟨visit.depth + 1, above.isBlock && visit.reached, visit.node⟩

theorem below_of_not_block {above : Node} (noBlock : above.isBlock = false) (visit : Visit) :
    visit.below above = ⟨visit.depth + 1, false, visit.node⟩ := by
  rw [below, noBlock, Bool.false_and]

end Visit

/-- The nodes of a tree in the order of the walk. -/
def visits (node : Node) : List Visit :=
  node.fold fun visited below =>
    ⟨0, true, visited⟩ :: below.flatten.map (Visit.below visited)

theorem visits_eq (node : Node) :
    node.visits =
      ⟨0, true, node⟩ :: (node.children.flatMap visits).map (Visit.below node) := by
  rw [List.flatMap_def]
  exact fold_eq _ node

theorem preorder_eq (node : Node) :
    node.preorder =
      (0, node) :: (node.children.flatMap preorder).map fun met => (met.1 + 1, met.2) := by
  rw [List.flatMap_def]
  exact fold_eq _ node

/-- Apart from what is known about the way to a node, the visits are the walk. -/
theorem map_visits (node : Node) :
    node.visits.map (fun visit => (visit.depth, visit.node)) = node.preorder := by
  induction node using descend with
  | step node ih =>
      have children : node.children.flatMap preorder =
          (node.children.flatMap visits).map fun visit => (visit.depth, visit.node) := by
        rw [List.map_flatMap]
        exact List.flatMap_congr fun child isChild => (ih child isChild).symm
      rw [visits_eq, preorder_eq, children, List.map_cons, List.map_map, List.map_map]
      rfl

end Node

namespace Editor

/-- Puts another literal in the place of each literal that it reaches. -/
def rewriting (change : Literal → Literal) : Editor :=
  onLiterals fun info value => .replace (change ⟨info, value⟩).node

theorem applyList_eq_map (editor : Editor) (nodes : List Node) :
    editor.applyList nodes = nodes.map editor.apply := by
  induction nodes with
  | nil => rfl
  | cons node rest ih => rw [applyList, ih, List.map_cons]

variable (change : Literal → Literal)

theorem apply_rewriting_block (body : Block Node) :
    (rewriting change).apply (.block body) =
      .block ⟨body.info, body.statements.map (rewriting change).apply⟩ := by
  cases body
  rw [apply, applyBlock, applyList_eq_map]
  rfl

/-- No tag makes the editor do anything to a node. -/
theorem pick?_ofCategory_rewriting (category : Category) :
    (Hook.ofCategory category).pick? (rewriting change).hooks = none := by
  cases category <;> rfl

theorem decision_rewriting_of_other {node : Node} (noLiteral : node.isLiteral = false)
    (noBlock : node.isBlock = false) : (rewriting change).decision node = .keep := by
  cases node with
  | literal => cases noLiteral
  | block => cases noBlock
  | reference => rfl
  | _ =>
      rw [decision, Node.hook, pick?_ofCategory_rewriting]
      · rfl
      all_goals intros; contradiction

theorem apply_rewriting_of_other {node : Node} (noLiteral : node.isLiteral = false)
    (noBlock : node.isBlock = false) : (rewriting change).apply node = node := by
  have kept := decision_rewriting_of_other change noLiteral noBlock
  cases node with
  | block => cases noBlock
  | _ =>
      rw [apply, kept]
      rintro _ ⟨⟩

/-- The node that stands, after rewriting, where a visited node stood. -/
def rewritten : Node.Visit → Node
  | ⟨_, true, .literal info value⟩ => (change ⟨info, value⟩).node
  | ⟨_, true, .block body⟩ =>
      .block ⟨body.info, body.statements.map (rewriting change).apply⟩
  | ⟨_, _, node⟩ => node

theorem rewritten_unreached (depth : Nat) (node : Node) :
    rewritten change ⟨depth, false, node⟩ = node := by
  cases node <;> rfl

theorem rewritten_below_block (body : Block Node) (visit : Node.Visit) :
    rewritten change (visit.below (.block body)) = rewritten change visit := by
  obtain ⟨depth, reached, node⟩ := visit
  cases reached with
  | false =>
      rw [rewritten_unreached]
      exact rewritten_unreached change _ node
  | true => cases node <;> rfl

theorem rewritten_of_other (depth : Nat) (reached : Bool) {node : Node}
    (noLiteral : node.isLiteral = false) (noBlock : node.isBlock = false) :
    rewritten change ⟨depth, reached, node⟩ = node := by
  cases node with
  | literal => cases noLiteral
  | block => cases noBlock
  | _ => cases reached <;> rfl

/-- Rewriting changes neither the kind of a node nor what it carries, unless the node is a
literal that is reached. -/
theorem rewritten_preserves {visit : Node.Visit}
    (untouched : (visit.reached && visit.node.isLiteral) = false) :
    (rewritten change visit).kindName = visit.node.kindName ∧
      (rewritten change visit).info = visit.node.info := by
  obtain ⟨depth, reached, node⟩ := visit
  cases reached with
  | false => rw [rewritten_unreached]; exact ⟨rfl, rfl⟩
  | true =>
      cases node with
      | literal => cases untouched
      | _ => exact ⟨rfl, rfl⟩

theorem preorder_block_rewriting {body : Block Node}
    (ofStatements : ∀ statement ∈ body.statements,
      ((rewriting change).apply statement).preorder =
        statement.visits.map fun visit => (visit.depth, rewritten change visit)) :
    ((rewriting change).apply (.block body)).preorder =
      (Node.block body).visits.map fun visit => (visit.depth, rewritten change visit) := by
  have below :
      (body.statements.map (rewriting change).apply).flatMap Node.preorder =
        (body.statements.flatMap Node.visits).map fun visit =>
          (visit.depth, rewritten change visit) := by
    rw [List.flatMap_map, List.map_flatMap]
    exact List.flatMap_congr ofStatements
  have children : (Node.block body).children = body.statements := rfl
  rw [apply_rewriting_block, Node.preorder_eq, Node.visits_eq, children, List.map_cons,
    List.map_map]
  congr 1
  rw [Node.children, below, List.map_map]
  refine List.map_congr_left fun visit _ => ?_
  exact congrArg (Prod.mk (visit.depth + 1)) (rewritten_below_block change body visit).symm

theorem preorder_of_other {node : Node} (noLiteral : node.isLiteral = false)
    (noBlock : node.isBlock = false) :
    node.preorder =
      node.visits.map fun visit => (visit.depth, rewritten change visit) := by
  rw [← Node.map_visits]
  refine List.map_congr_left fun visit isVisit => ?_
  rw [Node.visits_eq, List.mem_cons, List.mem_map] at isVisit
  obtain rfl | ⟨inner, -, rfl⟩ := isVisit
  · rw [rewritten_of_other change 0 true noLiteral noBlock]
  · rw [Node.Visit.below_of_not_block noBlock, rewritten_unreached]

/-- The walk over the rewritten tree meets, one after the other, what has become of the
nodes of the tree. -/
theorem preorder_apply_rewriting (tree : Node) :
    ((rewriting change).apply tree).preorder =
      tree.visits.map fun visit => (visit.depth, rewritten change visit) := by
  induction tree using Node.throughBlocks with
  | onLiteral info value => rfl
  | onBlock body ih => exact preorder_block_rewriting change ih
  | onOther node noLiteral noBlock =>
      rw [apply_rewriting_of_other change noLiteral noBlock]
      exact preorder_of_other change noLiteral noBlock

/-- A literal or a block is not kept, even if an equal node takes its place. -/
theorem keeps_rewriting (node : Node) :
    (rewriting change).keeps node = (!node.isLiteral && !node.isBlock) := by
  cases node using Node.throughBlocks with
  | onLiteral info value => rfl
  | onBlock body => rfl
  | onOther node noLiteral noBlock =>
      rw [noLiteral, noBlock]
      unfold keeps
      rw [decision_rewriting_of_other change noLiteral noBlock]
      rfl

theorem apply_rewriting_id (tree : Node) : (rewriting id).apply tree = tree := by
  induction tree using Node.throughBlocks with
  | onLiteral info value => rfl
  | onBlock body ih =>
      have statements : body.statements.map (rewriting id).apply = body.statements := by
        rw [List.map_congr_left ih, List.map_id']
      rw [apply_rewriting_block, statements]
  | onOther node noLiteral noBlock => exact apply_rewriting_of_other id noLiteral noBlock

theorem apply_rewriting_comp (first second : Literal → Literal) (tree : Node) :
    (rewriting second).apply ((rewriting first).apply tree) =
      (rewriting (second ∘ first)).apply tree := by
  induction tree using Node.throughBlocks with
  | onLiteral info value => rfl
  | onBlock body ih =>
      have statements :
          (body.statements.map (rewriting first).apply).map (rewriting second).apply =
            body.statements.map (rewriting (second ∘ first)).apply := by
        rw [List.map_map]
        exact List.map_congr_left ih
      rw [apply_rewriting_block, apply_rewriting_block, apply_rewriting_block, statements]
  | onOther node noLiteral noBlock =>
      have same (change : Literal → Literal) : (rewriting change).apply node = node :=
        apply_rewriting_of_other change noLiteral noBlock
      rw [same, same, same]

/-- Rewriting by the identity gives the tree back, and one rewriting after another is the
rewriting by the composition. The walk over a rewritten tree has the depths of the walk over
the tree. A reached literal is the changed one, and nothing else changes its kind or what it
carries. A node with a node above it that is no block stays the same, and so does every node
that is neither a literal nor a block, which is kept down to its last part. -/
theorem rewriting_functorial :
    (∀ tree, (rewriting id).apply tree = tree) ∧
      (∀ first second tree,
        (rewriting second).apply ((rewriting first).apply tree) =
          (rewriting (second ∘ first)).apply tree) ∧
      ∀ change tree,
        tree.visits.map (fun visit => (visit.depth, visit.node)) = tree.preorder ∧
        ((rewriting change).apply tree).preorder =
          tree.visits.map (fun visit => (visit.depth, rewritten change visit)) ∧
        (∀ depth literal,
          rewritten change ⟨depth, true, literal.node⟩ = (change literal).node) ∧
        (∀ visit, (visit.reached && visit.node.isLiteral) = false →
          (rewritten change visit).kindName = visit.node.kindName ∧
            (rewritten change visit).info = visit.node.info) ∧
        (∀ depth node, rewritten change ⟨depth, false, node⟩ = node) ∧
        ∀ node, node.isLiteral = false → node.isBlock = false →
          (∀ depth reached, rewritten change ⟨depth, reached, node⟩ = node) ∧
            (rewriting change).apply node = node ∧
            (rewriting change).keeps node = true := by
  refine ⟨apply_rewriting_id, apply_rewriting_comp, fun change tree => ?_⟩
  refine ⟨tree.map_visits, preorder_apply_rewriting change tree, fun _ _ => rfl, ?_, ?_, ?_⟩
  · exact fun visit untouched => rewritten_preserves change untouched
  · exact fun depth node => rewritten_unreached change depth node
  · intro node noLiteral noBlock
    have kept := keeps_rewriting change node
    rw [noLiteral, noBlock] at kept
    exact ⟨fun depth reached => rewritten_of_other change depth reached noLiteral noBlock,
      apply_rewriting_of_other change noLiteral noBlock, kept⟩

/-- A foreign node is kept with the literal below it, even if it is tagged as a block. In a
block, next to that node, the same literal is changed. -/
theorem rewriting_beside_tagged_block :
    let absent := Node.literal ⟨.literal, none, .empty⟩ .null
    let tagged := Node.foreign ⟨.block, none, .empty⟩ "Custom" [absent]
    let settle := fun literal : Literal => ⟨literal.info, .boolean true⟩
    ((rewriting settle).apply tagged = tagged ∧ (rewriting settle).keeps tagged = true) ∧
      (rewriting settle).apply (.block (.of [absent, .block (.of [absent, tagged])])) =
        .block (.of [.literal ⟨.literal, none, .empty⟩ (.boolean true),
          .block (.of [.literal ⟨.literal, none, .empty⟩ (.boolean true), tagged])]) := by
  intro absent tagged settle
  obtain ⟨-, -, -, -, -, others⟩ := rewriting_functorial.2.2 settle tagged
  exact ⟨(others tagged rfl rfl).2, rfl⟩

end Editor

end BuildScribe
