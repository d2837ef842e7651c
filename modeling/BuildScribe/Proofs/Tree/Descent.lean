import BuildScribe.Tree.Walk

/-!
# Descent into a tree

Every child of a node is smaller than the node, whichever of its parts the child
comes from. What holds of a node as soon as it holds of its children therefore
holds of every node. The walk lists a node before the walks of its children.
-/

namespace BuildScribe

private theorem Metadata.sizeOf_pos (info : Metadata) : 0 < sizeOf info := by
  cases info
  simp only [Metadata.mk.sizeOf_spec]
  omega

namespace Node

private theorem sizeOf_qualifier_lt {target : Reference} {child : Node}
    (member : child ∈ (reference target).children) :
    sizeOf child < sizeOf (reference target) := by
  cases target with
  | root info name => simp [children, Reference.qualifier?] at member
  | member info qualifier name =>
      have equality : child = reference qualifier := by
        simpa [children, Reference.qualifier?] using member
      subst equality
      simp only [reference.sizeOf_spec, Reference.member.sizeOf_spec]
      omega

private theorem sizeOf_callPart_lt {info : Metadata} {receiver : Option Node}
    {name : String} {typeArguments : List TypeMention} {arguments : List Node}
    {trailing : Option (Block Node)} {child : Node}
    (member :
      child ∈ (call info receiver name typeArguments arguments trailing).children) :
    sizeOf child <
      sizeOf (call info receiver name typeArguments arguments trailing) := by
  simp only [children, List.mem_append, Option.mem_toList, List.mem_map]
    at member
  rcases member with ((onReceiver | ⟨mention, known, rfl⟩) | asArgument) |
    ⟨body, known, rfl⟩
  · subst onReceiver
    simp only [call.sizeOf_spec, Option.some.sizeOf_spec]
    omega
  · have smaller := List.sizeOf_lt_of_mem known
    simp only [call.sizeOf_spec, typeMention.sizeOf_spec]
    omega
  · have smaller := List.sizeOf_lt_of_mem asArgument
    simp only [call.sizeOf_spec]
    omega
  · subst known
    simp only [call.sizeOf_spec, Option.some.sizeOf_spec, block.sizeOf_spec]
    omega

/-- A child is smaller than its node. -/
theorem sizeOf_lt_of_mem_children {node child : Node}
    (member : child ∈ node.children) : sizeOf child < sizeOf node := by
  cases node with
  | reference target => exact sizeOf_qualifier_lt member
  | block body =>
      cases body with
      | mk info statements =>
          have smaller := List.sizeOf_lt_of_mem (show child ∈ statements from member)
          simp only [block.sizeOf_spec, Block.mk.sizeOf_spec]
          omega
  | declaration info name modifiers type initial =>
      simp only [children, List.mem_append, Option.mem_toList, List.mem_map]
        at member
      rcases member with ⟨mention, known, rfl⟩ | known
      · subst known
        simp only [declaration.sizeOf_spec, Option.some.sizeOf_spec,
          typeMention.sizeOf_spec]
        omega
      · subst known
        simp only [declaration.sizeOf_spec, Option.some.sizeOf_spec]
        omega
  | script info imports statements =>
      have smaller := List.sizeOf_lt_of_mem (show child ∈ statements from member)
      simp only [script.sizeOf_spec]
      omega
  | assignment info target value =>
      have positive := info.sizeOf_pos
      rcases List.mem_cons.mp member with rfl | isValue
      · simp only [assignment.sizeOf_spec, reference.sizeOf_spec]
        omega
      · have equality : child = value := List.mem_singleton.mp isValue
        subst equality
        simp only [assignment.sizeOf_spec]
        omega
  | namedBlock info name body =>
      have positive := info.sizeOf_pos
      have equality : child = block body := List.mem_singleton.mp member
      subst equality
      simp only [namedBlock.sizeOf_spec, block.sizeOf_spec]
      omega
  | call info receiver name typeArguments arguments trailing =>
      exact sizeOf_callPart_lt member
  | foreign info kind below =>
      have smaller := List.sizeOf_lt_of_mem (show child ∈ below from member)
      simp only [foreign.sizeOf_spec]
      omega
  | _ => simp [children] at member

/-- What a node inherits from its children holds of every node. -/
theorem descend {motive : Node → Prop}
    (step : ∀ node, (∀ child ∈ node.children, motive child) → motive node)
    (node : Node) : motive node :=
  step node fun child _ => descend step child
termination_by sizeOf node
decreasing_by exact sizeOf_lt_of_mem_children ‹_›

/-- Every node of a tree, each before its children. -/
def walk (node : Node) : List Node :=
  node.preorder.map Prod.snd

/-- The walk meets a node first and then what the walks of its children meet. -/
theorem walk_eq (node : Node) :
    node.walk = node :: node.children.flatMap walk := by
  have unfolded : node.preorder =
      (0, node) :: (node.children.map preorder).flatten.map
        fun met => (met.1 + 1, met.2) :=
    fold_eq _ node
  rw [walk, unfolded, List.map_cons, List.map_map]
  congr 1
  induction node.children with
  | nil => rfl
  | cons child rest ih =>
      rw [List.map_cons, List.flatten_cons, List.map_append, ih,
        List.flatMap_cons]
      rfl

theorem mem_walk_iff {node met : Node} :
    met ∈ node.walk ↔ met = node ∨ ∃ child ∈ node.children, met ∈ child.walk := by
  rw [walk_eq, List.mem_cons, List.mem_flatMap]

theorem mem_walk_self (node : Node) : node ∈ node.walk :=
  mem_walk_iff.mpr (.inl rfl)

theorem mem_walk_of_mem_children {node child met : Node} (isChild : child ∈ node.children)
    (onWalk : met ∈ child.walk) : met ∈ node.walk :=
  mem_walk_iff.mpr (.inr ⟨child, isChild, onWalk⟩)

/-- The walk over a part of a tree meets nodes of the tree only. -/
theorem mem_walk_trans {node part met : Node} (partOf : part ∈ node.walk)
    (metBelow : met ∈ part.walk) : met ∈ node.walk := by
  induction node using descend with
  | step node ih =>
      rcases mem_walk_iff.mp partOf with rfl | ⟨child, isChild, onChild⟩
      · exact metBelow
      · exact mem_walk_of_mem_children isChild (ih child isChild onChild)

end Node

end BuildScribe
