import BuildScribe.Proofs.Tree.Descent
import BuildScribe.Tree.Hook

/-!
# Visits follow the walk

A visitor whose hooks record a node and then visit its children meets the nodes of a
tree in the order of the walk, each of them once. A node is recorded by the first
filled hook among its fallbacks. Visitors that keep a state do the same to it.
-/

namespace BuildScribe

variable {α σ : Type}

/-- The hooks that answer in turn for a node that goes by its tag. Tags of literals
and references lead on to the hook of expressions. -/
def Category.fallbacks : Category → List Hook
  | expression => [.expression]
  | statement => [.statement]
  | declaration => [.declaration]
  | block => [.blockLike]
  | literal => [.literalLike, .expression]
  | reference => [.referenceLike, .expression]
  | type => [.type]

namespace Node

/-- The hooks that answer in turn for a node, before a visitor's `otherwise`.
Literals, references and blocks have one hook each, whatever their tag is. -/
def fallbacks : Node → List Hook
  | literal _ _ => [.literal]
  | reference _ => [.reference]
  | block _ => [.block]
  | node => node.info.category.fallbacks

theorem chain_ofCategory (category : Category) :
    (Hook.ofCategory category).chain = category.fallbacks := by
  cases category <;> rfl

theorem chain_hook (node : Node) : node.hook.chain = node.fallbacks := by
  cases node with
  | literal => rfl
  | reference => rfl
  | block => rfl
  | _ => exact chain_ofCategory _

/-- The walk is as long as the number of nodes. -/
theorem length_walk (node : Node) : node.walk.length = node.count := by
  induction node using descend with
  | step node ih =>
      have counted : node.count = (node.children.map count).foldr (· + ·) 1 := fold_eq _ node
      rw [walk_eq, List.length_cons, counted]
      generalize node.children = children at ih ⊢
      induction children with
      | nil => rfl
      | cons child rest others =>
          rw [List.forall_mem_cons] at ih
          rw [List.flatMap_cons, List.length_append, List.map_cons, List.foldr_cons,
            ← others ih.2, ih.1, Nat.add_assoc]

end Node

namespace Visitor

/-- A visitor that does the same at every filled hook and at `otherwise`, and is told
where it does. -/
def alike (filled : Hook → Bool) (own : Option Hook → Node → List α → α) : Visitor α :=
  { hooks := fun hook => if filled hook then some (own (some hook)) else none
    otherwise := own none }

/-- Runs changes of a state one after the other. -/
def runAll (changes : List (σ → σ)) (state : σ) : σ :=
  changes.foldl (fun state change => change state) state

/-- Every filled hook, and `otherwise`, notes the node in a state and then visits the
children with what has become of the state. -/
def noting (filled : Hook → Bool) (note : Option Hook → Node → σ → σ) : Visitor (σ → σ) :=
  alike filled fun hook node below state => runAll below (note hook node state)

theorem visit_eq (visitor : Visitor α) (node : Node) :
    visitor.visit node = visitor.answer node (node.children.map visitor.visit) :=
  Node.fold_eq visitor.answer node

/-- The first filled hook of the chain answers, and `otherwise` if there is none. -/
theorem answer_alike (filled : Hook → Bool) (own : Option Hook → Node → List α → α)
    (node : Node) :
    (alike filled own).answer node = own (node.fallbacks.find? filled) node := by
  rw [← node.chain_hook]
  unfold answer Hook.pick?
  induction node.hook.chain with
  | nil => rfl
  | cons hook later ih =>
      by_cases isFilled : filled hook = true
      · simp [alike, isFilled]
      · simp only [alike, isFilled, List.findSome?_cons, List.find?_cons] at ih ⊢
        exact ih

theorem visit_alike (filled : Hook → Bool) (own : Option Hook → Node → List α → α)
    (node : Node) :
    (alike filled own).visit node =
      own (node.fallbacks.find? filled) node
        (node.children.map (alike filled own).visit) := by
  rw [visit_eq, answer_alike]

/-- The records of a visit, in the order of the walk. -/
theorem visit_recording (filled : Hook → Bool) (tree : Node) :
    (recording filled).visit tree =
      tree.walk.map fun node => (node.fallbacks.find? filled, node) := by
  induction tree using Node.descend with
  | step tree ih =>
      have here : (recording filled).visit tree =
          (tree.fallbacks.find? filled, tree) ::
            (tree.children.map (recording filled).visit).flatten :=
        visit_alike filled (fun hook node below => (hook, node) :: below.flatten) tree
      rw [here, Node.walk_eq, List.map_cons, List.map_flatMap, List.map_congr_left ih]
      rfl

/-- Visits of trees one after the other, each of which notes the nodes of its walk. -/
theorem runAll_map_visit {visit : Node → σ → σ} {note : Node → σ → σ} {trees : List Node}
    (noted : ∀ tree ∈ trees, ∀ state,
      visit tree state = tree.walk.foldl (fun state node => note node state) state)
    (state : σ) :
    runAll (trees.map visit) state =
      (trees.flatMap Node.walk).foldl (fun state node => note node state) state := by
  induction trees generalizing state with
  | nil => rfl
  | cons tree rest ih =>
      have first := noted tree List.mem_cons_self state
      have others := ih fun other member => noted other (List.mem_cons_of_mem tree member)
      rw [List.flatMap_cons, List.foldl_append, ← first]
      exact others (visit tree state)

/-- A visit changes the state by the notes on the nodes of the walk. -/
theorem visit_noting (filled : Hook → Bool) (note : Option Hook → Node → σ → σ)
    (tree : Node) (state : σ) :
    (noting filled note).visit tree state =
      tree.walk.foldl (fun state node => note (node.fallbacks.find? filled) node state)
        state := by
  induction tree using Node.descend generalizing state with
  | step tree ih =>
      have here : (noting filled note).visit tree state =
          runAll (tree.children.map (noting filled note).visit)
            (note (tree.fallbacks.find? filled) tree state) :=
        congrFun (visit_alike filled _ tree) state
      rw [here, Node.walk_eq, List.foldl_cons]
      exact runAll_map_visit ih _

/-- Whichever hooks a visitor fills, if each of them records the node and then visits
its children, then the visit records every node of the tree once and in the order of
the walk, at the first filled hook among the node's fallbacks. A visitor that notes the
nodes in a state of any kind makes the same records. -/
theorem visit_follows_walk (filled : Hook → Bool) (tree : Node) :
    (recording filled).visit tree =
        tree.walk.map (fun node => (node.fallbacks.find? filled, node)) ∧
      ((recording filled).visit tree).length = tree.count ∧
      ∀ (σ : Type) (note : Option Hook → Node → σ → σ) (state : σ),
        (noting filled note).visit tree state =
          ((recording filled).visit tree).foldl
            (fun state record => note record.1 record.2 state) state := by
  have records := visit_recording filled tree
  refine ⟨records, ?_, ?_⟩
  · rw [records, List.length_map, tree.length_walk]
  · intro σ note state
    rw [records, List.foldl_map]
    exact visit_noting filled note tree state

/-- A foreign node that is tagged as a literal falls back on the hook of expressions,
but a literal does not go by its tag. -/
example :
    ((recording [Hook.expression, .statement].contains).visit
      (.foreign ⟨.literal, none, .empty⟩ "Custom"
        [.literal ⟨.statement, none, .empty⟩ .null])).map Prod.fst =
      [some .expression, none] :=
  rfl

end Visitor

end BuildScribe
