import BuildScribe.Proofs.Rendering.Leaves
import BuildScribe.Proofs.Tree.Descent

/-!
# Refused nodes

A language generator has rules for the nodes of every language, a Gradle
generator also for those of Gradle scripts. Rendering fails exactly when the walk
over the tree meets a node without a rule, and it reports the first one.
-/

namespace BuildScribe

/-- The first complaint is that about the first item that is not accepted. -/
theorem findSome?_unless {α β : Type} (accepts : α → Bool) (complaint : α → β)
    (items : List α) :
    (items.findSome? fun item => if accepts item then none else some (complaint item)) =
      (items.find? fun item => !accepts item).map complaint := by
  induction items with
  | nil => rfl
  | cons item rest ih =>
      rw [List.findSome?_cons, List.find?_cons, ih]
      cases accepts item <;> rfl

namespace Generator

/-- Whether a generator has a rule for a node. -/
def supports : Generator → Node → Bool
  | language _, node => node.isCore
  | gradle _ _, node => node.isCore || node.isGradle

/-- The failure with which a generator meets a node, if it has no rule for it. -/
def refusal? (generator : Generator) (node : Node) : Option Failure :=
  if generator.supports node then
    none
  else
    some (.unrenderable generator.core.name node.kindName)

theorem refusal?_of_isCore {node : Node} (core : node.isCore = true)
    (generator : Generator) : generator.refusal? node = none := by
  cases generator <;> simp [refusal?, supports, core]

/-- A Gradle node is refused by a language generator; by a Gradle generator it is
written, and fails as its rule does. -/
theorem failure_gradleNode (emitter : Generator) (node : Node)
    (isGradle : node.isGradle = true) {rule : Language → Fragment}
    {below : Option Failure}
    (ruleFails : ∀ language, (rule language).failure = below) :
    (emitter.gradleNode node.kindName rule).failure =
      (emitter.refusal? node).or below := by
  have notCore : node.isCore = false := by
    cases node <;> simp_all [Node.isGradle, Node.isCore]
  cases emitter with
  | language target =>
      simp [gradleNode, gradleLanguage?, refusal, refusal?, supports, notCore]
  | gradle target base =>
      simp [gradleNode, gradleLanguage?, refusal?, supports, isGradle,
        ruleFails target]

section

variable (comments : Bool) (dispatch emitter : Generator)

private theorem failure_marked (location : Option SourceLocation)
    (fragment : Fragment) :
    (Fragment.mark location ++ fragment).failure = fragment.failure := by
  rw [Fragment.failure_append, Fragment.failure_mark, Option.none_or]

/-- A call fails as the first of its parts does that fails. -/
private theorem failure_callParts (language : Language) (info : Metadata)
    (receiver : Option Node) (name : String) (typeArguments : List TypeMention)
    (arguments : List Node) (trailing : Option (Block Node)) :
    (language.call (optionFragment comments dispatch receiver) name
        (typeArguments.map dispatch.typeMention)
        (listFragment comments dispatch arguments)
        (optionBlockFragment comments dispatch trailing)).failure =
      (Node.call info receiver name typeArguments arguments
        trailing).children.findSome? fun child =>
          (fragment comments dispatch dispatch child).failure := by
  have typesSucceed := findSome?_failure_typeMentions dispatch typeArguments
  have mentionsSucceed : (typeArguments.map Node.typeMention).findSome?
      (fun child => (fragment comments dispatch dispatch child).failure) =
        none := by
    simp [List.findSome?_eq_none_iff, fragment, typeMention]
  rw [Language.failure_call _ _ _ _ _ _ typesSucceed, optionFragment_eq_map,
    listFragment_eq_map, optionBlockFragment_eq_map, Node.children]
  simp only [List.findSome?_append, mentionsSucceed, Option.or_none]
  cases receiver <;> cases trailing <;>
    simp [List.findSome?_map, Function.comp_def]

/-- A node fails if its kind is refused, and otherwise as the first of its
children does that fails. -/
theorem failure_fragment (node : Node) :
    (fragment comments dispatch emitter node).failure =
      (emitter.refusal? node).or
        (node.children.findSome? fun child =>
          (fragment comments dispatch dispatch child).failure) := by
  cases node with
  | literal info value =>
      rw [refusal?_of_isCore rfl]
      simp [fragment, Node.children]
  | reference target =>
      rw [refusal?_of_isCore rfl]
      cases target <;> simp [fragment, reference, Node.children, Reference.qualifier?]
  | block body =>
      rw [refusal?_of_isCore rfl]
      cases body
      simp [fragment, blockFragment, listFragment_eq_map, Node.children,
        List.findSome?_map, Function.comp_def]
  | typeMention mention =>
      rw [refusal?_of_isCore rfl]
      simp [fragment, typeMention, Node.children]
  | declaration info name modifiers type initial =>
      rw [refusal?_of_isCore rfl]
      cases type <;> cases initial <;>
        simp [fragment, Language.failure_declaration, optionFragment,
          typeMention, Node.children]
  | comment info written =>
      rw [refusal?_of_isCore rfl]
      cases comments <;> simp [fragment, Node.children]
  | script info imports statements =>
      rw [fragment, failure_marked]
      apply failure_gradleNode emitter (.script info imports statements) rfl
      intro language
      simp [listFragment_eq_map, Node.children, List.findSome?_map,
        Function.comp_def]
  | assignment info target value =>
      rw [fragment, failure_marked]
      apply failure_gradleNode emitter (.assignment info target value) rfl
      intro language
      simp [reference, Node.children, fragment]
  | namedBlock info name body =>
      rw [fragment, failure_marked]
      apply failure_gradleNode emitter (.namedBlock info name body) rfl
      intro language
      simp [blockFragment_eq _ _ dispatch, Node.children]
  | call info receiver name typeArguments arguments trailing =>
      rw [fragment, failure_marked]
      apply failure_gradleNode emitter
        (.call info receiver name typeArguments arguments trailing) rfl
      intro language
      exact failure_callParts comments dispatch language info receiver name
        typeArguments arguments trailing
  | plugin info spec =>
      rw [fragment, failure_marked]
      exact failure_gradleNode emitter (.plugin info spec) rfl fun _ => rfl
  | component info name =>
      rw [fragment, failure_marked]
      exact failure_gradleNode emitter (.component info name) rfl fun _ => rfl
  | mavenRepository info url =>
      rw [fragment, failure_marked]
      apply failure_gradleNode emitter (.mavenRepository info url) rfl
      intro language
      cases language <;> simp [Language.mavenRepository, Node.children]
  | foreign info kind below =>
      cases emitter <;>
        simp [fragment, refusal, refusal?, supports, Node.isCore,
          Node.isGradle, Node.kindName]

end

/-- If each node is answered by a search through its walk, a list of nodes is
answered by a search through their walks one after the other. -/
private theorem findSome?_flatMap_walk {α : Type} {answer search : Node → Option α}
    (nodes : List Node)
    (answered : ∀ node ∈ nodes, answer node = node.walk.findSome? search) :
    nodes.findSome? answer = (nodes.flatMap Node.walk).findSome? search := by
  induction nodes with
  | nil => rfl
  | cons node rest ih =>
      have first := answered node List.mem_cons_self
      have others := ih fun other member =>
        answered other (List.mem_cons_of_mem node member)
      rw [List.flatMap_cons, List.findSome?_append, ← first, ← others,
        List.findSome?_cons]
      cases answer node <;> rfl

/-- A tree fails with the first refusal on its walk. -/
theorem failure_fragment_eq_findSome? (generator : Generator) (comments : Bool)
    (node : Node) :
    (generator.fragment comments generator node).failure =
      node.walk.findSome? generator.refusal? := by
  induction node using Node.descend with
  | step node ih =>
      rw [failure_fragment, Node.walk_eq, List.findSome?_cons,
        findSome?_flatMap_walk node.children ih]
      cases generator.refusal? node <;> rfl

/-- Whether a generator has rules for all nodes of a tree. -/
def CanRender (generator : Generator) (node : Node) : Prop :=
  ∀ met ∈ node.walk, generator.supports met = true

instance (generator : Generator) (node : Node) :
    Decidable (generator.CanRender node) :=
  inferInstanceAs (Decidable (∀ met ∈ node.walk, generator.supports met = true))

def layout (generator : Generator) (comments : Bool) (node : Node) : List Line :=
  (generator.fragment comments generator node).layout

/-- The contents of the lines of a tree, without indents and line endings. -/
def content (generator : Generator) (comments : Bool) (node : Node) : String :=
  String.join ((generator.layout comments node).map Line.content)

theorem canRender_iff_find?_eq_none {generator : Generator} {node : Node} :
    generator.CanRender node ↔
      node.walk.find? (fun met => !generator.supports met) = none := by
  simp [CanRender, List.find?_eq_none]

theorem refusal?_eq_none_iff {generator : Generator} {node : Node} :
    generator.refusal? node = none ↔ generator.supports node = true := by
  unfold refusal?
  split <;> simp_all

theorem content_eq_ink (generator : Generator) (comments : Bool) :
    generator.content comments = fun node =>
      (generator.fragment comments generator node).ink :=
  funext fun _ => Fragment.join_content_layout _

theorem CanRender.succeeds {generator : Generator} {node : Node}
    (renderable : generator.CanRender node) (comments : Bool) :
    (generator.fragment comments generator node).failure = none := by
  rw [failure_fragment_eq_findSome?, List.findSome?_eq_none_iff]
  intro met isMet
  exact refusal?_eq_none_iff.mpr (renderable met isMet)

theorem canRender_iff {generator : Generator} {node : Node} :
    generator.CanRender node ↔ generator.supports node = true ∧
      ∀ child ∈ node.children, generator.CanRender child := by
  constructor
  · intro renderable
    refine ⟨renderable node node.mem_walk_self, ?_⟩
    intro child isChild met isMet
    exact renderable met (Node.mem_walk_of_mem_children isChild isMet)
  · rintro ⟨supported, below⟩ met isMet
    rcases Node.mem_walk_iff.mp isMet with rfl | ⟨child, isChild, onWalk⟩
    · exact supported
    · exact below child isChild met onWalk

theorem canRender_comment {generator : Generator} (info : Metadata) (text : String) :
    generator.CanRender (.comment info text) :=
  canRender_iff.mpr ⟨by cases generator <;> rfl, by simp [Node.children]⟩

theorem CanRender.part {generator : Generator} {node part : Node}
    (renderable : generator.CanRender node) (partOf : part ∈ node.walk) :
    generator.CanRender part :=
  fun met isMet => renderable met (Node.mem_walk_trans partOf isMet)

theorem CanRender.generate_eq {generator : Generator} {node : Node}
    (renderable : generator.CanRender node) (options : LayoutOptions) :
    ∃ rendering, generator.generate node options = .ok rendering ∧
      rendering.text =
        linesText options (generator.layout options.comments node) :=
  Fragment.render_eq_linesText _ options (renderable.succeeds options.comments)

theorem findSome?_refusal? (generator : Generator) (nodes : List Node) :
    nodes.findSome? generator.refusal? =
      (nodes.find? fun met => !generator.supports met).map fun culprit =>
        .unrenderable generator.core.name culprit.kindName :=
  findSome?_unless generator.supports _ nodes

theorem generate_of_find? {generator : Generator} {node culprit : Node}
    (found : node.walk.find? (fun met => !generator.supports met) = some culprit)
    (options : LayoutOptions) :
    generator.generate node options =
      .error (.unrenderable generator.core.name culprit.kindName) := by
  have failure : (generator.fragment options.comments generator node).failure =
      some (.unrenderable generator.core.name culprit.kindName) := by
    rw [failure_fragment_eq_findSome?, findSome?_refusal?, found, Option.map_some]
  rw [generate, Fragment.render, failure]

/-- Rendering fails exactly when the walk over the tree meets a node without a
rule, and then the failure names the first one, whatever the options are. All
other trees have a text, in which a node without children writes a text of its own,
and what any other node writes contains what its children write, one child behind
the other. -/
theorem generate_fails_at_first_unsupported (generator : Generator) (node : Node)
    (options : LayoutOptions) :
    ((∃ failure, generator.generate node options = .error failure) ↔
        ∃ met ∈ node.walk, generator.supports met = false) ∧
      (∀ culprit,
        node.walk.find? (fun met => !generator.supports met) = some culprit →
          generator.generate node options =
            .error (.unrenderable generator.core.name culprit.kindName)) ∧
      (generator.CanRender node →
        (∃ rendering, generator.generate node options = .ok rendering ∧
          rendering.text =
            linesText options (generator.layout options.comments node)) ∧
        ∀ part ∈ node.walk,
          (part.children = [] →
            generator.content options.comments part =
              generator.leafText options.comments part) ∧
          ∃ order : List Node, order.Perm part.children ∧
            Woven (order.map (generator.content options.comments))
              (generator.content options.comments part)) := by
  refine ⟨⟨?_, ?_⟩, ?_, ?_⟩
  · rintro ⟨failure, fails⟩
    cases first : node.walk.find? fun met => !generator.supports met with
    | none =>
        have renderable := canRender_iff_find?_eq_none.mpr first
        obtain ⟨rendering, succeeds, _⟩ := renderable.generate_eq options
        rw [succeeds] at fails
        cases fails
    | some culprit =>
        have unsupported := List.find?_some first
        exact ⟨culprit, List.mem_of_find?_eq_some first, by simpa using unsupported⟩
  · rintro ⟨met, isMet, unsupported⟩
    cases first : node.walk.find? fun met => !generator.supports met with
    | none =>
        have supported := canRender_iff_find?_eq_none.mpr first met isMet
        rw [unsupported] at supported
        cases supported
    | some culprit => exact ⟨_, generate_of_find? first options⟩
  · intro culprit first
    exact generate_of_find? first options
  · intro renderable
    refine ⟨renderable.generate_eq options, ?_⟩
    intro part partOf
    have succeeds := (renderable.part partOf).succeeds options.comments
    rw [content_eq_ink]
    refine ⟨fun leaf => ink_fragment_of_leaf leaf succeeds, generator.writingOrder part,
      generator.writingOrder_perm part, ?_⟩
    simpa [Function.comp_def] using generator.carries_fragment options.comments part succeeds

/-- Below two Gradle generators it is the language that refuses a node, and a node
behind the first refused one is not heard of. -/
theorem generate_fails_at_nested_foreign :
    (Generator.gradle .groovy (.standard .kotlin)).generate
        (.ofStatements [] [.ofComment "note",
          .named "tasks" [.foreign ⟨.literal, none, .empty⟩ "Stray"
            [.foreign ⟨.block, none, .empty⟩ "Hidden" []]],
          .foreign ⟨.statement, none, .empty⟩ "Later" []]) {} =
      .error (.unrenderable "kotlin" "Stray") :=
  (generate_fails_at_first_unsupported _ _ _).2.1
    (.foreign ⟨.literal, none, .empty⟩ "Stray"
      [.foreign ⟨.block, none, .empty⟩ "Hidden" []]) rfl

end Generator

end BuildScribe
