import BuildScribe.Proofs.Rendering.Composition
import BuildScribe.Proofs.Tree.Descent

/-!
# Generators on top of one another

A Gradle generator writes the nodes of Gradle scripts itself and hands all others down to the
generator below, while the children of every node go back to the generator that the whole tree
was given to. A Gradle generator below another one is therefore never asked for a node that it
has a rule of its own for.
-/

namespace BuildScribe

theorem Node.isGradle_of_isCore {node : Node} (core : node.isCore = true) :
    node.isGradle = false := by
  cases node <;> first | rfl | cases core

namespace Generator

variable {node : Node}

/-- A Gradle generator hands a node that is not of Gradle down as it is. -/
theorem fragment_gradle_of_not_isGradle (notGradle : node.isGradle = false)
    (comments : Bool) (dispatch : Generator) (target : Language) (base : Generator) :
    fragment comments dispatch (.gradle target base) node =
      fragment comments dispatch base node := by
  cases node with
  | literal info value => rw [fragment, fragment, core]
  | reference target => rw [fragment, fragment, reference, reference, core]
  | block body => rw [fragment, fragment]
  | typeMention mention => rw [fragment, fragment, typeMention, typeMention, core]
  | declaration info name modifiers type initial => rw [fragment, fragment, core]
  | comment info text => rw [fragment, fragment]
  | foreign info kind children => rw [fragment, fragment, refusal, refusal, core]
  | _ => cases notGradle

/-- A node of Gradle is written by the first Gradle generator that gets it, which asks nothing
of the generator below. -/
theorem fragment_gradle_of_isGradle (isGradle : node.isGradle = true)
    (comments : Bool) (dispatch : Generator) (target : Language) (base other : Generator) :
    fragment comments dispatch (.gradle target base) node =
      fragment comments dispatch (.gradle target other) node := by
  cases node with
  | literal | reference | block | typeMention | declaration | comment | foreign =>
      cases isGradle
  | _ => rw [fragment, fragment]; rfl

/-- A node that is not of Gradle comes down to the language generator at the bottom. -/
theorem fragment_of_not_isGradle (notGradle : node.isGradle = false)
    (comments : Bool) (dispatch emitter : Generator) :
    fragment comments dispatch emitter node =
      fragment comments dispatch (.language emitter.core) node := by
  induction emitter with
  | language target => rfl
  | gradle target base ih =>
      rw [fragment_gradle_of_not_isGradle notGradle, ih]
      rfl

section

variable {comments : Bool} {dispatch other : Generator}

theorem listFragment_congr {nodes : List Node}
    (alike : ∀ node ∈ nodes,
      fragment comments dispatch dispatch node = fragment comments other other node) :
    listFragment comments dispatch nodes = listFragment comments other nodes := by
  rw [listFragment_eq_map, listFragment_eq_map, List.map_congr_left alike]

theorem optionFragment_congr {node? : Option Node}
    (alike : ∀ node ∈ node?,
      fragment comments dispatch dispatch node = fragment comments other other node) :
    optionFragment comments dispatch node? = optionFragment comments other node? := by
  rw [optionFragment_eq_map, optionFragment_eq_map]
  exact Option.map_congr alike

/-- The generator that the children go to matters only by what it writes for them. -/
theorem fragment_congr_dispatch
    (alike : ∀ child ∈ node.children,
      fragment comments dispatch dispatch child = fragment comments other other child)
    (emitter : Generator) :
    fragment comments dispatch emitter node = fragment comments other emitter node := by
  have onType (mention : TypeMention) (isChild : .typeMention mention ∈ node.children) :
      dispatch.typeMention mention = other.typeMention mention := by
    simpa only [fragment] using alike (.typeMention mention) isChild
  have onBlock (body : Block Node) (isChild : .block body ∈ node.children) :
      blockFragment comments dispatch body = blockFragment comments other body := by
    simpa only [fragment] using alike (.block body) isChild
  cases node with
  | block body =>
      cases body with
      | mk info statements =>
          have onStatements : listFragment comments dispatch statements =
              listFragment comments other statements := listFragment_congr alike
          rw [fragment, fragment, blockFragment, blockFragment, onStatements]
  | declaration info name modifiers type initial =>
      have onTypes : type.map dispatch.typeMention = type.map other.typeMention :=
        Option.map_congr fun mention isType =>
          onType mention (by simp [Node.children, Option.mem_def.mp isType])
      have onInitial : optionFragment comments dispatch initial =
          optionFragment comments other initial :=
        optionFragment_congr fun value isInitial =>
          alike value (by simp [Node.children, Option.mem_def.mp isInitial])
      rw [fragment, fragment, onTypes, onInitial]
  | script info imports statements =>
      have onStatements : listFragment comments dispatch statements =
          listFragment comments other statements := listFragment_congr alike
      rw [fragment, fragment, onStatements]
  | assignment info target value =>
      have onTarget : dispatch.reference target = other.reference target := by
        simpa only [fragment] using alike (.reference target) (by simp [Node.children])
      have onValue := alike value (by simp [Node.children])
      rw [fragment, fragment, onTarget, onValue]
  | namedBlock info name body =>
      rw [fragment, fragment, onBlock body (by simp [Node.children])]
  | call info receiver name typeArguments arguments trailing =>
      have onReceiver : optionFragment comments dispatch receiver =
          optionFragment comments other receiver :=
        optionFragment_congr fun value isReceiver =>
          alike value (by simp [Node.children, Option.mem_def.mp isReceiver])
      have onTypes : typeArguments.map dispatch.typeMention =
          typeArguments.map other.typeMention :=
        List.map_congr_left fun mention isType =>
          onType mention (by simp [Node.children, isType])
      have onArguments : listFragment comments dispatch arguments =
          listFragment comments other arguments :=
        listFragment_congr fun argument isArgument =>
          alike argument (by simp [Node.children, isArgument])
      have onTrailing : optionBlockFragment comments dispatch trailing =
          optionBlockFragment comments other trailing := by
        cases trailing with
        | none => rfl
        | some body =>
            rw [optionBlockFragment, optionBlockFragment,
              onBlock body (by simp [Node.children])]
      rw [fragment, fragment, onReceiver, onTypes, onArguments, onTrailing]
  | _ => rw [fragment, fragment]

end

/-- Below a Gradle generator only the language generator at the bottom counts. -/
theorem fragment_gradle (comments : Bool) (target : Language) (base : Generator)
    (node : Node) :
    fragment comments (.gradle target base) (.gradle target base) node =
      fragment comments (.gradle target (.language base.core))
        (.gradle target (.language base.core)) node := by
  -- By induction over the tree the two dispatchers write the children alike. What is left is
  -- the way of the node itself down the generators: none for a node of Gradle, and through all
  -- of them for the others.
  induction node using Node.descend with
  | step node ih =>
      rw [fragment_congr_dispatch ih]
      cases isGradle : node.isGradle with
      | true => exact fragment_gradle_of_isGradle isGradle comments _ target _ _
      | false =>
          rw [fragment_of_not_isGradle isGradle, fragment_of_not_isGradle isGradle comments _
            (.gradle target (.language base.core))]
          rfl

/-- Nodes that exist in every language are written as the language generator at the bottom
writes them. -/
theorem fragment_of_core (comments : Bool) (generator : Generator)
    (allCore : ∀ met ∈ node.walk, met.isCore = true) :
    fragment comments generator generator node =
      fragment comments (.language generator.core) (.language generator.core) node := by
  induction node using Node.descend with
  | step node ih =>
      have below : ∀ child ∈ node.children,
          fragment comments generator generator child =
            fragment comments (.language generator.core) (.language generator.core) child :=
        fun child isChild => ih child isChild fun met onWalk =>
          allCore met (Node.mem_walk_of_mem_children isChild onWalk)
      have notGradle := Node.isGradle_of_isCore (allCore node node.mem_walk_self)
      rw [fragment_congr_dispatch below, fragment_of_not_isGradle notGradle]

/-- Gradle generators below another one make no difference: the text, the places of the
located nodes and the failure are those of the outermost one directly over the language
generator. A tree without nodes of Gradle is written as by the language generator alone. -/
theorem generate_of_stacked (target : Language) (base : Generator) :
    (∀ node options, (Generator.gradle target base).generate node options =
      (Generator.gradle target (.language base.core)).generate node options) ∧
    (∀ node, (∀ met ∈ node.walk, met.isCore = true) → ∀ options,
      (Generator.gradle target base).generate node options =
        (Generator.language base.core).generate node options) := by
  constructor
  · intro node options
    rw [generate, generate, fragment_gradle]
  · intro node allCore options
    rw [generate, generate, fragment_of_core _ _ allCore]
    rfl

/-- Neither of two Gradle generators for Groovy is heard of in a block that Kotlin writes. -/
theorem generate_of_core_below_stack :
    (∀ met ∈ (Node.block (.of [.ofString "$", .ofPath "a.b-c"])).walk, met.isCore = true) ∧
      (Generator.gradle .groovy (.gradle .groovy (.language .kotlin))).generate
          (.block (.of [.ofString "$", .ofPath "a.b-c"])) {} =
        (Generator.language .kotlin).generate
          (.block (.of [.ofString "$", .ofPath "a.b-c"])) {} :=
  ⟨by decide, (generate_of_stacked .groovy (.gradle .groovy (.language .kotlin))).2
    (.block (.of [.ofString "$", .ofPath "a.b-c"])) (by decide) {}⟩

end Generator

end BuildScribe
