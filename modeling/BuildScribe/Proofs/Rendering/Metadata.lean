import BuildScribe.Proofs.Layout.Unmarked
import BuildScribe.Proofs.Rendering.Composition
import BuildScribe.Proofs.Tree.Descent
import BuildScribe.Tree.Hook

/-!
# Metadata

Locations become marks, and marks are no text; attributes and categories become nothing at all.
A tree is therefore written as the tree without its metadata is, but for the marks. A generator
that goes by the hooks of a visitor, where the tag of a node does count, writes the same.
-/

namespace BuildScribe

/-- Metadata that says nothing of its node. -/
def Metadata.blank : Metadata :=
  ⟨.expression, none, .empty⟩

def Reference.bare : Reference → Reference
  | root _ name => root .blank name
  | member _ qualifier name => member .blank qualifier.bare name

def TypeMention.bare (mention : TypeMention) : TypeMention :=
  ⟨.blank, mention.type⟩

namespace Node

mutual

/-- The tree with blank metadata at every node. -/
def bare : Node → Node
  | literal _ value => literal .blank value
  | reference target => reference target.bare
  | block body => block (bareBlock body)
  | typeMention mention => typeMention mention.bare
  | declaration _ name modifiers type initial =>
      declaration .blank name modifiers (type.map TypeMention.bare) (bareOption initial)
  | comment _ text => comment .blank text
  | script _ imports statements => script .blank imports (bareList statements)
  | assignment _ target value => assignment .blank target.bare (bare value)
  | namedBlock _ name body => namedBlock .blank name (bareBlock body)
  | call _ receiver name typeArguments arguments trailing =>
      call .blank (bareOption receiver) name (typeArguments.map TypeMention.bare)
        (bareList arguments) (bareOptionBlock trailing)
  | plugin _ spec => plugin .blank spec
  | component _ name => component .blank name
  | mavenRepository _ url => mavenRepository .blank url
  | foreign _ kind children => foreign .blank kind (bareList children)

def bareList : List Node → List Node
  | [] => []
  | node :: rest => bare node :: bareList rest

def bareOption : Option Node → Option Node
  | none => none
  | some node => some (bare node)

def bareBlock : Block Node → Block Node
  | ⟨_, statements⟩ => ⟨.blank, bareList statements⟩

def bareOptionBlock : Option (Block Node) → Option (Block Node)
  | none => none
  | some body => some (bareBlock body)

end

theorem bareList_eq_map (nodes : List Node) : bareList nodes = nodes.map bare := by
  induction nodes with
  | nil => rfl
  | cons node rest ih => rw [bareList, ih, List.map_cons]

theorem bareOption_eq_map (node? : Option Node) : bareOption node? = node?.map bare := by
  cases node? <;> rfl

end Node

theorem Reference.segments_bare (target : Reference) : target.bare.segments = target.segments := by
  induction target with
  | root info name => rfl
  | member info qualifier name ih => rw [bare, segments, ih, segments]

theorem Reference.location_bare (target : Reference) : target.bare.info.location = none := by
  cases target <;> rfl

namespace Generator

open Fragment

theorem unmarked_gradleNode (emitter : Generator) (kind : String) (rule : Language → Fragment) :
    (emitter.gradleNode kind rule).unmarked =
      emitter.gradleNode kind fun language => (rule language).unmarked := by
  unfold gradleNode
  cases emitter.gradleLanguage? <;> rfl

theorem unmarked_reference (emitter : Generator) (target : Reference) :
    (emitter.reference target).unmarked = emitter.reference target.bare := by
  rw [reference, reference, unmarked_append, unmarked_mark, unmarked_text,
    Reference.location_bare, Language.referenceText, Language.referenceText,
    Reference.segments_bare]
  rfl

theorem unmarked_typeMention (emitter : Generator) (mention : TypeMention) :
    (emitter.typeMention mention).unmarked = emitter.typeMention mention.bare := by
  rw [typeMention, typeMention, unmarked_append, unmarked_mark, unmarked_text]
  rfl

/-- Without its marks a tree is written as the tree without metadata. -/
theorem unmarked_fragment (comments : Bool) (dispatch emitter : Generator) (node : Node) :
    (fragment comments dispatch emitter node).unmarked =
      fragment comments dispatch emitter node.bare := by
  induction node using Node.descend generalizing emitter with
  | step node ih =>
      -- A node without a location records nothing.
      have marked (location : Option SourceLocation) (body : Fragment) :
          (mark location ++ body).unmarked = mark Metadata.blank.location ++ body.unmarked := by
        rw [unmarked_append, unmarked_mark]
        rfl
      have onList (nodes : List Node) (below : ∀ child ∈ nodes, child ∈ node.children) :
          (listFragment comments dispatch nodes).map unmarked =
            listFragment comments dispatch (Node.bareList nodes) := by
        rw [listFragment_eq_map, listFragment_eq_map, Node.bareList_eq_map, List.map_map,
          List.map_map]
        exact List.map_congr_left fun child isChild => ih child (below child isChild) dispatch
      have onOption (node? : Option Node) (below : ∀ child ∈ node?, child ∈ node.children) :
          (optionFragment comments dispatch node?).map unmarked =
            optionFragment comments dispatch (Node.bareOption node?) := by
        cases node? with
        | none => rfl
        | some child => exact congrArg some (ih child (below child rfl) dispatch)
      have onBlock (body : Block Node) (below : .block body ∈ node.children) :
          (blockFragment comments dispatch body).unmarked =
            blockFragment comments dispatch (Node.bareBlock body) := by
        simpa only [fragment, Node.bare] using ih (.block body) below dispatch
      have onTypes (mentions : List TypeMention) :
          (mentions.map dispatch.typeMention).map unmarked =
            (mentions.map TypeMention.bare).map dispatch.typeMention := by
        rw [List.map_map, List.map_map]
        exact List.map_congr_left fun mention _ => dispatch.unmarked_typeMention mention
      cases node with
      | literal info value =>
          rw [fragment, marked, unmarked_text, Node.bare, fragment]
      | reference target =>
          rw [fragment, unmarked_reference, Node.bare, fragment]
      | block body =>
          cases body with
          | mk info statements =>
              rw [fragment, blockFragment, marked, unmarked_braces,
                onList statements fun _ isChild => isChild, Node.bare, fragment,
                Node.bareBlock, blockFragment]
      | typeMention mention =>
          rw [fragment, unmarked_typeMention, Node.bare, fragment]
      | declaration info name modifiers type initial =>
          have onType : (type.map dispatch.typeMention).map unmarked =
              (type.map TypeMention.bare).map dispatch.typeMention := by
            cases type with
            | none => rfl
            | some mention => exact congrArg some (dispatch.unmarked_typeMention mention)
          have onInitial := onOption initial fun child isChild => by
            simp [Node.children, Option.mem_def.mp isChild]
          rw [fragment, marked, Language.unmarked_declaration, onType, onInitial, Node.bare,
            fragment]
      | comment info text =>
          rw [fragment, marked, Node.bare, fragment]
          cases comments with
          | true => rw [if_pos rfl, unmarked_comment]
          | false => rfl
      | script info imports statements =>
          rw [fragment, marked, unmarked_gradleNode, Node.bare, fragment]
          simp only [unmarked_script, onList statements fun _ isChild => isChild]
      | assignment info target value =>
          have onValue := ih value (by simp [Node.children]) dispatch
          rw [fragment, marked, unmarked_gradleNode, Node.bare, fragment]
          simp only [unmarked_append, unmarked_reference, unmarked_text, onValue]
      | namedBlock info name body =>
          have onBody := onBlock body (by simp [Node.children])
          rw [fragment, marked, unmarked_gradleNode, Node.bare, fragment]
          simp only [unmarked_append, unmarked_text, onBody]
      | call info receiver name typeArguments arguments trailing =>
          have onReceiver := onOption receiver fun child isChild => by
            simp [Node.children, Option.mem_def.mp isChild]
          have onArguments := onList arguments fun child isChild => by
            simp [Node.children, isChild]
          have onTrailing : (optionBlockFragment comments dispatch trailing).map unmarked =
              optionBlockFragment comments dispatch (Node.bareOptionBlock trailing) := by
            cases trailing with
            | none => rfl
            | some body => exact congrArg some (onBlock body (by simp [Node.children]))
          rw [fragment, marked, unmarked_gradleNode, Node.bare, fragment]
          simp only [Language.unmarked_call, onReceiver, onTypes, onArguments, onTrailing]
      | plugin info spec =>
          rw [fragment, marked, unmarked_gradleNode, Node.bare, fragment]
          rfl
      | component info name =>
          rw [fragment, marked, unmarked_gradleNode, Node.bare, fragment]
          rfl
      | mavenRepository info url =>
          rw [fragment, marked, unmarked_gradleNode, Node.bare, fragment]
          simp only [Language.unmarked_mavenRepository]
      | foreign info kind children =>
          rw [fragment, marked, refusal, unmarked_fail, Node.bare, fragment, refusal]

/-- What a language writes for a node that arrives at a hook. At the hooks that a node owes to
its tag, the kind of the node decides. -/
def ruleAt (comments : Bool) (dispatch : Generator) (target : Language) :
    Hook → Node → Option Fragment
  | .literal, .literal _ value => some (text (target.literalText value))
  | .reference, .reference name => some (text (target.referenceText name))
  | .block, .block body => some (braces (listFragment comments dispatch body.statements))
  | _, .typeMention mention => some (text (target.typeText mention.type))
  | _, .declaration _ name modifiers type initial =>
      some (target.declaration name modifiers (type.map dispatch.typeMention)
        (optionFragment comments dispatch initial))
  | _, .comment _ written => some (if comments then comment written else empty)
  | _, _ => none

/-- Whatever a node is tagged with, its hook leads a language to the rule for its kind, or to
a refusal. -/
theorem fragment_eq_ruleAt (comments : Bool) (dispatch : Generator) (target : Language)
    (node : Node) :
    fragment comments dispatch (.language target) node =
      mark node.info.location ++
        (ruleAt comments dispatch target node.hook node).getD
          ((Generator.language target).refusal node.kindName) := by
  cases node with
  | literal info value =>
      rw [fragment]
      rfl
  | reference name =>
      rw [fragment]
      rfl
  | block body =>
      cases body
      rw [fragment, blockFragment]
      rfl
  | typeMention mention =>
      obtain ⟨⟨category, location, attributes⟩, type⟩ := mention
      rw [fragment]
      cases category <;> rfl
  | declaration info name modifiers type initial =>
      obtain ⟨category, location, attributes⟩ := info
      rw [fragment]
      cases category <;> rfl
  | comment info written =>
      obtain ⟨category, location, attributes⟩ := info
      rw [fragment]
      cases category <;> rfl
  | _ info =>
      obtain ⟨category, location, attributes⟩ := info
      rw [fragment]
      cases category <;> rfl

theorem map_text_generate_bare (generator : Generator) (node : Node) (options : LayoutOptions) :
    (generator.generate node.bare options).map Rendering.text =
      (generator.generate node options).map Rendering.text := by
  rw [generate, generate, map_text_render, map_text_render, ← unmarked_fragment,
    layout_unmarked]
  rfl

/-- It makes no difference to the text whether places are recorded. -/
theorem map_text_generate_recorded (generator : Generator) (node : Node)
    (options : LayoutOptions) (recorded : Bool) :
    (generator.generate node { options with sourceMap := recorded }).map Rendering.text =
      (generator.generate node options).map Rendering.text := by
  rw [generate, generate, map_text_render, map_text_render]
  rfl

/-- Trees that differ in nothing but metadata have the same text or the same failure, under
options that differ in nothing but whether places are recorded. -/
theorem generate_ignores_metadata (generator : Generator) {first second : Node}
    (sameContent : first.bare = second.bare) (options : LayoutOptions) (recorded : Bool) :
    (generator.generate first options).map Rendering.text =
      (generator.generate second { options with sourceMap := recorded }).map
        Rendering.text := by
  calc
    (generator.generate first options).map Rendering.text
    _ = (generator.generate first.bare options).map Rendering.text :=
      (map_text_generate_bare generator first options).symm
    _ = (generator.generate second.bare options).map Rendering.text := by rw [sameContent]
    _ = (generator.generate second options).map Rendering.text :=
      map_text_generate_bare generator second options
    _ = _ := (map_text_generate_recorded generator second options recorded).symm

/-- A comment that is tagged as a literal and knows where it comes from is written like any
other. -/
theorem generate_ignores_tag_of_comment :
    Node.bare (.block ⟨⟨.literal, some ⟨"s", 1, 1⟩, .empty⟩,
          [.comment ⟨.literal, some ⟨"s", 2, 3⟩, .ofList [("k", .null)]⟩ "c"]⟩) =
        Node.bare (.block (.of [.ofComment "c"])) ∧
      ((Generator.standard .groovy).generate
          (.block ⟨⟨.literal, some ⟨"s", 1, 1⟩, .empty⟩,
            [.comment ⟨.literal, some ⟨"s", 2, 3⟩, .ofList [("k", .null)]⟩ "c"]⟩)
          { sourceMap := true }).map Rendering.text =
        ((Generator.standard .groovy).generate (.block (.of [.ofComment "c"])) {}).map
          Rendering.text :=
  ⟨rfl, generate_ignores_metadata (.standard .groovy) rfl { sourceMap := true } false⟩

end Generator

end BuildScribe
