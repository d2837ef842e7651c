import BuildScribe.Proofs.Rendering.Composition

/-!
# Properties that fragments inherit

Apart from blocks, scripts and repositories, what a node writes is made of texts, line ends
and what its children write, one behind the other. A property of fragments that survives
this therefore holds of a node as soon as it holds of its children.
-/

namespace BuildScribe

namespace Generator

/-- The parts of a node that are written by the rules for core nodes. -/
theorem fragment_typeMention (generator : Generator) (comments : Bool)
    (mention : TypeMention) :
    generator.fragment comments generator (.typeMention mention) =
      generator.typeMention mention := by
  rw [fragment]

theorem fragment_reference (generator : Generator) (comments : Bool)
    (target : Reference) :
    generator.fragment comments generator (.reference target) =
      generator.reference target := by
  rw [fragment]

end Generator

namespace Fragment

/-- A property that every text has, every line end and every mark, and that two fragments
pass on when one is written behind the other. -/
structure Compositional (holds : Fragment → Prop) : Prop where
  empty : holds Fragment.empty
  text : ∀ written, holds (Fragment.text written)
  finish : holds Fragment.finish
  mark : ∀ location, holds (Fragment.mark location)
  fail : ∀ failure, holds (Fragment.fail failure)
  append : ∀ {first second}, holds first → holds second → holds (first ++ second)

namespace Compositional

variable {holds : Fragment → Prop} (closed : Compositional holds)

include closed

theorem lines {fragments : List Fragment} (onAll : ∀ fragment ∈ fragments, holds fragment) :
    holds (Fragment.lines fragments) := by
  induction fragments with
  | nil => exact closed.empty
  | cons first rest ih =>
      rw [List.forall_mem_cons] at onAll
      exact closed.append (closed.append onAll.1 closed.finish) (ih onAll.2)

theorem separated (separator : String) {fragments : List Fragment}
    (onAll : ∀ fragment ∈ fragments, holds fragment) :
    holds (Fragment.separated separator fragments) := by
  induction fragments with
  | nil => exact closed.empty
  | cons first rest ih =>
      rw [List.forall_mem_cons] at onAll
      cases rest with
      | nil => exact onAll.1
      | cons second others =>
          exact closed.append (closed.append onAll.1 (closed.text separator)) (ih onAll.2)

theorem delimited (opening separator closing : String) {fragments : List Fragment}
    (onAll : ∀ fragment ∈ fragments, holds fragment) :
    holds (Fragment.text opening ++ Fragment.separated separator fragments ++
      Fragment.text closing) :=
  closed.append (closed.append (closed.text opening) (closed.separated separator onAll))
    (closed.text closing)

theorem comment (written : String) : holds (Fragment.comment written) := by
  unfold Fragment.comment
  induction textLines written with
  | nil => exact closed.empty
  | cons first rest ih =>
      cases rest with
      | nil => exact closed.text _
      | cons second others => exact closed.append (closed.append (closed.text _) closed.finish) ih

omit closed in
/-- An optional part that is written with some text around it. -/
theorem option {missing : Fragment} (absent : holds missing) {present : Fragment → Fragment}
    {part : Option Fragment} (surrounds : ∀ written ∈ part, holds (present written)) :
    holds (part.elim missing present) := by
  cases part with
  | none => exact absent
  | some written => exact surrounds written rfl

theorem declaration (language : Language) (name : String) (modifiers : ModifierSet)
    {type initial : Option Fragment} (onType : ∀ written ∈ type, holds written)
    (onInitial : ∀ written ∈ initial, holds written) :
    holds (language.declaration name modifiers type initial) := by
  have value : holds (initial.elim Fragment.empty fun written =>
      Fragment.text " = " ++ written) :=
    option closed.empty fun written member =>
      closed.append (closed.text _) (onInitial written member)
  cases language with
  | kotlin =>
      have typed : holds (type.elim Fragment.empty fun written =>
          Fragment.text ": " ++ written) :=
        option closed.empty fun written member =>
          closed.append (closed.text _) (onType written member)
      rw [Language.kotlin_declaration_eq]
      have keyword := closed.append (closed.text (Language.kotlin.modifierText modifiers))
        (closed.text (if modifiers.contains .var then "var " else "val "))
      exact closed.append (closed.append (closed.append keyword (closed.text _)) typed) value
  | groovy =>
      have typed : holds (type.elim (Fragment.text "def ") fun written =>
          written ++ Fragment.text " ") :=
        option (closed.text _) fun written member =>
          closed.append (onType written member) (closed.text _)
      rw [Language.groovy_declaration_eq]
      have typedName := closed.append
        (closed.append (closed.text (Language.groovy.modifierText modifiers)) typed)
        (closed.text name)
      exact closed.append typedName value

theorem call (language : Language) {receiver : Option Fragment}
    (onReceiver : ∀ written ∈ receiver, holds written) (name : String)
    {typeArguments arguments : List Fragment}
    (onTypes : ∀ written ∈ typeArguments, holds written)
    (onArguments : ∀ written ∈ arguments, holds written) {trailing : Option Fragment}
    (onTrailing : ∀ written ∈ trailing, holds written) :
    holds (language.call receiver name typeArguments arguments trailing) := by
  have target : holds (receiver.elim Fragment.empty fun written =>
      written ++ Fragment.text ".") :=
    option closed.empty fun written member =>
      closed.append (onReceiver written member) (closed.text _)
  have types : holds
      (if language = .kotlin && !typeArguments.isEmpty then
        Fragment.text "<" ++ Fragment.separated ", " typeArguments ++ Fragment.text ">"
        else Fragment.empty) := by
    split
    · exact closed.delimited "<" ", " ">" onTypes
    · exact closed.empty
  have onListed : ∀ part ∈ language.listed typeArguments arguments, holds part := by
    cases language with
    | kotlin => exact onArguments
    | groovy => exact List.forall_mem_append.mpr ⟨onArguments, onTypes⟩
  have parenthesized {parts : List Fragment} (onParts : ∀ part ∈ parts, holds part) : holds
      (if parts.isEmpty && trailing.isSome then Fragment.empty
        else Fragment.text "(" ++ Fragment.separated ", " parts ++ Fragment.text ")") := by
    split
    · exact closed.empty
    · exact closed.delimited "(" ", " ")" onParts
  have block : holds (trailing.elim Fragment.empty fun written =>
      Fragment.text " " ++ written) :=
    option closed.empty fun written member =>
      closed.append (closed.text _) (onTrailing written member)
  rw [Language.call_eq]
  have called := closed.append (closed.append target (closed.text name)) types
  exact closed.append (closed.append called (parenthesized onListed)) block

/-- A node whose form depends on the language of its generator. -/
theorem gradleNode (emitter : Generator) (location : Option SourceLocation) (kind : String)
    {rule : Language → Fragment} (onRule : ∀ language, holds (rule language)) :
    holds (Fragment.mark location ++ emitter.gradleNode kind rule) := by
  apply closed.append (closed.mark location)
  unfold Generator.gradleNode
  cases emitter.gradleLanguage? with
  | none => exact closed.fail _
  | some language => exact onRule language

/-- A node inherits the property from its children. Only for blocks, scripts and
repositories it has to be shown, since they nest their lines or leave some blank. -/
theorem node {generator : Generator} {comments : Bool} {node : Node}
    (below : ∀ child ∈ node.children, holds (generator.fragment comments generator child))
    (onBlock : ∀ body, node = .block body →
      holds (braces (body.statements.map (generator.fragment comments generator))))
    (onScript : ∀ info imports statements, node = .script info imports statements →
      holds (Fragment.script imports
        (statements.map (generator.fragment comments generator))))
    (onRepository : ∀ (language : Language) url, holds (language.mavenRepository url)) :
    holds (generator.fragment comments generator node) := by
  have marked {location : Option SourceLocation} {written : Fragment}
      (onWritten : holds written) : holds (Fragment.mark location ++ written) :=
    closed.append (closed.mark location) onWritten
  cases node with
  | literal info value =>
      rw [Generator.fragment]
      exact marked (closed.text _)
  | reference target =>
      rw [Generator.fragment, Generator.reference]
      exact marked (closed.text _)
  | block body =>
      have onBody := onBlock body rfl
      cases body
      rw [Generator.fragment, Generator.blockFragment, Generator.listFragment_eq_map]
      exact marked onBody
  | typeMention mention =>
      rw [Generator.fragment, Generator.typeMention]
      exact marked (closed.text _)
  | declaration info name modifiers type initial =>
      rw [Generator.fragment, Generator.optionFragment_eq_map]
      apply marked
      apply closed.declaration
      · intro written member
        obtain ⟨mention, known, rfl⟩ := Option.map_eq_some_iff.mp member
        rw [← Generator.fragment_typeMention _ comments]
        exact below _ (by simp [Node.children, known])
      · intro written member
        obtain ⟨value, known, rfl⟩ := Option.map_eq_some_iff.mp member
        exact below value (by simp [Node.children, known])
  | comment info written =>
      rw [Generator.fragment]
      apply marked
      split
      · exact closed.comment written
      · exact closed.empty
  | script info imports statements =>
      rw [Generator.fragment, Generator.listFragment_eq_map]
      apply closed.gradleNode
      intro language
      exact onScript info imports statements rfl
  | assignment info target value =>
      rw [Generator.fragment]
      apply closed.gradleNode
      intro language
      rw [← Generator.fragment_reference _ comments]
      have onTarget := below (.reference target) (by simp [Node.children])
      have onValue := below value (by simp [Node.children])
      exact closed.append (closed.append onTarget (closed.text " = ")) onValue
  | namedBlock info name body =>
      rw [Generator.fragment, Generator.blockFragment_eq _ _ generator]
      apply closed.gradleNode
      intro language
      have onBody := below (.block body) (by simp [Node.children])
      exact closed.append (closed.append (closed.text name) (closed.text " ")) onBody
  | call info receiver name typeArguments arguments trailing =>
      rw [Generator.fragment, Generator.optionFragment_eq_map,
        Generator.listFragment_eq_map, Generator.optionBlockFragment_eq_map]
      apply closed.gradleNode
      intro language
      apply closed.call
      · intro written member
        obtain ⟨value, known, rfl⟩ := Option.map_eq_some_iff.mp member
        exact below value (by simp [Node.children, known])
      · intro written member
        obtain ⟨mention, known, rfl⟩ := List.mem_map.mp member
        rw [← Generator.fragment_typeMention _ comments]
        exact below _ (by simp [Node.children, known])
      · intro written member
        obtain ⟨argument, known, rfl⟩ := List.mem_map.mp member
        exact below argument (by simp [Node.children, known])
      · intro written member
        obtain ⟨body, known, rfl⟩ := Option.map_eq_some_iff.mp member
        exact below (.block body) (by simp [Node.children, known])
  | plugin info spec =>
      rw [Generator.fragment]
      exact closed.gradleNode _ _ _ fun _ => closed.text _
  | component info name =>
      rw [Generator.fragment]
      exact closed.gradleNode _ _ _ fun _ => closed.text _
  | mavenRepository info url =>
      rw [Generator.fragment]
      exact closed.gradleNode _ _ _ fun language => onRepository language url
  | foreign info kind children =>
      rw [Generator.fragment]
      exact marked (closed.fail _)

end Compositional

end Fragment

end BuildScribe

