import BuildScribe.Proofs.Layout.Opening
import BuildScribe.Proofs.Rendering.Closure
import BuildScribe.Proofs.Target.Spelling
import BuildScribe.Proofs.Tree.Descent

/-!
# The shape of what generators write

No stroke of a rendered tree brings a line break of its own if the names that are
written as they are bring none. What a node writes opens at the margin: braces come
before everything that is nested, and imports before the blank line behind them.
-/

namespace BuildScribe

/-- The texts that a node contributes just as they are. A core plugin is addressed by
its bare name; all other identifiers and values are spelled as literals. -/
def Node.rawNames : Node → List String
  | reference target => target.segments
  | typeMention mention => [mention.type.name]
  | declaration _ name _ _ _ => [name]
  | script _ imports _ => imports
  | namedBlock _ name _ => [name]
  | call _ _ name _ _ _ => [name]
  | plugin _ spec => if spec.core then [spec.id] else []
  | _ => []

/-- No name in the tree breaks a line. -/
def Node.HasInlineNames (node : Node) : Prop :=
  ∀ met ∈ node.walk, ∀ name ∈ met.rawNames, IsInline name

instance (node : Node) : Decidable node.HasInlineNames :=
  inferInstanceAs (Decidable (∀ met ∈ node.walk, ∀ name ∈ met.rawNames, IsInline name))

theorem Node.HasInlineNames.own {node : Node} (inline : node.HasInlineNames) :
    ∀ name ∈ node.rawNames, IsInline name :=
  inline node node.mem_walk_self

theorem Node.HasInlineNames.child {node child : Node} (inline : node.HasInlineNames)
    (isChild : child ∈ node.children) : child.HasInlineNames :=
  fun met onWalk => inline met (mem_walk_of_mem_children isChild onWalk)

namespace Fragment

theorem mem_pieces_append {first second : Fragment} {piece : Piece}
    (member : piece ∈ (first ++ second).pieces) :
    piece ∈ first.pieces ∨ piece ∈ second.pieces := by
  cases fails : first.failure with
  | none =>
      rw [pieces_append fails] at member
      exact List.mem_append.mp member
  | some failure =>
      rw [pieces_append_of_fails fails] at member
      exact .inl member

/-- No piece brings a line break of its own. -/
def Inline (fragment : Fragment) : Prop :=
  ∀ piece ∈ fragment.pieces, piece.stroke.IsInline

namespace Inline

theorem empty : Fragment.empty.Inline := by
  intro piece member
  cases member

theorem ofStroke {stroke : Stroke} (inline : stroke.IsInline) :
    (Fragment.ofStroke stroke).Inline := by
  intro piece member
  rw [List.mem_singleton.mp member]
  exact inline

theorem text {written : String} (inline : IsInline written) :
    (Fragment.text written).Inline :=
  ofStroke inline

theorem line {written : String} (inline : IsInline written) :
    (Fragment.line written).Inline :=
  ofStroke inline

theorem finish : Fragment.finish.Inline := ofStroke trivial

theorem mark (location : Option SourceLocation) : (Fragment.mark location).Inline := by
  cases location with
  | none => exact empty
  | some known => exact ofStroke trivial

theorem fail (failure : Failure) : (Fragment.fail failure).Inline := empty

theorem append {first second : Fragment} (onFirst : first.Inline)
    (onSecond : second.Inline) : (first ++ second).Inline := by
  intro piece member
  rcases mem_pieces_append member with isFirst | isSecond
  · exact onFirst piece isFirst
  · exact onSecond piece isSecond

theorem nested {fragment : Fragment} (inline : fragment.Inline) :
    fragment.nested.Inline := by
  intro piece member
  obtain ⟨shallow, isPiece, rfl⟩ := List.mem_map.mp member
  exact inline shallow isPiece

theorem lines {fragments : List Fragment}
    (inline : ∀ fragment ∈ fragments, fragment.Inline) :
    (Fragment.lines fragments).Inline := by
  induction fragments with
  | nil => exact empty
  | cons first rest ih =>
      rw [List.forall_mem_cons] at inline
      exact (inline.1.append finish).append (ih inline.2)

theorem separated {separator : String} (separates : IsInline separator)
    {fragments : List Fragment}
    (inline : ∀ fragment ∈ fragments, fragment.Inline) :
    (Fragment.separated separator fragments).Inline := by
  induction fragments with
  | nil => exact empty
  | cons first rest ih =>
      rw [List.forall_mem_cons] at inline
      cases rest with
      | nil => exact inline.1
      | cons second others =>
          exact (inline.1.append (text separates)).append (ih inline.2)

theorem braces {statements : List Fragment}
    (inline : ∀ statement ∈ statements, statement.Inline) :
    (Fragment.braces statements).Inline :=
  (((text (by decide)).append finish).append (lines inline).nested).append
    (text (by decide))

theorem script {imports : List String}
    (paths : ∀ path ∈ imports, IsInline path) {statements : List Fragment}
    (inline : ∀ statement ∈ statements, statement.Inline) :
    (Fragment.script imports statements).Inline := by
  have importLines :
      (sequence (imports.map fun path => Fragment.line ("import " ++ path))).Inline := by
    induction imports with
    | nil => exact empty
    | cons path rest ih =>
        rw [List.forall_mem_cons] at paths
        have importLine : IsInline ("import " ++ path) :=
          .append (by decide) paths.1
        exact (line importLine).append (ih paths.2)
  have gap (absent : Bool) :
      (if absent then Fragment.empty else Fragment.line "").Inline := by
    cases absent with
    | true => exact empty
    | false => exact line (by decide)
  exact (importLines.append (gap _)).append (lines inline)

theorem comment (written : String) : (Fragment.comment written).Inline := by
  have shown : ∀ line ∈ textLines written,
      (Fragment.text (commentLine line)).Inline :=
    fun line member => text (isInline_commentLine member)
  unfold Fragment.comment
  generalize textLines written = written at shown
  induction written with
  | nil => exact empty
  | cons first rest ih =>
      rw [List.forall_mem_cons] at shown
      cases rest with
      | nil => exact shown.1
      | cons second others => exact (shown.1.append finish).append (ih shown.2)

/-- An optional part that is written with some text around it. -/
theorem option {missing : Fragment} (absent : missing.Inline)
    {present : Fragment → Fragment} {part : Option Fragment}
    (surrounds : ∀ written ∈ part, (present written).Inline) :
    (part.elim missing present).Inline := by
  cases part with
  | none => exact absent
  | some written => exact surrounds written rfl

end Inline

namespace OpensAtMargin

theorem compositional : Compositional OpensAtMargin :=
  ⟨empty, text, finish, mark, fail, append⟩

theorem braces (statements : List Fragment) :
    (Fragment.braces statements).OpensAtMargin := by
  rw [Fragment.braces, append_assoc, append_assoc]
  exact text_append (by decide) _

theorem script (imports : List String) {statements : List Fragment}
    (opens : ∀ statement ∈ statements, statement.OpensAtMargin) :
    (Fragment.script imports statements).OpensAtMargin := by
  cases imports with
  | nil => exact (empty.append empty).append (compositional.lines opens)
  | cons path rest =>
      have something : "import " ++ path ≠ "" := by simp
      rw [Fragment.script, List.map_cons, sequence, append_assoc, append_assoc]
      exact line_append something _

end OpensAtMargin

end Fragment

namespace Language

open Fragment

theorem inline_declaration (language : Language) {name : String}
    (inlineName : IsInline name) (modifiers : ModifierSet)
    {type initial : Option Fragment} (onType : ∀ written ∈ type, written.Inline)
    (onInitial : ∀ written ∈ initial, written.Inline) :
    (language.declaration name modifiers type initial).Inline := by
  have modifierText := language.isInline_modifierText modifiers
  have value : (initial.elim empty fun written => text " = " ++ written).Inline :=
    .option .empty fun written member =>
      (Inline.text (by decide)).append (onInitial written member)
  cases language with
  | kotlin =>
      have keyword : IsInline
          (if modifiers.contains .var then "var " else "val ") := by
        split <;> decide
      have typed : (type.elim empty fun written => text ": " ++ written).Inline :=
        .option .empty fun written member =>
          (Inline.text (by decide)).append (onType written member)
      rw [kotlin_declaration_eq]
      exact ((((Inline.text modifierText).append (.text keyword)).append
        (.text (isInline_backtickedName inlineName))).append typed).append value
  | groovy =>
      have typed :
          (type.elim (text "def ") fun written => written ++ text " ").Inline :=
        .option (.text (by decide)) fun written member =>
          (onType written member).append (.text (by decide))
      rw [groovy_declaration_eq]
      exact (((Inline.text modifierText).append typed).append
        (.text inlineName)).append value

theorem inline_call (language : Language) {receiver : Option Fragment}
    (onReceiver : ∀ written ∈ receiver, written.Inline) {name : String}
    (inlineName : IsInline name) {typeArguments arguments : List Fragment}
    (onTypes : ∀ written ∈ typeArguments, written.Inline)
    (onArguments : ∀ written ∈ arguments, written.Inline)
    {trailing : Option Fragment} (onTrailing : ∀ written ∈ trailing, written.Inline) :
    (language.call receiver name typeArguments arguments trailing).Inline := by
  have delimited {opening closing : String} (opens : IsInline opening)
      (closes : IsInline closing) {parts : List Fragment}
      (inline : ∀ part ∈ parts, part.Inline) :
      (text opening ++ separated ", " parts ++ text closing).Inline :=
    ((Inline.text opens).append (.separated (by decide) inline)).append (.text closes)
  have target : (receiver.elim empty fun written => written ++ text ".").Inline :=
    .option .empty fun written member =>
      (onReceiver written member).append (.text (by decide))
  have types :
      (if language = kotlin && !typeArguments.isEmpty then
        text "<" ++ separated ", " typeArguments ++ text ">" else empty).Inline := by
    split
    · exact delimited (by decide) (by decide) onTypes
    · exact .empty
  have onListed :
      ∀ part ∈ language.listed typeArguments arguments, part.Inline := by
    cases language with
    | kotlin => exact onArguments
    | groovy => exact List.forall_mem_append.mpr ⟨onArguments, onTypes⟩
  have parenthesized {parts : List Fragment} (inline : ∀ part ∈ parts, part.Inline) :
      (if parts.isEmpty && trailing.isSome then empty
        else text "(" ++ separated ", " parts ++ text ")").Inline := by
    split
    · exact .empty
    · exact delimited (by decide) (by decide) inline
  have block : (trailing.elim empty fun written => text " " ++ written).Inline :=
    .option .empty fun written member =>
      (Inline.text (by decide)).append (onTrailing written member)
  rw [call_eq]
  exact (((target.append (.text inlineName)).append types).append
    (parenthesized onListed)).append block

theorem inline_mavenRepository (language : Language) (url : String) :
    (language.mavenRepository url).Inline := by
  cases language with
  | kotlin =>
      have address : IsInline ("maven(" ++ kotlin.stringLiteral url ++ ")") :=
        (IsInline.append (by decide) (kotlin.isInline_stringLiteral url)).append
          (by decide)
      exact .text address
  | groovy =>
      have address : IsInline ("url " ++ groovy.stringLiteral url) :=
        .append (by decide) (groovy.isInline_stringLiteral url)
      exact (((Inline.text (by decide)).append .finish).append
        ((Inline.text address).append .finish).nested).append (.text (by decide))

theorem opensAtMargin_mavenRepository (language : Language) (url : String) :
    (language.mavenRepository url).OpensAtMargin := by
  cases language with
  | kotlin => exact .text _
  | groovy =>
      rw [mavenRepository, append_assoc, append_assoc]
      exact .text_append (by decide) _

end Language

namespace Generator

open Fragment

/-- A node whose form depends on the language of its generator. -/
theorem inline_gradleNode (emitter : Generator) (location : Option SourceLocation)
    (kind : String) {rule : Language → Fragment}
    (inline : ∀ language, (rule language).Inline) :
    (mark location ++ emitter.gradleNode kind rule).Inline := by
  apply (Inline.mark location).append
  unfold gradleNode
  cases emitter.gradleLanguage? with
  | none => exact .fail _
  | some language => exact inline language

theorem inline_fragment (generator : Generator) (comments : Bool) {node : Node}
    (inline : node.HasInlineNames) :
    (generator.fragment comments generator node).Inline := by
  induction node using Node.descend with
  | step node ih =>
      have own := inline.own
      have below : ∀ child ∈ node.children,
          (generator.fragment comments generator child).Inline :=
        fun child isChild => ih child isChild (inline.child isChild)
      cases node with
      | literal info value =>
          rw [fragment]
          exact (Inline.mark _).append (.text (generator.core.isInline_literalText value))
      | reference target =>
          rw [fragment, reference]
          exact (Inline.mark _).append
            (.text (generator.core.isInline_referenceText own))
      | block body =>
          cases body with
          | mk info statements =>
              rw [fragment, blockFragment, listFragment_eq_map]
              exact (Inline.mark _).append (.braces (List.forall_mem_map.mpr below))
      | typeMention mention =>
          rw [fragment, typeMention]
          exact (Inline.mark _).append
            (.text (generator.core.isInline_typeText (own _ List.mem_cons_self)))
      | declaration info name modifiers type initial =>
          rw [fragment, optionFragment_eq_map]
          apply (Inline.mark _).append
          apply generator.core.inline_declaration (own name List.mem_cons_self)
          · intro written member
            obtain ⟨mention, known, rfl⟩ := Option.map_eq_some_iff.mp member
            rw [← fragment_typeMention _ comments]
            exact below _ (by simp [Node.children, known])
          · intro written member
            obtain ⟨value, known, rfl⟩ := Option.map_eq_some_iff.mp member
            exact below value (by simp [Node.children, known])
      | comment info written =>
          rw [fragment]
          apply (Inline.mark _).append
          split
          · exact .comment written
          · exact .empty
      | script info imports statements =>
          rw [fragment, listFragment_eq_map]
          apply generator.inline_gradleNode
          intro language
          exact .script own (List.forall_mem_map.mpr below)
      | assignment info target value =>
          rw [fragment]
          apply generator.inline_gradleNode
          intro language
          rw [← fragment_reference _ comments]
          have onTarget := below (.reference target) (by simp [Node.children])
          have onValue := below value (by simp [Node.children])
          exact (onTarget.append (.text (by decide))).append onValue
      | namedBlock info name body =>
          rw [fragment, blockFragment_eq _ _ generator]
          apply generator.inline_gradleNode
          intro language
          have onBody := below (.block body) (by simp [Node.children])
          exact ((Inline.text (own name List.mem_cons_self)).append
            (.text (by decide))).append onBody
      | call info receiver name typeArguments arguments trailing =>
          rw [fragment, optionFragment_eq_map, listFragment_eq_map,
            optionBlockFragment_eq_map]
          apply generator.inline_gradleNode
          intro language
          apply language.inline_call _ (own name List.mem_cons_self)
          · intro written member
            obtain ⟨mention, known, rfl⟩ := List.mem_map.mp member
            rw [← fragment_typeMention _ comments]
            exact below _ (by simp [Node.children, known])
          · intro written member
            obtain ⟨argument, known, rfl⟩ := List.mem_map.mp member
            exact below argument (by simp [Node.children, known])
          · intro written member
            obtain ⟨body, known, rfl⟩ := Option.map_eq_some_iff.mp member
            exact below (.block body) (by simp [Node.children, known])
          · intro written member
            obtain ⟨value, known, rfl⟩ := Option.map_eq_some_iff.mp member
            exact below value (by simp [Node.children, known])
      | plugin info spec =>
          rw [fragment]
          apply generator.inline_gradleNode
          intro language
          apply Inline.text
          apply language.isInline_pluginText
          intro core
          exact own spec.id (by simp [Node.rawNames, core])
      | component info name =>
          rw [fragment]
          apply generator.inline_gradleNode
          intro language
          exact .text (language.isInline_componentText name)
      | mavenRepository info url =>
          rw [fragment]
          apply generator.inline_gradleNode
          intro language
          exact language.inline_mavenRepository url
      | foreign info kind children =>
          rw [fragment]
          exact (Inline.mark _).append (.fail _)

theorem opensAtMargin_fragment (generator : Generator) (comments : Bool) (node : Node) :
    (generator.fragment comments generator node).OpensAtMargin := by
  induction node using Node.descend with
  | step node below =>
      apply OpensAtMargin.compositional.node below
      · intro body _
        exact .braces _
      · rintro info imports statements rfl
        exact .script imports (List.forall_mem_map.mpr below)
      · intro language url
        exact language.opensAtMargin_mavenRepository url

end Generator

end BuildScribe
