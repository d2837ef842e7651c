import BuildScribe.Proofs.Layout.Emission

/-!
# Generators emit fragments

The emission of a node writes the fragment of the node. Each part of the rules for emissions
writes its counterpart among the rules for fragments, and a node follows from its children.
-/

namespace BuildScribe

namespace Emission

namespace Writes

variable {comments : Bool} {α : Type}

theorem map {items : List α} {emits : α → Emission} {shows : α → Fragment}
    (onAll : ∀ item ∈ items, Writes comments (emits item) (shows item)) :
    List.Forall₂ (Writes comments) (items.map emits) (items.map shows) := by
  rw [List.forall₂_map_left_iff, List.forall₂_map_right_iff, List.forall₂_same]
  exact onAll

theorem optionMap {item? : Option α} {emits : α → Emission} {shows : α → Fragment}
    (onSome : ∀ item ∈ item?, Writes comments (emits item) (shows item)) :
    Option.Rel (Writes comments) (item?.map emits) (item?.map shows) := by
  cases item? with
  | none => exact .none
  | some item => exact .some (onSome item rfl)

theorem sequence {items : List α} {emits : α → Emission} {shows : α → Fragment}
    (onAll : ∀ item, Writes comments (emits item) (shows item)) :
    Writes comments (items.forM emits) (.sequence (items.map shows)) := by
  induction items with
  | nil => exact nothing
  | cons first rest ih => exact (onAll first).andThen ih

theorem braces {statements : List Emission} {written : List Fragment}
    (onStatements : List.Forall₂ (Writes comments) statements written) :
    Writes comments (Emission.braces statements) (.braces written) := by
  simp only [Fragment.braces, Fragment.append_assoc]
  exact (append _).andThen (endLine.andThen ((indented onStatements).andThen (append _)))

theorem script (imports : List String) {statements : List Emission} {written : List Fragment}
    (onStatements : List.Forall₂ (Writes comments) statements written) :
    Writes comments (Emission.script imports statements) (.script imports written) := by
  have sameEmptiness : statements.isEmpty = written.isEmpty := by
    cases onStatements <;> rfl
  have gap : Writes comments
      (Emission.onlyIf (!(imports.isEmpty || statements.isEmpty)) (Emission.appendLine ""))
      (if imports.isEmpty || written.isEmpty then .empty else .line "") := by
    rw [sameEmptiness]
    exact onlyIf_not (appendLine "")
  rw [Fragment.script, Fragment.append_assoc]
  exact (sequence fun path => appendLine _).andThen (gap.andThen (lines onStatements))

theorem delimited (opening closing : String) {parts : List Emission} {written : List Fragment}
    (onParts : List.Forall₂ (Writes comments) parts written) :
    Writes comments (Emission.delimited opening closing parts)
      (.text opening ++ .separated ", " written ++ .text closing) := by
  rw [Fragment.append_assoc]
  exact (append opening).andThen ((separated ", " onParts).andThen (append closing))

theorem declaration (language : Language) (name : String) (modifiers : ModifierSet)
    {type initial : Option Emission} {typeWritten initialWritten : Option Fragment}
    (onType : Option.Rel (Writes comments) type typeWritten)
    (onInitial : Option.Rel (Writes comments) initial initialWritten) :
    Writes comments (Emission.declaration language name modifiers type initial)
      (language.declaration name modifiers typeWritten initialWritten) := by
  have value := option onInitial nothing fun onWritten => (append " = ").andThen onWritten
  cases language with
  | kotlin =>
      have typed := option onType nothing fun onWritten => (append ": ").andThen onWritten
      simp only [Language.kotlin_declaration_eq, Fragment.append_assoc]
      exact (append _).andThen ((append _).andThen ((append _).andThen (typed.andThen value)))
  | groovy =>
      have typed := option onType (append "def ") fun onWritten => onWritten.andThen (append " ")
      simp only [Language.groovy_declaration_eq, Fragment.append_assoc]
      exact (append _).andThen (typed.andThen ((append name).andThen value))

theorem call (language : Language) {receiver : Option Emission}
    {receiverWritten : Option Fragment} (name : String)
    {typeArguments arguments : List Emission} {typesWritten argumentsWritten : List Fragment}
    {trailing : Option Emission} {trailingWritten : Option Fragment}
    (onReceiver : Option.Rel (Writes comments) receiver receiverWritten)
    (onTypes : List.Forall₂ (Writes comments) typeArguments typesWritten)
    (onArguments : List.Forall₂ (Writes comments) arguments argumentsWritten)
    (onTrailing : Option.Rel (Writes comments) trailing trailingWritten) :
    Writes comments (Emission.call language receiver name typeArguments arguments trailing)
      (language.call receiverWritten name typesWritten argumentsWritten trailingWritten) := by
  have target := option onReceiver nothing fun onWritten => onWritten.andThen (append ".")
  have block := option onTrailing nothing fun onWritten => (append " ").andThen onWritten
  have types : Writes comments
      (Emission.onlyIf (language = .kotlin && !typeArguments.isEmpty)
        (Emission.delimited "<" ">" typeArguments))
      (if language = .kotlin && !typesWritten.isEmpty then
        .text "<" ++ .separated ", " typesWritten ++ .text ">" else .empty) := by
    have sameTypes : typeArguments.isEmpty = typesWritten.isEmpty := by
      cases onTypes <;> rfl
    rw [sameTypes]
    exact onlyIf (delimited "<" ">" onTypes)
  have parenthesized {parts : List Emission} {written : List Fragment}
      (onParts : List.Forall₂ (Writes comments) parts written) :
      Writes comments
        (Emission.onlyIf (!(parts.isEmpty && trailing.isSome))
          (Emission.delimited "(" ")" parts))
        (if written.isEmpty && trailingWritten.isSome then .empty
          else .text "(" ++ .separated ", " written ++ .text ")") := by
    have sameParts : parts.isEmpty = written.isEmpty := by
      cases onParts <;> rfl
    have sameTrailing : trailing.isSome = trailingWritten.isSome := by
      cases onTrailing <;> rfl
    rw [sameParts, sameTrailing]
    exact onlyIf_not (delimited "(" ")" onParts)
  rw [Language.call_eq, Fragment.append_assoc, Fragment.append_assoc, Fragment.append_assoc]
  cases language with
  | kotlin =>
      have rest := (parenthesized onArguments).andThen block
      exact target.andThen ((append name).andThen (types.andThen rest))
  | groovy =>
      have rest := (parenthesized (List.rel_append onArguments onTypes)).andThen block
      exact target.andThen ((append name).andThen (types.andThen rest))

theorem mavenRepository (language : Language) (url : String) :
    Writes comments (Emission.mavenRepository language url) (language.mavenRepository url) := by
  cases language with
  | kotlin => exact append _
  | groovy =>
      have ended : Writes comments Emission.endLine .finish := endLine
      have address := (append ("url " ++ Language.groovy.stringLiteral url)).andThen ended
      have body := deeper (WritesNested.of_succeeds address rfl)
      simp only [Language.mavenRepository, Fragment.append_assoc]
      exact (append _).andThen (endLine.andThen (body.andThen (append _)))

theorem comment (written : String) :
    Writes comments (Emission.comment written)
      (if comments then .comment written else .empty) := by
  intro buffer setting
  have onText : Writes comments (Emission.between Emission.endLine
      ((textLines written).map fun line => Emission.append (commentLine line)))
      (.comment written) := onLines (map fun line _ => append (commentLine line))
  subst setting
  exact onlyIf onText buffer rfl

end Writes

end Emission

namespace Generator

open Emission

variable (dispatch emitter : Generator)

theorem emitList_eq_map (nodes : List Node) :
    emitList dispatch nodes = nodes.map (emit dispatch dispatch) := by
  induction nodes with
  | nil => rfl
  | cons node rest ih => rw [emitList, ih, List.map_cons]

theorem emitOption_eq_map (node? : Option Node) :
    emitOption dispatch node? = node?.map (emit dispatch dispatch) := by
  cases node? <;> rfl

theorem emitBlock_eq (body : Block Node) :
    emitBlock dispatch body = emit dispatch emitter (.block body) := by
  rw [emit]

theorem emitOptionBlock_eq_map (body? : Option (Block Node)) :
    emitOptionBlock dispatch body? =
      body?.map fun body => emit dispatch dispatch (.block body) := by
  cases body? with
  | none => rfl
  | some body => rw [emitOptionBlock, emitBlock_eq _ dispatch]; rfl

variable {comments : Bool}

theorem writes_reference (target : Reference) :
    Writes comments (emitter.emitReference target) (emitter.reference target) :=
  (Writes.mark _).andThen (.append _)

theorem writes_typeMention (mention : TypeMention) :
    Writes comments (emitter.emitTypeMention mention) (emitter.typeMention mention) :=
  (Writes.mark _).andThen (.append _)

/-- A node whose form depends on the language of the emitter. -/
theorem writes_gradleNode (location : Option SourceLocation) (kind : String)
    {rule : Language → Emission} {shown : Language → Fragment}
    (onRule : ∀ language, Writes comments (rule language) (shown language)) :
    Writes comments (do Emission.mark location; emitter.emitGradleNode kind rule)
      (.mark location ++ emitter.gradleNode kind shown) := by
  apply (Writes.mark location).andThen
  unfold emitGradleNode gradleNode
  cases emitter.gradleLanguage? with
  | none => exact .fail _
  | some language => exact onRule language

/-- Whatever generators emit a node and its children, they write the fragment of the
node. -/
theorem emit_writes (node : Node) :
    Writes comments (emit dispatch emitter node) (fragment comments dispatch emitter node) := by
  induction node using Node.descend generalizing emitter with
  | step node ih => cases node with
  | literal info value =>
      rw [emit, fragment]
      exact (Writes.mark _).andThen (.append _)
  | reference target =>
      rw [emit, fragment]
      exact emitter.writes_reference target
  | block body =>
      cases body
      rw [emit, fragment, emitBlock, blockFragment, emitList_eq_map, listFragment_eq_map]
      have onStatements := Writes.map fun statement member =>
        ih statement member dispatch
      exact (Writes.mark _).andThen (.braces onStatements)
  | typeMention mention =>
      rw [emit, fragment]
      exact emitter.writes_typeMention mention
  | declaration info name modifiers type initial =>
      rw [emit, fragment, emitOption_eq_map, optionFragment_eq_map]
      refine (Writes.mark _).andThen (.declaration _ _ _ ?_ ?_)
      · exact Writes.optionMap fun mention _ => dispatch.writes_typeMention mention
      · exact Writes.optionMap fun value known => ih value (by simp_all [Node.children]) _
  | comment info written =>
      rw [emit, fragment]
      exact (Writes.mark _).andThen (.comment written)
  | script info imports statements =>
      rw [emit, fragment, emitList_eq_map, listFragment_eq_map]
      exact emitter.writes_gradleNode _ _ fun _ =>
        .script imports (Writes.map fun statement member => ih statement member _)
  | assignment info target value =>
      rw [emit, fragment]
      refine emitter.writes_gradleNode _ _ fun _ => ?_
      rw [Fragment.append_assoc]
      exact (dispatch.writes_reference target).andThen
        ((Writes.append _).andThen (ih value (by simp [Node.children]) _))
  | namedBlock info name body =>
      rw [emit, fragment, emitBlock_eq dispatch dispatch, blockFragment_eq _ _ dispatch]
      refine emitter.writes_gradleNode _ _ fun _ => ?_
      rw [Fragment.append_assoc]
      exact (Writes.append _).andThen
        ((Writes.append _).andThen (ih (.block body) (by simp [Node.children]) _))
  | call info receiver name typeArguments arguments trailing =>
      rw [emit, fragment, emitOption_eq_map, optionFragment_eq_map, emitList_eq_map,
        listFragment_eq_map, emitOptionBlock_eq_map, optionBlockFragment_eq_map]
      refine emitter.writes_gradleNode _ _ fun language => .call language name ?_ ?_ ?_ ?_
      · exact Writes.optionMap fun value known => ih value (by simp_all [Node.children]) _
      · exact Writes.map fun mention _ => dispatch.writes_typeMention mention
      · exact Writes.map fun argument known => ih argument (by simp_all [Node.children]) _
      · exact Writes.optionMap fun body known => ih (.block body) (by simp_all [Node.children]) _
  | plugin info spec =>
      rw [emit, fragment]
      exact emitter.writes_gradleNode _ _ fun _ => .append _
  | component info name =>
      rw [emit, fragment]
      exact emitter.writes_gradleNode _ _ fun _ => .append _
  | mavenRepository info url =>
      rw [emit, fragment]
      exact emitter.writes_gradleNode _ _ fun language => .mavenRepository language url
  | foreign info kind children =>
      rw [emit, fragment]
      exact (Writes.mark _).andThen (.fail _)

end Generator

end BuildScribe
