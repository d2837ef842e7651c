import BuildScribe.Target.Generator

/-!
# Composition of fragments

A fragment put together from others fails with the first failure among them, and
as long as nothing fails its pieces are theirs in order. The rules for nodes are
restated over lists and options of children, so that later modules can argue
about the children of a node at once.
-/

namespace BuildScribe

namespace Fragment

@[simp] theorem failure_empty : empty.failure = none := rfl

@[simp] theorem failure_text (written : String) : (text written).failure = none := rfl

@[simp] theorem failure_line (written : String) : (line written).failure = none := rfl

@[simp] theorem failure_finish : finish.failure = none := rfl

@[simp] theorem failure_mark (location : Option SourceLocation) :
    (mark location).failure = none := rfl

@[simp] theorem failure_fail (failure : Failure) :
    (fail failure).failure = some failure := rfl

@[simp] theorem failure_nested (fragment : Fragment) :
    fragment.nested.failure = fragment.failure := rfl

@[simp] theorem pieces_nested (fragment : Fragment) :
    fragment.nested.pieces = fragment.pieces.map Piece.deeper := rfl

/-- The second fragment fails only behind a first one that does not. -/
@[simp] theorem failure_append (first second : Fragment) :
    (first ++ second).failure = first.failure.or second.failure := by
  change (first.andThen second).failure = _
  unfold andThen
  cases first.failure <;> rfl

theorem pieces_append {first : Fragment} (succeeds : first.failure = none)
    (second : Fragment) :
    (first ++ second).pieces = first.pieces ++ second.pieces := by
  change (first.andThen second).pieces = _
  simp [andThen, succeeds]

theorem pieces_append_of_fails {first : Fragment} {failure : Failure}
    (fails : first.failure = some failure) (second : Fragment) :
    (first ++ second).pieces = first.pieces := by
  change (first.andThen second).pieces = first.pieces
  rw [andThen, fails]

theorem findSome?_failure_cons (first : Fragment) (rest : List Fragment) :
    (first :: rest).findSome? failure =
      first.failure.or (rest.findSome? failure) := by
  rw [List.findSome?_cons]
  cases first.failure <;> rfl

@[simp] theorem failure_sequence (fragments : List Fragment) :
    (sequence fragments).failure = fragments.findSome? failure := by
  induction fragments with
  | nil => rfl
  | cons first rest ih =>
      rw [sequence, failure_append, ih, findSome?_failure_cons]

@[simp] theorem failure_lines (fragments : List Fragment) :
    (lines fragments).failure = fragments.findSome? failure := by
  induction fragments with
  | nil => rfl
  | cons first rest ih =>
      rw [lines, failure_append, failure_append, ih, findSome?_failure_cons,
        failure_finish, Option.or_none]

@[simp] theorem failure_separated (separator : String)
    (fragments : List Fragment) :
    (separated separator fragments).failure = fragments.findSome? failure := by
  induction fragments with
  | nil => rfl
  | cons first rest ih =>
      cases rest with
      | nil => simp [separated]
      | cons second others =>
          rw [separated, failure_append, failure_append, ih, failure_text,
            Option.or_none, findSome?_failure_cons first]

@[simp] theorem failure_onLines (fragments : List Fragment) :
    (onLines fragments).failure = fragments.findSome? failure := by
  induction fragments with
  | nil => rfl
  | cons first rest ih =>
      cases rest with
      | nil => simp [onLines]
      | cons second others =>
          rw [onLines, failure_append, failure_append, ih, failure_finish,
            Option.or_none, findSome?_failure_cons first]

/-- A comment can be written whatever its text is. -/
@[simp] theorem failure_comment (written : String) :
    (comment written).failure = none := by
  simp [comment, List.findSome?_eq_none_iff]

@[simp] theorem failure_braces (statements : List Fragment) :
    (braces statements).failure = statements.findSome? failure := by
  simp [braces]

@[simp] theorem failure_script (imports : List String)
    (statements : List Fragment) :
    (script imports statements).failure = statements.findSome? failure := by
  have importsSucceed :
      (imports.map fun path => line ("import " ++ path)).findSome? failure =
        none := by
    simp [List.findSome?_eq_none_iff]
  have gapSucceeds :
      (if imports.isEmpty || statements.isEmpty then empty
        else line "").failure = none := by
    split <;> rfl
  simp only [script, failure_append, failure_sequence, failure_lines,
    importsSucceed, gapSucceeds, Option.none_or]

end Fragment

namespace Language

open Fragment

theorem kotlin_declaration_eq (name : String) (modifiers : ModifierSet)
    (type initial : Option Fragment) :
    kotlin.declaration name modifiers type initial =
      text (kotlin.modifierText modifiers) ++
        text (if modifiers.contains .var then "var " else "val ") ++
        text (backtickedName name) ++
        (type.elim empty fun written => text ": " ++ written) ++
        (initial.elim empty fun written => text " = " ++ written) := by
  cases type <;> cases initial <;> rfl

theorem groovy_declaration_eq (name : String) (modifiers : ModifierSet)
    (type initial : Option Fragment) :
    groovy.declaration name modifiers type initial =
      text (groovy.modifierText modifiers) ++
        (type.elim (text "def ") fun written => written ++ text " ") ++
        text name ++
        (initial.elim empty fun written => text " = " ++ written) := by
  cases type <;> cases initial <;> rfl

/-- The arguments in parentheses of a call. -/
def listed {α : Type} (language : Language) (typeArguments arguments : List α) : List α :=
  match language with
  | kotlin => arguments
  | groovy => arguments ++ typeArguments

theorem call_eq (language : Language) (receiver : Option Fragment) (name : String)
    (typeArguments arguments : List Fragment) (trailing : Option Fragment) :
    language.call receiver name typeArguments arguments trailing =
      (receiver.elim empty fun written => written ++ text ".") ++ text name ++
        (if language = kotlin && !typeArguments.isEmpty then
          text "<" ++ separated ", " typeArguments ++ text ">" else empty) ++
        (if (language.listed typeArguments arguments).isEmpty && trailing.isSome then
          empty
        else
          text "(" ++ separated ", " (language.listed typeArguments arguments) ++
            text ")") ++
        (trailing.elim empty fun written => text " " ++ written) := by
  cases receiver <;> cases trailing <;> rfl

/-- A declaration fails with its initial value; types are always written. -/
theorem failure_declaration (language : Language) (name : String)
    (modifiers : ModifierSet) (type initial : Option Fragment)
    (typeSucceeds : type.bind failure = none) :
    (language.declaration name modifiers type initial).failure =
      initial.bind failure := by
  cases language <;> cases type <;> cases initial <;>
    simp_all [declaration]

/-- A call fails with its receiver, then its arguments, then its block; types
are always written, so it does not matter where the language puts them. -/
theorem failure_call (language : Language) (receiver : Option Fragment)
    (name : String) (typeArguments arguments : List Fragment)
    (trailing : Option Fragment)
    (typesSucceed : typeArguments.findSome? failure = none) :
    (language.call receiver name typeArguments arguments trailing).failure =
      ((receiver.bind failure).or (arguments.findSome? failure)).or
        (trailing.bind failure) := by
  have typesPart (shown : Bool) :
      (if shown then text "<" ++ separated ", " typeArguments ++ text ">"
        else empty).failure = none := by
    cases shown <;> simp [typesSucceed]
  have listPart (listed : List Fragment) :
      (if listed.isEmpty && trailing.isSome then empty
        else text "(" ++ separated ", " listed ++ text ")").failure =
          listed.findSome? failure := by
    cases listed with
    | nil => cases trailing.isSome <;> rfl
    | cons first rest => simp
  unfold call
  simp only [failure_append, typesPart, listPart, failure_text]
  cases language <;> cases receiver <;> cases trailing <;>
    simp [typesSucceed]

end Language

namespace Generator

variable (comments : Bool) (dispatch : Generator)

theorem listFragment_eq_map (nodes : List Node) :
    listFragment comments dispatch nodes =
      nodes.map (fragment comments dispatch dispatch) := by
  induction nodes with
  | nil => rfl
  | cons node rest ih => rw [listFragment, ih, List.map_cons]

theorem optionFragment_eq_map (node? : Option Node) :
    optionFragment comments dispatch node? =
      node?.map (fragment comments dispatch dispatch) := by
  cases node? <;> rfl

/-- A block is written by the language below whichever generator gets it. -/
theorem blockFragment_eq (emitter : Generator) (body : Block Node) :
    blockFragment comments dispatch body =
      fragment comments dispatch emitter (.block body) := by
  rw [fragment]

theorem optionBlockFragment_eq_map (body? : Option (Block Node)) :
    optionBlockFragment comments dispatch body? =
      body?.map fun body => fragment comments dispatch dispatch (.block body) := by
  cases body? with
  | none => rfl
  | some body => rw [optionBlockFragment, blockFragment_eq _ _ dispatch]; rfl

theorem findSome?_failure_typeMentions (mentions : List TypeMention) :
    (mentions.map dispatch.typeMention).findSome? Fragment.failure = none := by
  simp [List.findSome?_eq_none_iff, typeMention]

end Generator

end BuildScribe
