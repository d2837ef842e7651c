import BuildScribe.Proofs.Rendering.Coverage

/-!
# Nodes without children

A node without children writes a text of its own, which depends on nothing but the node and
the generator.
-/

namespace BuildScribe

namespace Fragment

@[simp] theorem ink_empty : empty.ink = "" :=
  rfl

@[simp] theorem ink_finish : finish.ink = "" :=
  rfl

@[simp] theorem ink_text (written : String) : (text written).ink = written := by
  simp [ink, text, ofStroke, Stroke.written]

@[simp] theorem ink_line (written : String) : (line written).ink = written := by
  simp [ink, line, ofStroke, Stroke.written]

theorem ink_marked (location : Option SourceLocation) (fragment : Fragment) :
    (mark location ++ fragment).ink = fragment.ink := by
  rw [ink_append rfl]
  cases location <;> simp [ink, mark, Stroke.written]

theorem ink_lines (contents : List String) :
    (sequence (contents.map line)).ink = String.join contents := by
  induction contents with
  | nil => rfl
  | cons first rest ih =>
      rw [List.map_cons, sequence, ink_append rfl, ink_line, ih, String.join_cons]

theorem ink_onLines (contents : List String) :
    (onLines (contents.map text)).ink = String.join contents := by
  induction contents with
  | nil => rfl
  | cons first rest ih =>
      cases rest with
      | nil => simp [onLines]
      | cons second others =>
          rw [List.map_cons, List.map_cons, onLines, ink_append rfl, ink_append rfl, ink_text,
            ink_finish, ← List.map_cons, ih, String.append_empty, String.join_cons (s := first)]

theorem ink_script_without_statements (imports : List String) :
    (script imports []).ink = String.join (imports.map ("import " ++ ·)) := by
  have onLines := ink_lines (imports.map ("import " ++ ·))
  rw [List.map_map] at onLines
  have importsSucceed : (sequence (imports.map fun path => line ("import " ++ path))).failure =
      none := by
    simp [failure_sequence, List.findSome?_eq_none_iff]
  simp only [script, List.isEmpty_nil, Bool.or_true, if_true, lines]
  rw [ink_append, ink_append importsSucceed, ink_empty, String.append_empty,
    String.append_empty]
  · exact onLines
  · rw [failure_append, importsSucceed]
    rfl

end Fragment

namespace Language

open Fragment

/-- A declaration without a type and without an initial value. -/
def bareDeclaration (language : Language) (name : String) (modifiers : ModifierSet) : String :=
  match language with
  | kotlin =>
      kotlin.modifierText modifiers ++ (if modifiers.contains .var then "var " else "val ") ++
        backtickedName name
  | groovy => groovy.modifierText modifiers ++ "def " ++ name

/-- The lines of a repository, one behind the other. -/
def repositoryText (language : Language) (url : String) : String :=
  match language with
  | kotlin => "maven(" ++ kotlin.stringLiteral url ++ ")"
  | groovy => "maven \x7b" ++ ("url " ++ groovy.stringLiteral url) ++ "\x7d"

theorem ink_bare_declaration (language : Language) (name : String) (modifiers : ModifierSet) :
    (language.declaration name modifiers none none).ink =
      language.bareDeclaration name modifiers := by
  cases language with
  | kotlin =>
      change String.join [_, _, _] = _
      simp [Stroke.written, bareDeclaration, String.append_assoc]
  | groovy =>
      change String.join [_, _, _] = _
      simp [Stroke.written, bareDeclaration, String.append_assoc]

theorem ink_bare_call (language : Language) (name : String) :
    (language.call none name [] [] none).ink = name ++ "()" := by
  cases language with
  | kotlin =>
      change String.join [name, "(", ")"] = _
      simp
  | groovy =>
      change String.join [name, "(", ")"] = _
      simp

theorem ink_mavenRepository (language : Language) (url : String) :
    (language.mavenRepository url).ink = language.repositoryText url := by
  cases language with
  | kotlin => exact ink_text _
  | groovy =>
      change String.join ["maven \x7b", "", "url " ++ _, "", "\x7d"] = _
      simp [repositoryText, String.append_assoc]

end Language

namespace Generator

open Fragment

/-- What a node without children writes, without indents and line endings. -/
def leafText (generator : Generator) (comments : Bool) (node : Node) : String :=
  let target := generator.gradleLanguage?.getD generator.core
  match node with
  | .literal _ value => generator.core.literalText value
  | .reference name => generator.core.referenceText name
  | .block _ => "\x7b\x7d"
  | .typeMention mention => generator.core.typeText mention.type
  | .declaration _ name modifiers _ _ =>
      generator.core.bareDeclaration name modifiers
  | .comment _ written =>
      if comments then String.join ((textLines written).map commentLine) else ""
  | .script _ imports _ => String.join (imports.map ("import " ++ ·))
  | .call _ _ name _ _ _ => name ++ "()"
  | .plugin _ spec => target.pluginText spec
  | .component _ name => target.componentText name
  | .mavenRepository _ url => target.repositoryText url
  | .assignment _ _ _ | .namedBlock _ _ _ | .foreign _ _ _ => ""

variable {generator : Generator} {comments : Bool}

/-- A node of Gradle that is not refused is written by the rule of its language. -/
theorem ink_gradleNode {location : Option SourceLocation} {kind : String}
    {rule : Language → Fragment}
    (succeeds : (mark location ++ generator.gradleNode kind rule).failure = none) :
    (mark location ++ generator.gradleNode kind rule).ink =
      (rule (generator.gradleLanguage?.getD generator.core)).ink := by
  rw [failure_append, failure_mark, Option.none_or] at succeeds
  rw [ink_marked]
  cases generator with
  | language target => cases succeeds
  | gradle target base => rfl

theorem ink_fragment_of_leaf {node : Node} (leaf : node.children = [])
    (succeeds : (generator.fragment comments generator node).failure = none) :
    (generator.fragment comments generator node).ink = generator.leafText comments node := by
  cases node with
  | literal info value => rw [fragment, ink_marked_text, leafText]
  | reference target => rw [fragment, reference, ink_marked_text, leafText]
  | block body =>
      obtain ⟨info, statements⟩ := body
      cases statements with
      | nil =>
          rw [fragment, blockFragment, ink_marked, leafText]
          rfl
      | cons first rest => cases leaf
  | typeMention mention => rw [fragment, typeMention, ink_marked_text, leafText]
  | declaration info name modifiers type initial =>
      cases type with
      | some mention => cases leaf
      | none =>
          cases initial with
          | some node => cases leaf
          | none =>
              rw [fragment, ink_marked, leafText]
              exact Language.ink_bare_declaration _ name modifiers
  | comment info written =>
      rw [fragment, ink_marked, leafText]
      cases comments with
      | true =>
          have whole := ink_onLines ((textLines written).map commentLine)
          rw [List.map_map] at whole
          exact whole
      | false => rfl
  | script info imports statements =>
      cases statements with
      | nil =>
          rw [fragment] at succeeds ⊢
          exact (ink_gradleNode succeeds).trans (ink_script_without_statements imports)
      | cons first rest => cases leaf
  | call info receiver name typeArguments arguments trailing =>
      have bare : receiver = none ∧ typeArguments = [] ∧ arguments = [] ∧ trailing = none := by
        simpa [Node.children, and_assoc] using leaf
      obtain ⟨rfl, rfl, rfl, rfl⟩ := bare
      rw [fragment] at succeeds ⊢
      exact (ink_gradleNode succeeds).trans (Language.ink_bare_call _ name)
  | plugin info spec =>
      rw [fragment] at succeeds ⊢
      exact (ink_gradleNode succeeds).trans (ink_text _)
  | component info name =>
      rw [fragment] at succeeds ⊢
      exact (ink_gradleNode succeeds).trans (ink_text _)
  | mavenRepository info url =>
      rw [fragment] at succeeds ⊢
      exact (ink_gradleNode succeeds).trans (Language.ink_mavenRepository _ url)
  | assignment info target value => cases leaf
  | namedBlock info name body => cases leaf
  | foreign info kind below =>
      rw [fragment, failure_append, failure_mark, Option.none_or] at succeeds
      cases succeeds

end Generator

end BuildScribe
