import BuildScribe.Proofs.Building.Renderable
import BuildScribe.Proofs.Layout.Phrase
import BuildScribe.Proofs.Rendering.Formatting
import BuildScribe.Proofs.Rendering.Shape

/-!
# The lines of statements

The statements of a Gradle script are single lines, and blocks of deeper lines behind the
line that opens them. What is written on a line is spelled out from the names and the
values of the statement.
-/

namespace BuildScribe.Generator

open Fragment

variable {target : Language} {comments : Bool}

theorem backtickedName_ne_empty (name : String) : Language.backtickedName name ≠ "" := by
  unfold Language.backtickedName
  split
  · rintro rfl
    contradiction
  · simp

theorem succeed_of_canRender {generator : Generator} {statements : List Node}
    (renderable : ∀ statement ∈ statements, generator.CanRender statement)
    (comments : Bool) :
    ∀ written ∈ statements.map (fragment comments generator generator),
      written.failure = none :=
  List.forall_mem_map.mpr fun statement isStatement =>
    (renderable statement isStatement).succeeds comments

theorem isPhrase_literal (value : LiteralValue) :
    ((standard target).fragment comments (standard target) (.ofLiteral value)).IsPhrase
      (target.literalText value) := by
  rw [Node.ofLiteral, fragment]
  exact (IsPhrase.text _).marked _

theorem isPhrase_reference (reference : Reference) :
    ((standard target).fragment comments (standard target) (.reference reference)).IsPhrase
      (target.referenceText reference) := by
  rw [fragment]
  exact (IsPhrase.text _).marked _

theorem isPhrase_component (info : Metadata) (name : String) :
    ((standard target).fragment comments (standard target) (.component info name)).IsPhrase
      (target.componentText name) := by
  rw [fragment]
  exact (IsPhrase.text _).marked info.location

theorem layout_assign (path : String) {value : Node} {written : String}
    (onValue : ((standard target).fragment comments (standard target) value).IsPhrase
      written) :
    (standard target).layout comments (.assign path value) =
      [⟨0, target.referenceText (.ofPath path) ++ " = " ++ written⟩] := by
  have named := @isPhrase_reference target comments (.ofPath path)
  rw [fragment_reference] at named
  rw [layout, Node.assign, fragment]
  exact (((named.append (.text " = ")).append onValue).marked none).layout (by simp)

/-- The line of a declaration of a read-only name. -/
def declarationText (target : Language) (name written : String) : String :=
  match target with
  | .kotlin => "val " ++ Language.backtickedName name ++ " = " ++ written
  | .groovy => "def " ++ name ++ " = " ++ written

theorem layout_declaration (info : Metadata) (name : String) {value : Node}
    {written : String}
    (onValue : ((standard target).fragment comments (standard target) value).IsPhrase
      written) :
    (standard target).layout comments
        (.declaration info name (.ofList [.val]) none (some value)) =
      [⟨0, declarationText target name written⟩] := by
  rw [layout, fragment, optionFragment]
  have value : (text " = " ++
      (standard target).fragment comments (standard target) value).IsPhrase
        (" = " ++ written) := (IsPhrase.text " = ").append onValue
  cases target with
  | kotlin =>
      have declared := ((((IsPhrase.text "").append (.text "val ")).append
        (.text (Language.backtickedName name))).append .empty).append value
      have line := (declared.marked info.location).layout (by simp)
      rw [String.empty_append, String.append_empty, ← String.append_assoc] at line
      exact line
  | groovy =>
      have declared := (((IsPhrase.text "").append (.text "def ")).append
        (.text name)).append value
      have line := (declared.marked info.location).layout (by simp)
      rw [String.empty_append, ← String.append_assoc] at line
      exact line

/-- A call without a receiver and with nothing but arguments in parentheses. -/
theorem layout_invoke (name : String) {α : Type} {items : List α} {argument : α → Node}
    {written : α → String}
    (onArguments : ∀ item ∈ items,
      ((standard target).fragment comments (standard target) (argument item)).IsPhrase
        (written item)) :
    (standard target).layout comments (.invoke name (items.map argument)) =
      [⟨0, name ++ "(" ++ String.intercalate ", " (items.map written) ++ ")"⟩] := by
  have parenthesized := ((IsPhrase.text "(").append (.separated onArguments ", ")).append
    (.text ")")
  have whole := (((IsPhrase.empty.append (.text name)).append .empty).append
    parenthesized).append .empty
  rw [String.empty_append, String.append_empty, String.append_empty,
    ← String.append_assoc, ← String.append_assoc] at whole
  have called : (target.call none name [] (items.map fun item =>
      fragment comments (standard target) (standard target) (argument item)) none).IsPhrase
        (name ++ "(" ++ String.intercalate ", " (items.map written) ++ ")") := by
    rw [Language.call_eq]
    cases target <;> simpa [Language.listed] using whole
  rw [layout, Node.invoke, fragment, listFragment_eq_map, List.map_map, layout_marked]
  exact called.layout (by simp)

theorem layout_named {name : String} {statements : List Node}
    (renderable : (standard target).CanRender (.named name statements)) :
    (standard target).layout comments (.named name statements) =
      ⟨0, name ++ " " ++ "\x7b"⟩ ::
        (statements.flatMap ((standard target).layout comments)).map (Line.deeper 1) ++
        [⟨0, "\x7d"⟩] := by
  have onBlock := (canRender_iff.mp renderable).2 (.block (.of statements))
    List.mem_cons_self
  have head := (IsPhrase.text name).append (.text " ")
  have block := head.layout_braces
    (succeed_of_canRender (canRender_iff.mp onBlock).2 comments)
  rw [List.flatMap_map] at block
  rw [layout, Node.named, fragment, Block.of, blockFragment, listFragment_eq_map,
    layout_marked]
  exact block

/-- The head of the block that creates a publication. -/
def publicationHead (target : Language) (name typeName : String) : String :=
  match target with
  | .kotlin => "create<" ++ typeName ++ ">(" ++ Language.kotlin.stringLiteral name ++ ") "
  | .groovy => "create(" ++ Language.groovy.stringLiteral name ++ ", " ++ typeName ++ ") "

theorem layout_publication {publication : Publication}
    (renderable : (standard target).CanRender publication.node) :
    (standard target).layout comments publication.node =
      ⟨0, publicationHead target publication.name publication.typeName ++ "\x7b"⟩ ::
        (publication.parts.flatMap fun part =>
          (standard target).layout comments part.node).map (Line.deeper 1) ++
        [⟨0, "\x7d"⟩] := by
  have onBlock := (canRender_iff.mp renderable).2
    (.block (.of (publication.parts.map PublicationPart.node)))
    (by simp [Publication.node, Node.children])
  have succeed := succeed_of_canRender (canRender_iff.mp onBlock).2 comments
  have opened {head : Fragment} {written : String} (isHead : head.IsPhrase written) :=
    (isHead.append (.text " ")).layout_braces succeed
  simp only [append_assoc _ (text " "), Node.children, Block.of, List.flatMap_map] at opened
  have name := IsPhrase.text (target.stringLiteral publication.name)
  have type := IsPhrase.text publication.typeName
  have create := IsPhrase.empty.append (.text "create")
  rw [layout, Publication.node, fragment, listFragment_eq_map, optionBlockFragment,
    Block.of, blockFragment, listFragment_eq_map, layout_marked]
  cases target with
  | kotlin =>
      have parameters := ((IsPhrase.text "<").append type).append (.text ">")
      have arguments := ((IsPhrase.text "(").append name).append (.text ")")
      have block := opened ((create.append parameters).append arguments)
      simp only [String.empty_append, String.append_assoc] at block
      simp only [publicationHead, String.append_assoc]
      exact block
  | groovy =>
      have listed := (name.append (.text ", ")).append type
      have arguments := ((IsPhrase.text "(").append listed).append (.text ")")
      have block := opened ((create.append .empty).append arguments)
      simp only [String.empty_append, String.append_empty, String.append_assoc] at block
      simp only [publicationHead, String.append_assoc]
      exact block

theorem pluginText_ne_empty (spec : PluginSpec) : target.pluginText spec ≠ "" := by
  have onId : target.pluginId spec ≠ "" := by
    unfold Language.pluginId
    split
    · exact backtickedName_ne_empty _
    · simp
    · simp
  unfold Language.pluginText
  simp [onId]

theorem layout_plugin (spec : PluginSpec) :
    (standard target).layout comments spec.node = [⟨0, target.pluginText spec⟩] := by
  rw [layout, PluginSpec.node, fragment, layout_marked]
  exact (IsPhrase.text _).layout (pluginText_ne_empty spec)

theorem layout_mavenRepository (url : String) :
    (standard target).layout comments (Repository.maven url).node =
      match target with
      | .kotlin => [⟨0, "maven(" ++ Language.kotlin.stringLiteral url ++ ")"⟩]
      | .groovy =>
          [⟨0, "maven \x7b"⟩, ⟨1, "url " ++ Language.groovy.stringLiteral url⟩,
            ⟨0, "\x7d"⟩] := by
  rw [layout, Repository.node, fragment, layout_marked]
  cases target with
  | kotlin => exact (IsPhrase.text _).layout (by simp)
  | groovy =>
      have address := (IsPhrase.text ("url " ++ Language.groovy.stringLiteral url)).layout
        (by simp)
      have opened : Page.blank.writeAll 0 (text "maven \x7b" ++ finish).pieces =
          Page.ofLines [⟨0, "maven \x7b"⟩] := rfl
      change (Language.groovy.mavenRepository url).layout = _
      rw [Language.mavenRepository, Fragment.layout, pieces_append rfl, pieces_append rfl,
        Page.writeAll_append, Page.writeAll_append, opened, Page.writeAll_nested,
        pieces_append rfl, Page.writeAll_append, Page.writeAll_finish,
        Page.settle_writeAll_ofLines, address]
      rfl

theorem layout_commentNode (generator : Generator) (info : Metadata) (text : String) :
    generator.layout comments (.comment info text) =
      if comments then (textLines text).map fun line => ⟨0, commentLine line⟩ else [] := by
  rw [layout, fragment, layout_marked]
  split
  · exact layout_comment text
  · rfl

theorem layout_ofComment (text : String) :
    (standard target).layout comments (.ofComment text) =
      if comments then (textLines text).map fun line => ⟨0, commentLine line⟩ else [] :=
  layout_commentNode (standard target) _ text

end BuildScribe.Generator
