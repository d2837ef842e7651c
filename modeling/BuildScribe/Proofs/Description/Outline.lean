import BuildScribe.Proofs.Description.Sections
import BuildScribe.Proofs.Rendering.Statements
import BuildScribe.Proofs.Target.Unescaped

/-!
# The outline of a script

The lines of a script are outlined by the structure of its description: by what is there,
how often, and in which form. The strings of a description only fill the lines, and those
that are written as they are bring their own line feeds along.
-/

namespace BuildScribe

open Generator Fragment

variable {target : Language} {comments : Bool}

namespace DescribedValue

/-- How the value is written. -/
def writtenText (target : Language) : DescribedValue → String
  | reference path => target.referenceText (.ofPath path)
  | literal (.string value) => target.literalText (.string value)
  | literal (.bool value) => target.literalText (.boolean value)
  | literal (.number value) => target.literalText (numberLiteral value)
  | literal _ => target.literalText .null

/-- The string in the value that is written as it is. -/
def bareText (target : Language) : DescribedValue → String
  | reference path => target.unescaped path
  | literal _ => ""

theorem isPhrase_node (value : DescribedValue) :
    ((standard target).fragment comments (standard target) value.node).IsPhrase
      (value.writtenText target) := by
  cases value with
  | reference path => exact isPhrase_reference _
  | literal json => cases json <;> exact isPhrase_literal _

theorem lineFeeds_writtenText (value : DescribedValue) :
    lineFeeds (value.writtenText target) = lineFeeds (value.bareText target) := by
  cases value with
  | reference path => exact target.lineFeeds_referenceText path
  | literal json => cases json <;> exact (target.isInline_literalText _).lineFeeds_eq

end DescribedValue

namespace Generator

theorem outlined_assign (path : String) {value : Node} {written bare : String}
    (onValue : ((standard target).fragment comments (standard target) value).IsPhrase
      written) (feeds : lineFeeds written = lineFeeds bare) :
    Outlined ((standard target).layout comments (.assign path value)) [.inked]
      (target.unescaped path ++ bare) := by
  have equals : lineFeeds " = " = 0 := rfl
  rw [layout_assign path onValue]
  apply Outlined.line (by simp)
  simp only [lineFeeds_append, Language.lineFeeds_referenceText, feeds, equals, Nat.add_zero]

/-- An assignment of a string to a name that is known beforehand. -/
theorem outlined_assign_string {path : String} (inline : IsInline path) (value : String) :
    Outlined ((standard target).layout comments (.assign path (.ofString value))) [.inked]
      "" := by
  have literal : lineFeeds (target.literalText (.string value)) = lineFeeds "" :=
    target.lineFeeds_stringLiteral value
  have named : lineFeeds (target.unescaped path) = 0 := by
    cases target with
    | kotlin => exact inline.lineFeeds_eq
    | groovy => rfl
  have assigned := @outlined_assign target comments path _ _ _
    (isPhrase_literal (.string value)) literal
  apply assigned.congr
  rw [String.append_empty, named, lineFeeds_empty]

theorem outlined_component (name : String) :
    Outlined ((standard target).layout comments (PublicationPart.component name).node)
      [.inked] "" := by
  have line := @layout_invoke target comments "from" _ [name] _ _
    fun name _ => isPhrase_component ⟨.expression, none, .empty⟩ name
  have inline : IsInline ("from" ++ "(" ++ target.componentText name ++ ")") :=
    (IsInline.append (by decide) (target.isInline_componentText name)).append (by decide)
  rw [List.map_singleton, List.map_singleton, String.intercalate_singleton] at line
  rw [PublicationPart.node, line]
  exact .inlineLine (by simp) inline

theorem lineFeeds_declarationText (target : Language) (name written : String) :
    lineFeeds (declarationText target name written) = lineFeeds name + lineFeeds written := by
  have equals : lineFeeds " = " = 0 := rfl
  have kotlinWord : lineFeeds "val " = 0 := rfl
  have groovyWord : lineFeeds "def " = 0 := rfl
  cases target with
  | kotlin =>
      rw [declarationText]
      simp only [lineFeeds_append, Language.lineFeeds_backtickedName, equals, kotlinWord]
      omega
  | groovy =>
      rw [declarationText]
      simp only [lineFeeds_append, equals, groovyWord]
      omega

theorem lineFeeds_publicationHead (target : Language) (name typeName : String) :
    lineFeeds (publicationHead target name typeName) = lineFeeds typeName := by
  have comma : lineFeeds ", " = 0 := rfl
  have closing : lineFeeds ") " = 0 := rfl
  have kotlinWord : lineFeeds "create<" = 0 := rfl
  have middle : lineFeeds ">(" = 0 := rfl
  have groovyWord : lineFeeds "create(" = 0 := rfl
  cases target with
  | kotlin =>
      rw [publicationHead]
      simp only [lineFeeds_append, Language.lineFeeds_stringLiteral, closing, kotlinWord,
        middle]
      omega
  | groovy =>
      rw [publicationHead]
      simp only [lineFeeds_append, Language.lineFeeds_stringLiteral, closing, groovyWord,
        comma]
      omega

theorem outlined_named {name : String} (inline : IsInline name) {statements : List Node}
    (renderable : (standard target).CanRender (.named name statements))
    {outline : List LineOutline} {bare : String}
    (inside : Outlined (statements.flatMap ((standard target).layout comments)) outline
      bare) :
    Outlined ((standard target).layout comments (.named name statements))
      (LineOutline.block outline) bare := by
  have head : lineFeeds (name ++ " ") = lineFeeds "" :=
    (inline.append (show IsInline " " by decide)).lineFeeds_eq
  rw [layout_named renderable]
  have block := Outlined.block head inside
  rw [String.empty_append] at block
  exact block

end Generator

/-- The string in the plugin that is written as it is. -/
def PluginDescription.bareText (target : Language) : PluginDescription → String
  | core name => target.unescaped name
  | external _ _ _ => ""

theorem PluginDescription.outlined_spec (plugin : PluginDescription) :
    Outlined ((standard target).layout comments plugin.spec.node) [.inked]
      (plugin.bareText target) := by
  rw [layout_plugin]
  apply Outlined.line (pluginText_ne_empty _)
  rw [Language.lineFeeds_pluginText]
  cases plugin <;> rfl

theorem PluginDescription.outlined_block (plugins : List PluginDescription) :
    Outlined ((standard target).layout comments (PluginSpec.block (plugins.map (·.spec))))
      (LineOutline.block (plugins.flatMap fun _ => [.inked]))
      (String.join (plugins.map (bareText target))) := by
  apply outlined_named (by decide) (PluginSpec.canRender_block _)
  rw [List.map_map, List.flatMap_map]
  exact Outlined.flatMap fun plugin _ => plugin.outlined_spec

namespace Repository

def outline (target : Language) : Repository → List LineOutline
  | maven _ =>
      match target with
      | .kotlin => [.inked]
      | .groovy => LineOutline.block [.inked]
  | _ => [.inked]

theorem outlined_node (repository : Repository) :
    Outlined ((standard target).layout comments repository.node)
      (repository.outline target) "" := by
  have call {name : String} (inline : IsInline name) :
      Outlined ((standard target).layout comments (.invoke name [])) [.inked] "" := by
    have line := @layout_invoke target comments name Node [] id (fun _ => "") (by simp)
    have spelled : IsInline (name ++ "(" ++ String.intercalate ", " [] ++ ")") :=
      ((inline.append (by decide)).append (by decide)).append (by decide)
    rw [List.map_nil] at line
    rw [line]
    exact .inlineLine (by simp) spelled
  cases repository with
  | maven url =>
      rw [layout_mavenRepository]
      cases target with
      | kotlin =>
          have address : IsInline ("maven(" ++ Language.kotlin.stringLiteral url ++ ")") :=
            (IsInline.append (by decide) (Language.kotlin.isInline_stringLiteral url)).append
              (by decide)
          exact .inlineLine (by simp) address
      | groovy =>
          have address : IsInline ("url " ++ Language.groovy.stringLiteral url) :=
            .append (by decide) (Language.groovy.isInline_stringLiteral url)
          have head : lineFeeds "maven " = lineFeeds "" := rfl
          have something : "url " ++ Language.groovy.stringLiteral url ≠ "" := by simp
          exact .block head (.inlineLine something address)
  | _ => exact call (by decide)

theorem outlined_block (repositories : List Repository) :
    Outlined ((standard target).layout comments (Repository.block repositories))
      (LineOutline.block (repositories.flatMap (outline target))) "" := by
  apply outlined_named (by decide) (Repository.canRender_block _)
  rw [List.flatMap_map]
  exact Outlined.flatMap_inline fun repository _ => repository.outlined_node

end Repository

namespace PublicationDescription

/-- The lines of the block that creates the publication. -/
def outline (described : PublicationDescription) : List LineOutline :=
  LineOutline.block (described.publication.parts.flatMap fun _ => [.inked])

theorem outlined_node (described : PublicationDescription) :
    Outlined ((standard target).layout comments described.publication.node)
      described.outline described.typeName := by
  have parts : Outlined
      (described.publication.parts.flatMap fun part =>
        (standard target).layout comments part.node)
      (described.publication.parts.flatMap fun _ => [.inked]) "" := by
    apply Outlined.flatMap_inline
    intro part isPart
    simp only [publication, List.mem_append, Option.mem_toList,
      Option.map_eq_some_iff] at isPart
    rcases isPart with ((⟨name, _, rfl⟩ | ⟨value, _, rfl⟩) | ⟨value, _, rfl⟩) |
      ⟨value, _, rfl⟩
    · exact outlined_component name
    · exact outlined_assign_string (by decide) value
    · exact outlined_assign_string (by decide) value
    · exact outlined_assign_string (by decide) value
  have head := lineFeeds_publicationHead target described.name described.typeName
  rw [layout_publication (ScriptDescription.canRender_publication described)]
  have block := Outlined.block head parts
  rw [String.append_empty] at block
  exact block

end PublicationDescription

namespace PublishingDescription

def outline (target : Language) (described : PublishingDescription) : List LineOutline :=
  LineOutline.block
    ((if described.repositories.isEmpty then []
      else LineOutline.block (described.repositories.flatMap (Repository.outline target))) ++
      (if described.publications.isEmpty then []
        else LineOutline.block (described.publications.flatMap (·.outline))))

/-- The names of types are written as they are. -/
def bareText (described : PublishingDescription) : String :=
  String.join (described.publications.map (·.typeName))

theorem outlined_block (described : PublishingDescription) :
    Outlined ((standard target).layout comments (PublishingPart.block described.parts))
      (described.outline target) described.bareText := by
  have repositories : Outlined
      ((standard target).layout comments
        (PublishingPart.repositories described.repositories).node)
      (LineOutline.block (described.repositories.flatMap (Repository.outline target))) "" :=
    Repository.outlined_block _
  have publications : Outlined
      ((standard target).layout comments
        (PublishingPart.publications (described.publications.map (·.publication))).node)
      (LineOutline.block (described.publications.flatMap (·.outline)))
      described.bareText := by
    apply outlined_named (by decide)
    · apply canRender_named
      rw [List.forall_mem_map, List.forall_mem_map]
      exact fun publication _ => ScriptDescription.canRender_publication publication
    · rw [List.flatMap_map, List.flatMap_map]
      exact Outlined.flatMap fun publication _ => publication.outlined_node
  have silent : described.publications = [] → lineFeeds described.bareText = 0 := by
    intro none
    rw [bareText, none]
    rfl
  apply outlined_named (by decide) (ScriptDescription.canRender_publishing described)
  rw [List.flatMap_map, parts, List.flatMap_append]
  exact .inline_append (.unlessEmpty _ repositories fun _ => rfl)
    (.unlessEmpty _ publications silent)

end PublishingDescription

namespace SigningDescription

def outline (described : SigningDescription) : List LineOutline :=
  LineOutline.block (.inked :: if described.signPublications then [.inked] else [])

/-- The strings in the key and in the password that are written as they are. -/
def bareText (target : Language) (described : SigningDescription) : String :=
  described.key.bareText target ++ described.password.bareText target

theorem outlined_keys (described : SigningDescription) (handle : Handle) :
    Outlined ((standard target).layout comments
        ((SigningPart.keys described.key.node described.password.node).node handle))
      [.inked] (described.bareText target) := by
  have line := @layout_invoke target comments "useInMemoryPgpKeys" _
    [described.key, described.password] _ _ fun value _ => value.isPhrase_node
  have opening : lineFeeds "useInMemoryPgpKeys" = 0 := rfl
  have delimiters : lineFeeds "(" = 0 ∧ lineFeeds ", " = 0 ∧ lineFeeds ")" = 0 :=
    ⟨rfl, rfl, rfl⟩
  simp only [List.map_cons, List.map_nil, String.intercalate_cons_cons,
    String.intercalate_singleton] at line
  rw [SigningPart.node, line]
  apply Outlined.line (by simp)
  simp only [bareText, lineFeeds_append, DescribedValue.lineFeeds_writtenText, opening,
    delimiters]
  omega

theorem outlined_publications :
    Outlined ((standard target).layout comments (SigningPart.publications.node .publishing))
      [.inked] "" := by
  have line := @layout_invoke target comments "sign" _
    [(Handle.publishing.child "publications").toReference] _ _
    fun reference _ => isPhrase_reference reference
  have inline : IsInline ("sign" ++ "(" ++
      target.referenceText (Handle.publishing.child "publications").toReference ++ ")") := by
    cases target <;> decide
  rw [List.map_singleton, List.map_singleton, String.intercalate_singleton] at line
  rw [SigningPart.node, line]
  exact .inlineLine (by simp) inline

theorem outlined_block (described : SigningDescription) :
    Outlined ((standard target).layout comments
        (SigningPart.block .publishing described.writtenParts))
      described.outline (described.bareText target) := by
  have publications (signs : Bool) :
      Outlined
        ((if signs then [SigningPart.publications] else []).flatMap fun part =>
          (standard target).layout comments (part.node .publishing))
        (if signs then [.inked] else []) "" := by
    cases signs with
    | false => exact .nil
    | true =>
        rw [if_pos rfl, if_pos rfl, List.flatMap_singleton]
        exact outlined_publications
  apply outlined_named (by decide) (ScriptDescription.canRender_signing described _)
  rw [List.flatMap_map, writtenParts, List.flatMap_cons]
  exact (described.outlined_keys .publishing).append_inline (publications _)

end SigningDescription

namespace ScriptDescription

/-- The lines of the sections of the script. -/
def outline (target : Language) (comments : Bool) (script : ScriptDescription) :
    List LineOutline :=
  script.comment.toList.flatMap
      (fun text => if comments then (textLines text).map fun _ => .inked else []) ++
    (if script.plugins.isEmpty then []
      else LineOutline.block (script.plugins.flatMap fun _ => [.inked])) ++
    script.group.toList.flatMap (fun _ => [.inked]) ++
    script.version.toList.flatMap (fun _ => [.inked]) ++
    script.vals.entries.flatMap (fun _ => [.inked]) ++
    script.properties.entries.flatMap (fun _ => [.inked]) ++
    (if script.repositories.isEmpty then []
      else LineOutline.block (script.repositories.flatMap (Repository.outline target))) ++
    script.publishing.toList.flatMap (PublishingDescription.outline target) ++
    script.signing.toList.flatMap SigningDescription.outline

/-- The strings in the sections of the script that are written as they are. -/
def sectionsBareText (target : Language) (script : ScriptDescription) : String :=
  String.join (script.plugins.map (PluginDescription.bareText target)) ++
    String.join (script.vals.entries.map fun entry => entry.1 ++ entry.2.bareText target) ++
    String.join (script.properties.entries.map fun entry =>
      target.unescaped entry.1 ++ entry.2.bareText target) ++
    String.join (script.publishing.toList.map PublishingDescription.bareText) ++
    String.join (script.signing.toList.map (SigningDescription.bareText target))

/-- The lines of a step of the script. -/
def stepLines (target : Language) (comments : Bool) (step : RootStep) : List Line :=
  (step.written .publishing).flatMap ((standard target).layout comments)

/-- A step that adds one statement has the lines of the statement. -/
theorem outlined_step {step : RootStep} {node : Node}
    (adds : step.written .publishing = [node]) {outline : List LineOutline} {bare : String}
    (onNode : Outlined ((standard target).layout comments node) outline bare) :
    Outlined (stepLines target comments step) outline bare := by
  rw [stepLines, adds, List.flatMap_singleton]
  exact onNode

theorem outlined_comment (text : String) :
    Outlined ((standard target).layout comments (.ofComment text))
      (if comments then (textLines text).map fun _ => .inked else []) "" := by
  rw [layout_ofComment]
  cases comments with
  | false => exact .nil
  | true =>
      rw [if_pos rfl, if_pos rfl, List.map_eq_flatMap, List.map_eq_flatMap]
      apply Outlined.flatMap_inline
      intro line isLine
      exact .inlineLine (commentLine_ne_empty line) (isInline_commentLine isLine)

theorem outlined_declaration (entry : String × DescribedValue) :
    Outlined (stepLines target comments (declarationStep entry)) [.inked]
      (entry.1 ++ entry.2.bareText target) := by
  apply outlined_step rfl
  have something : declarationText target entry.1 (entry.2.writtenText target) ≠ "" := by
    cases target <;> simp [declarationText]
  rw [Option.map_none, layout_declaration _ entry.1 entry.2.isPhrase_node]
  apply Outlined.line something
  rw [lineFeeds_declarationText, lineFeeds_append, entry.2.lineFeeds_writtenText]

theorem outlined_assignment (entry : String × DescribedValue) :
    Outlined (stepLines target comments (assignmentStep entry)) [.inked]
      (target.unescaped entry.1 ++ entry.2.bareText target) :=
  outlined_step rfl
    (outlined_assign entry.1 entry.2.isPhrase_node entry.2.lineFeeds_writtenText)

theorem outlined_statements (script : ScriptDescription) :
    Outlined (script.statements.flatMap ((standard target).layout comments))
      (script.outline target comments) (script.sectionsBareText target) := by
  have optional {α : Type} {content : Option α} {step : α → RootStep}
      {outlineOf : α → List LineOutline} {bareOf : α → String}
      (own : ∀ value, Outlined (stepLines target comments (step value)) (outlineOf value)
        (bareOf value)) :
      Outlined ((content.map step).toList.flatMap (stepLines target comments))
        (content.toList.flatMap outlineOf) (String.join (content.toList.map bareOf)) := by
    rw [Option.toList_map, List.flatMap_map]
    exact Outlined.flatMap fun value _ => own value
  have optionalInline {α : Type} {content : Option α} {step : α → RootStep}
      {outlineOf : α → List LineOutline}
      (own : ∀ value, Outlined (stepLines target comments (step value)) (outlineOf value)
        "") :
      Outlined ((content.map step).toList.flatMap (stepLines target comments))
        (content.toList.flatMap outlineOf) "" := by
    rw [Option.toList_map, List.flatMap_map]
    exact Outlined.flatMap_inline fun value _ => own value
  have steps : script.statements.flatMap ((standard target).layout comments) =
      script.sectionSteps.flatMap (stepLines target comments) := by
    rw [statements, List.flatMap_assoc]
    rfl
  have listed {entries : List (String × DescribedValue)}
      {step : String × DescribedValue → RootStep} {bareOf : String × DescribedValue → String}
      (own : ∀ entry, Outlined (stepLines target comments (step entry)) [.inked]
        (bareOf entry)) :
      Outlined ((entries.map step).flatMap (stepLines target comments))
        (entries.flatMap fun _ => [.inked]) (String.join (entries.map bareOf)) := by
    rw [List.flatMap_map]
    exact Outlined.flatMap fun entry _ => own entry
  have silent : script.plugins = [] →
      lineFeeds (String.join (script.plugins.map (PluginDescription.bareText target))) = 0 := by
    intro none
    rw [none]
    rfl
  rw [steps]
  simp only [sectionSteps, publishingSteps, List.flatMap_append, ← List.append_assoc]
  refine .append (.append (.append_inline (.append (.append (.append_inline (.append_inline
    (.inline_append ?comment ?plugins) ?group) ?version) ?vals) ?properties) ?repositories)
    ?publishing) ?signing
  case comment => exact optionalInline fun text => outlined_step rfl (outlined_comment text)
  case plugins =>
    exact .unlessEmpty _ (outlined_step rfl (PluginDescription.outlined_block _)) silent
  case group =>
    exact optionalInline fun value =>
      outlined_step rfl (outlined_assign_string (by decide) value)
  case version =>
    exact optionalInline fun value =>
      outlined_step rfl (outlined_assign_string (by decide) value)
  case vals => exact listed outlined_declaration
  case properties => exact listed outlined_assignment
  case repositories =>
    exact .unlessEmpty _ (outlined_step rfl (Repository.outlined_block _)) fun _ => rfl
  case publishing => exact optional fun described => outlined_step rfl described.outlined_block
  case signing => exact optional fun described => outlined_step rfl described.outlined_block

/-- The lines of the whole script: the imports, the blank line behind them, the sections. -/
def scriptOutline (target : Language) (comments : Bool) (script : ScriptDescription) :
    List LineOutline :=
  (ImportSet.insertAll [] script.imports).flatMap (fun _ => [.inked]) ++
    (if (ImportSet.insertAll [] script.imports).isEmpty || script.sections.isEmpty then []
      else [⟨0, true⟩]) ++
    script.outline target comments

/-- The strings of the description that are written as they are. In both languages these are
the imports, the names of the declared values and the types of publications; in Kotlin also
the core plugins, the properties and what values refer to. -/
def bareText (target : Language) (script : ScriptDescription) : String :=
  String.join (ImportSet.insertAll [] script.imports) ++ script.sectionsBareText target

theorem outlined_node (script : ScriptDescription) :
    Outlined ((standard target).layout comments script.node)
      (script.scriptOutline target comments) (script.bareText target) := by
  have imports (paths : List String) :
      Outlined (paths.map fun path => ⟨0, "import " ++ path⟩)
        (paths.flatMap fun _ => [.inked]) (String.join paths) := by
    have word : lineFeeds "import " = 0 := rfl
    have lines := @Outlined.flatMap _ paths (fun path => [⟨0, "import " ++ path⟩])
      (fun _ => [.inked]) id fun path _ =>
        .line (by simp) (by rw [lineFeeds_append, word, Nat.zero_add]; rfl)
    rw [List.map_id] at lines
    rw [List.map_eq_flatMap]
    exact lines
  have gap (absent : Bool) :
      Outlined (if absent then [] else [⟨0, ""⟩]) (if absent then [] else [⟨0, true⟩])
        "" := by
    cases absent with
    | true => exact .nil
    | false => exact ⟨rfl, rfl⟩
  rw [node, Node.ofStatements, standard, layout_script canRender_of_mem_statements,
    statements_isEmpty]
  exact ((imports _).append_inline (gap _)).append script.outlined_statements

end ScriptDescription

end BuildScribe
