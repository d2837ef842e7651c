import BuildScribe.Proofs.Description.Outline
import BuildScribe.Proofs.Target.Names

/-!
# Declared values and references to them

Every declared value has a line of its own, and every value that refers to it is written in
the line of the section that it belongs to. Whether the name reads the same in both places
depends on the name and on the language.
-/

namespace BuildScribe

open Generator

variable {target : Language}

theorem content_infix_linesText (options : LayoutOptions) {lines : List Line} {line : Line}
    (member : line ∈ lines) : line.content.toList <:+: (linesText options lines).toList := by
  have shown : line.content.toList <:+: (line.shown options).toList := by
    unfold Line.shown
    split
    · next nothing => simp [String.isEmpty_iff.mp nothing]
    · rw [String.toList_append]
      exact (List.suffix_append _ _).isInfix
  obtain ⟨above, below, rfl⟩ := List.append_of_mem member
  have split := linesText_append options [line] below
  rw [List.singleton_append, linesText_singleton] at split
  rw [linesText_append, split]
  simp only [String.toList_append, List.append_assoc]
  exact shown.trans (List.infix_append' _ _ _)

namespace Language

/-- The word in front of a declared name. -/
def declaringWord : Language → String
  | kotlin => "val "
  | groovy => "def "

theorem declarationText_eq (target : Language) (name written : String) :
    declarationText target name written =
      target.declaringWord ++ target.declaredName name ++ " = " ++ written := by
  cases target <;> rfl

end Language

namespace ScriptDescription

/-- Every line of every statement is found in the text. -/
theorem render_shows_lines {script : ScriptDescription} (distinct : script.vals.keys.Nodup)
    (writable : ∀ value ∈ script.values, value.isWritable = true) {language : String}
    (recognized : foldedName language = target.name) (options : LayoutOptions) :
    ∃ text, script.render .standard language options = .ok text ∧
      ∀ statement ∈ script.statements,
        ∀ line ∈ (standard target).layout options.comments statement,
          line.content.toList <:+: text.toList := by
  refine ⟨_, render_of_writable distinct writable recognized options, ?_⟩
  intro statement isStatement line isLine
  have inBody : line.content.toList <:+: (script.bodyText target options).toList :=
    content_infix_linesText options (List.mem_flatMap.mpr ⟨statement, isStatement, isLine⟩)
  rw [String.toList_append]
  exact inBody.trans (List.suffix_append _ _).isInfix

theorem mem_statements_of_mem_vals {script : ScriptDescription}
    {entry : String × DescribedValue} (declared : entry ∈ script.vals.entries) :
    .declaration ⟨.declaration, none, .empty⟩ entry.1 (.ofList [.val]) none
      (some entry.2.node) ∈ script.statements := by
  apply List.mem_flatMap.mpr
  exact ⟨declarationStep entry, by simp [sectionSteps, List.mem_map_of_mem declared],
    List.mem_singleton_self _⟩

theorem mem_statements_of_mem_properties {script : ScriptDescription}
    {entry : String × DescribedValue} (assigned : entry ∈ script.properties.entries) :
    .assign entry.1 entry.2.node ∈ script.statements := by
  apply List.mem_flatMap.mpr
  exact ⟨assignmentStep entry, by simp [sectionSteps, List.mem_map_of_mem assigned],
    List.mem_singleton_self _⟩

theorem mem_statements_of_signing {script : ScriptDescription}
    {described : SigningDescription} (signs : script.signing = some described) :
    SigningPart.block .publishing described.writtenParts ∈ script.statements := by
  apply List.mem_flatMap.mpr
  exact ⟨.signing described.writtenParts, by simp [sectionSteps, signs],
    List.mem_singleton_self _⟩

/-- The keys of the signing section stand in one of its lines. -/
theorem layout_signing (described : SigningDescription) (comments : Bool) :
    ⟨1, "useInMemoryPgpKeys(" ++ described.key.writtenText target ++ ", " ++
        described.password.writtenText target ++ ")"⟩ ∈
      (standard target).layout comments
        (SigningPart.block .publishing described.writtenParts) := by
  have line := @layout_invoke target comments "useInMemoryPgpKeys" _
    [described.key, described.password] _ _ fun value _ => value.isPhrase_node
  simp only [List.map_cons, List.map_nil, String.intercalate_cons_cons,
    String.intercalate_singleton] at line
  have opening : "useInMemoryPgpKeys" ++ "(" = "useInMemoryPgpKeys(" := rfl
  rw [opening, ← String.append_assoc, ← String.append_assoc] at line
  have inside : Line.mk 0 ("useInMemoryPgpKeys(" ++ described.key.writtenText target ++ ", " ++
        described.password.writtenText target ++ ")") ∈
      (described.writtenParts.map (SigningPart.node .publishing)).flatMap
        ((standard target).layout comments) := by
    rw [SigningDescription.writtenParts, List.map_cons, List.flatMap_cons, SigningPart.node,
      line]
    exact List.mem_cons_self
  rw [SigningPart.block, layout_named (canRender_signing described _)]
  exact List.mem_append_left _ (List.mem_cons_of_mem _ (List.mem_map_of_mem inside))

/-- A description whose values can be written declares every one of its names, and refers to
names wherever a value does. The two spellings of a name are the same exactly if the
reference is a single name in Kotlin, and consists of plain identifiers in Groovy. -/
theorem declared_names_and_references {script : ScriptDescription}
    (distinct : script.vals.keys.Nodup)
    (writable : ∀ value ∈ script.values, value.isWritable = true) {language : String}
    (recognized : foldedName language = target.name) (options : LayoutOptions) :
    (∃ text, script.render .standard language options = .ok text ∧
      (∀ entry ∈ script.vals.entries,
        (target.declaringWord ++ target.declaredName entry.1 ++ " = " ++
          entry.2.writtenText target).toList <:+: text.toList) ∧
      (∀ entry ∈ script.properties.entries,
        (target.referenceText (.ofPath entry.1) ++ " = " ++
          entry.2.writtenText target).toList <:+: text.toList) ∧
      ∀ described, script.signing = some described →
        ("useInMemoryPgpKeys(" ++ described.key.writtenText target ++ ", " ++
          described.password.writtenText target ++ ")").toList <:+: text.toList) ∧
    ∀ name,
      target.declaredName name =
          (DescribedValue.ofJson (.object [("ref", .string name)])).writtenText target ↔
        target.RefersAsDeclared name := by
  refine ⟨?_, target.declaredName_eq_iff⟩
  obtain ⟨text, renders, shows⟩ := render_shows_lines distinct writable recognized options
  refine ⟨text, renders, ?_, ?_, ?_⟩
  · intro entry declared
    have line := @layout_declaration target options.comments ⟨.declaration, none, .empty⟩
      entry.1 _ _ entry.2.isPhrase_node
    have onLine := shows _ (mem_statements_of_mem_vals declared)
    rw [line, List.forall_mem_singleton, target.declarationText_eq] at onLine
    exact onLine
  · intro entry assigned
    have line := @layout_assign target options.comments entry.1 _ _ entry.2.isPhrase_node
    have onLine := shows _ (mem_statements_of_mem_properties assigned)
    rw [line, List.forall_mem_singleton] at onLine
    exact onLine
  · intro described signs
    have onLine := shows _ (mem_statements_of_signing signs) _
      (layout_signing described options.comments)
    exact onLine

/-- A Kotlin name with a dash goes between backticks in its declaration and in both of its
uses. -/
theorem declared_name_between_backticks :
    ["my-key"].Nodup ∧
      (∃ text,
        render
            { vals := ⟨[("my-key", .literal (.string ""))]⟩
              properties := ⟨[("a.b", .reference "my-key")]⟩
              signing := some ⟨.reference "my-key", .literal (.string "c"), true⟩ }
            .standard "Kotlin" {} = .ok text ∧
          "val `my-key` = \"\"".toList <:+: text.toList ∧
          "a.b = `my-key`".toList <:+: text.toList ∧
          "useInMemoryPgpKeys(`my-key`, \"c\")".toList <:+: text.toList) ∧
      Language.kotlin.declaredName "my-key" =
        (DescribedValue.ofJson (.object [("ref", .string "my-key")])).writtenText .kotlin := by
  have distinct : ["my-key"].Nodup := by decide
  obtain ⟨⟨text, renders, declarations, properties, signing⟩, spelled⟩ :=
    @declared_names_and_references .kotlin
      { vals := ⟨[("my-key", .literal (.string ""))]⟩
        properties := ⟨[("a.b", .reference "my-key")]⟩
        signing := some ⟨.reference "my-key", .literal (.string "c"), true⟩ }
      distinct (by decide) "Kotlin" (by decide) {}
  have declared : Language.kotlin.declaringWord ++ Language.kotlin.declaredName "my-key" ++
      " = " ++ (DescribedValue.literal (.string "")).writtenText .kotlin =
        "val `my-key` = \"\"" := by decide
  have assigned : Language.kotlin.referenceText (.ofPath "a.b") ++ " = " ++
      (DescribedValue.reference "my-key").writtenText .kotlin = "a.b = `my-key`" := by decide
  have keys : "useInMemoryPgpKeys(" ++ (DescribedValue.reference "my-key").writtenText .kotlin ++
      ", " ++ (DescribedValue.literal (.string "c")).writtenText .kotlin ++ ")" =
        "useInMemoryPgpKeys(`my-key`, \"c\")" := by decide
  rw [← declared, ← assigned, ← keys]
  exact ⟨distinct,
    ⟨text, renders, declarations ("my-key", .literal (.string "")) List.mem_cons_self,
      properties ("a.b", .reference "my-key") List.mem_cons_self,
      signing ⟨.reference "my-key", .literal (.string "c"), true⟩ rfl⟩,
    (spelled "my-key").mpr (by decide)⟩

/-- Groovy declares the name as it is and reads it off `this`, so the two differ. -/
theorem groovy_reference_differs_from_declaration :
    render
        { vals := ⟨[("my-key", .literal (.string ""))]⟩
          signing := some ⟨.reference "my-key", .literal (.string ""), true⟩ }
        .standard "groovy" {} =
      .ok ("def my-key = ''\nsigning \x7b\n    useInMemoryPgpKeys(this.'my-key', '')\n" ++
        "    sign(publishing.publications)\n\x7d\n") ∧
      Language.groovy.declaredName "my-key" ≠
        (DescribedValue.ofJson (.object [("ref", .string "my-key")])).writtenText .groovy :=
  ⟨rfl, by decide⟩

end ScriptDescription

end BuildScribe
