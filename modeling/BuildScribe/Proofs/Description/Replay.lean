import BuildScribe.Description.Script
import BuildScribe.Proofs.Building.Catalogue
import BuildScribe.Proofs.Building.Renderable
import BuildScribe.Proofs.Json.Yield

/-!
# Replayed descriptions

A description is replayed as plain steps once all of its values can be written. The
names it declares are the keys of a map, so in a fresh scope they are all new, and the
script it becomes is made of what its steps add.
-/

namespace BuildScribe

namespace DescribedValue

/-- Whether a script can hold the value: a scalar or a reference. -/
def isWritable : DescribedValue → Bool
  | reference _ => true
  | literal (.array _) => false
  | literal (.object _) => false
  | literal _ => true

/-- The failure for a value that no script can hold. -/
def refusal? (value : DescribedValue) : Option Failure :=
  if value.isWritable then none else some (.input (.noScalar value.toJson.compact))

/-- The node of a writable value; any other one counts as null. -/
def node : DescribedValue → Node
  | reference path => .ofPath path
  | literal (.string value) => .ofString value
  | literal (.bool value) => .ofLiteral (.boolean value)
  | literal (.number value) => .ofLiteral (numberLiteral value)
  | literal _ => .ofLiteral .null

theorem canRender_node {target : Language} {base : Generator} (value : DescribedValue) :
    (Generator.gradle target base).CanRender value.node := by
  cases value with
  | reference path => exact Generator.canRender_reference _
  | literal json => cases json <;> exact Generator.canRender_literal _

/-- A result for which values have to be written: the first one that cannot be is
refused. -/
def onceWritten {α : Type} (values : List DescribedValue) (result : α) :
    Except Failure α :=
  match values.findSome? refusal? with
  | some failure => .error failure
  | none => .ok result

theorem findSome?_refusal? (values : List DescribedValue) :
    values.findSome? refusal? =
      (values.find? fun value => !value.isWritable).map fun value =>
        .input (.noScalar value.toJson.compact) :=
  findSome?_unless isWritable _ values

theorem onceWritten_of_first {α : Type} {values : List DescribedValue}
    {value : DescribedValue}
    (first : values.find? (fun value => !value.isWritable) = some value) (result : α) :
    onceWritten values result = .error (.input (.noScalar value.toJson.compact)) := by
  rw [onceWritten, findSome?_refusal?, first]
  rfl

theorem onceWritten_of_writable {α : Type} {values : List DescribedValue}
    (writable : ∀ value ∈ values, value.isWritable = true) (result : α) :
    onceWritten values result = .ok result := by
  have none : values.find? (fun value => !value.isWritable) = none := by
    simpa [List.find?_eq_none] using writable
  rw [onceWritten, findSome?_refusal?, none]
  rfl

/-- Either some value is the first that no script can hold, or scripts can hold all. -/
theorem exists_first_or_writable (values : List DescribedValue) :
    (∃ value, values.find? (fun value => !value.isWritable) = some value) ∨
      ∀ value ∈ values, value.isWritable = true := by
  cases first : values.find? fun value => !value.isWritable with
  | some value => exact .inl ⟨value, rfl⟩
  | none => exact .inr (by simpa [List.find?_eq_none] using first)

theorem toNode_eq (value : DescribedValue) :
    value.toNode = onceWritten [value] value.node := by
  cases value with
  | reference path => rfl
  | literal json => cases json <;> rfl

theorem onceWritten_bind {α β : Type} (first second : List DescribedValue) (result : α)
    (change : α → β) :
    (onceWritten first result >>= fun known => onceWritten second (change known)) =
      onceWritten (first ++ second) (change result) := by
  unfold onceWritten
  rw [List.findSome?_append]
  cases first.findSome? refusal? <;> rfl

theorem onceWritten_map {α β : Type} (values : List DescribedValue) (result : α)
    (change : α → β) :
    (onceWritten values result >>= fun known => pure (change known)) =
      onceWritten values (change result) := by
  unfold onceWritten
  cases values.findSome? refusal? <;> rfl

/-- Steps that are made from the entries of a map in order. -/
theorem mapM_eq {step : String × DescribedValue → Except Failure RootStep}
    {make : String × DescribedValue → RootStep}
    (made : ∀ entry, step entry = onceWritten [entry.2] (make entry))
    (entries : List (String × DescribedValue)) :
    entries.mapM step = onceWritten (entries.map (·.2)) (entries.map make) := by
  induction entries with
  | nil => rfl
  | cons entry rest ih =>
      rw [List.mapM_cons, made, ih]
      simp only [onceWritten_map, onceWritten_bind]
      rfl

end DescribedValue

open DescribedValue

/-- The statements of the signing section, once its values can be written. -/
def SigningDescription.writtenParts (described : SigningDescription) : List SigningPart :=
  .keys described.key.node described.password.node ::
    (if described.signPublications then [.publications] else [])

theorem SigningDescription.parts_eq (described : SigningDescription) :
    described.parts =
      onceWritten [described.key, described.password] described.writtenParts := by
  unfold SigningDescription.parts
  rw [toNode_eq, toNode_eq]
  simp only [onceWritten_map, onceWritten_bind]
  rfl

namespace ScriptDescription

/-- The values of a description in the order in which they are written. -/
def values (script : ScriptDescription) : List DescribedValue :=
  script.vals.values ++ script.properties.values ++
    script.signing.toList.flatMap fun signing => [signing.key, signing.password]

def declarationStep (entry : String × DescribedValue) : RootStep :=
  .within (.declare entry.1 none entry.2.node)

def assignmentStep (entry : String × DescribedValue) : RootStep :=
  .within (.property entry.1 entry.2.node)

/-- The steps that add the sections of a description, once its values can be
written. -/
def sectionSteps (script : ScriptDescription) : List RootStep :=
  (script.comment.map fun text => .within (.comment text)).toList ++
    (if script.plugins.isEmpty then []
      else [.plugins (script.plugins.map (·.spec))]) ++
    (script.group.map .group).toList ++ (script.version.map .version).toList ++
    script.vals.entries.map declarationStep ++
    script.properties.entries.map assignmentStep ++ script.publishingSteps ++
    (script.signing.map fun signing => .signing signing.writtenParts).toList

def replayedSteps (script : ScriptDescription) : List RootStep :=
  script.imports.map .addImport ++ script.sectionSteps

theorem steps_eq (script : ScriptDescription) :
    script.steps =
      onceWritten script.values script.replayedSteps := by
  -- Every part that has values is refused at its first one, so the whole is refused at
  -- the first of all, in the order in which the parts are bound.
  have declarations : script.vals.entries.mapM declaration =
      onceWritten script.vals.values (script.vals.entries.map declarationStep) := by
    apply mapM_eq
    intro entry
    rw [declaration, toNode_eq, onceWritten_map]
    rfl
  have assignments : script.properties.entries.mapM assignment =
      onceWritten script.properties.values
        (script.properties.entries.map assignmentStep) := by
    apply mapM_eq
    intro entry
    rw [assignment, toNode_eq, onceWritten_map]
    rfl
  have signing : signingSteps script.signing =
      onceWritten
        (script.signing.toList.flatMap fun signing => [signing.key, signing.password])
        (script.signing.map fun signing => .signing signing.writtenParts).toList := by
    cases script.signing with
    | none => rfl
    | some signing =>
        rw [signingSteps, SigningDescription.parts_eq, onceWritten_map]
        rfl
  rw [steps, declarations, assignments, signing]
  simp only [onceWritten_map, onceWritten_bind]
  simp only [values, headSteps, replayedSteps, sectionSteps, List.append_assoc]

/-- The forms of the steps that add sections. -/
inductive IsSectionStep : RootStep → Prop where
  | comment (text : String) : IsSectionStep (.within (.comment text))
  | plugins (specs : List PluginSpec) : IsSectionStep (.plugins specs)
  | group (value : String) : IsSectionStep (.group value)
  | version (value : String) : IsSectionStep (.version value)
  | declaration (entry : String × DescribedValue) : IsSectionStep (declarationStep entry)
  | assignment (entry : String × DescribedValue) : IsSectionStep (assignmentStep entry)
  | repositories (listed : List Repository) : IsSectionStep (.repositories listed)
  | publishing (described : PublishingDescription) :
      IsSectionStep (.publishing described.parts)
  | signing (described : SigningDescription) :
      IsSectionStep (.signing described.writtenParts)

theorem isSectionStep_of_mem {script : ScriptDescription} {step : RootStep}
    (member : step ∈ script.sectionSteps) : IsSectionStep step := by
  simp only [sectionSteps, publishingSteps, List.mem_append, Option.mem_toList,
    Option.map_eq_some_iff, List.mem_map, List.mem_ite_nil_left,
    List.mem_singleton] at member
  rcases member with (((((((⟨text, _, rfl⟩ | ⟨_, rfl⟩) | ⟨value, _, rfl⟩) |
    ⟨value, _, rfl⟩) | ⟨entry, _, rfl⟩) | ⟨entry, _, rfl⟩) |
    (⟨_, rfl⟩ | ⟨described, _, rfl⟩)) | ⟨described, _, rfl⟩)
  · exact .comment text
  · exact .plugins _
  · exact .group value
  · exact .version value
  · exact .declaration entry
  · exact .assignment entry
  · exact .repositories _
  · exact .publishing described
  · exact .signing described

theorem isPlain_of_mem {script : ScriptDescription} {step : RootStep}
    (member : step ∈ script.replayedSteps) : step.IsPlain := by
  rcases List.mem_append.mp member with isImport | isSection
  · obtain ⟨path, _, rfl⟩ := List.mem_map.mp isImport
    trivial
  · cases isSectionStep_of_mem isSection <;> trivial

theorem imported_replayedSteps (script : ScriptDescription) :
    script.replayedSteps.flatMap RootStep.imported = script.imports := by
  have noneInSections : script.sectionSteps.flatMap RootStep.imported = [] := by
    rw [List.flatMap_eq_nil_iff]
    intro step isSection
    cases isSectionStep_of_mem isSection <;> rfl
  rw [replayedSteps, List.flatMap_append, noneInSections, List.append_nil,
    List.flatMap_map]
  exact List.flatMap_singleton' script.imports

theorem written_replayedSteps (script : ScriptDescription) (handle : Handle) :
    script.replayedSteps.flatMap (RootStep.written handle) =
      script.sectionSteps.flatMap (RootStep.written handle) := by
  have noneForImports :
      (script.imports.map RootStep.addImport).flatMap (RootStep.written handle) = [] := by
    rw [List.flatMap_eq_nil_iff, List.forall_mem_map]
    intro path _
    rfl
  rw [replayedSteps, List.flatMap_append, noneForImports, List.nil_append]

/-- Exactly the keys of the declared values are declared. -/
theorem declared_replayedSteps (script : ScriptDescription) :
    script.replayedSteps.flatMap RootStep.declared = script.vals.keys := by
  have optional {α : Type} (part : Option α) {make : α → RootStep}
      (silent : ∀ value, (make value).declared = []) :
      (part.map make).toList.flatMap RootStep.declared = [] := by
    cases part <;> simp [silent]
  have listed {α : Type} (part : List α) {make : α → RootStep}
      (silent : ∀ value, (make value).declared = []) :
      (part.map make).flatMap RootStep.declared = [] := by
    simp [List.flatMap_map, silent]
  have unlessEmpty (absent : Bool) {step : RootStep} (silent : step.declared = []) :
      (if absent then [] else [step]).flatMap RootStep.declared = [] := by
    cases absent <;> simp [silent]
  have declarations : (script.vals.entries.map declarationStep).flatMap
      RootStep.declared = script.vals.keys := by
    rw [List.flatMap_map, OrderedMap.keys, List.map_eq_flatMap]
    rfl
  simp only [replayedSteps, sectionSteps, publishingSteps, List.flatMap_append]
  rw [listed _ fun _ => rfl, optional _ fun _ => rfl, unlessEmpty _ rfl,
    optional _ fun _ => rfl, optional _ fun _ => rfl, declarations, listed _ fun _ => rfl,
    unlessEmpty _ rfl, optional _ fun _ => rfl, optional _ fun _ => rfl]
  simp

/-- The statements of the sections, once the values can be written. -/
def statements (script : ScriptDescription) : List Node :=
  script.sectionSteps.flatMap (RootStep.written .publishing)

/-- The script that a description becomes. -/
def node (script : ScriptDescription) : Node :=
  .ofStatements (ImportSet.insertAll [] script.imports) script.statements

theorem tree_eq {script : ScriptDescription} (distinct : script.vals.keys.Nodup)
    (target : Language) :
    script.tree (Catalogue.gradleWorkshop target) = onceWritten script.values script.node := by
  -- The scope of a new draft is empty and the keys of the map are distinct, so nothing is
  -- declared twice and the replay does not fail.
  have ready := Catalogue.ready_newDraft target
  obtain ⟨succeeds, statements, readyAfter⟩ := RootStep.runAll_of_plain true ready
    (fun _ member => isPlain_of_mem member)
    (by rwa [declared_replayedSteps, List.nil_append])
  have built : ((Catalogue.gradleWorkshop target).build true script.replayedSteps).2.result =
      .ok script.node := by
    have imports := Environment.imports_of_own readyAfter.imports
    rw [imported_replayedSteps] at imports
    rw [written_replayedSteps] at statements
    simp only [DraftRun.result, Workshop.build, succeeds]
    rw [Draft.script, imports, statements]
    rfl
  rw [tree, steps_eq]
  unfold onceWritten
  cases script.values.findSome? refusal? with
  | some failure => rfl
  | none => exact built

section

variable {target : Language} {base : Generator}

open Generator

theorem canRender_publication (described : PublicationDescription) :
    (gradle target base).CanRender described.publication.node := by
  apply Publication.canRender_node
  intro part isPart
  simp only [PublicationDescription.publication, List.mem_append, Option.mem_toList,
    Option.map_eq_some_iff] at isPart
  rcases isPart with ((⟨name, _, rfl⟩ | ⟨value, _, rfl⟩) | ⟨value, _, rfl⟩) |
    ⟨value, _, rfl⟩
  · exact PublicationPart.canRender_component name
  · exact canRender_assign _ (canRender_literal _)
  · exact canRender_assign _ (canRender_literal _)
  · exact canRender_assign _ (canRender_literal _)

theorem canRender_publishing (described : PublishingDescription) :
    (gradle target base).CanRender (PublishingPart.block described.parts) := by
  apply canRender_named
  rw [List.forall_mem_map]
  intro part isPart
  simp only [PublishingDescription.parts, List.mem_append, List.mem_ite_nil_left,
    List.mem_singleton] at isPart
  rcases isPart with ⟨_, rfl⟩ | ⟨_, rfl⟩
  · exact Repository.canRender_block _
  · apply canRender_named
    rw [List.forall_mem_map, List.forall_mem_map]
    intro publication _
    exact canRender_publication publication

theorem canRender_signing (described : SigningDescription) (handle : Handle) :
    (gradle target base).CanRender (SigningPart.block handle described.writtenParts) := by
  apply canRender_named
  rw [List.forall_mem_map]
  intro part isPart
  simp only [SigningDescription.writtenParts, List.mem_cons, List.mem_ite_nil_right,
    List.not_mem_nil, or_false] at isPart
  rcases isPart with rfl | ⟨_, rfl⟩
  · exact SigningPart.canRender_keys described.key.canRender_node
      described.password.canRender_node
  · exact SigningPart.canRender_publications handle

/-- Every Gradle generator has rules for all that sections are made of. -/
theorem IsSectionStep.canRender_written {step : RootStep} (isSection : IsSectionStep step) :
    ∀ node ∈ step.written .publishing, (gradle target base).CanRender node := by
  intro node isWritten
  cases isSection with
  | comment text =>
      rw [List.mem_singleton.mp isWritten]
      exact canRender_comment _ text
  | plugins specs =>
      rw [List.mem_singleton.mp isWritten]
      exact PluginSpec.canRender_block specs
  | group value =>
      rw [List.mem_singleton.mp isWritten]
      exact canRender_assign _ (canRender_literal _)
  | version value =>
      rw [List.mem_singleton.mp isWritten]
      exact canRender_assign _ (canRender_literal _)
  | declaration entry =>
      rw [List.mem_singleton.mp isWritten]
      exact canRender_declaration _ _ _ entry.2.canRender_node
  | assignment entry =>
      rw [List.mem_singleton.mp isWritten]
      exact canRender_assign _ entry.2.canRender_node
  | repositories listed =>
      rw [List.mem_singleton.mp isWritten]
      exact Repository.canRender_block listed
  | publishing described =>
      rw [List.mem_singleton.mp isWritten]
      exact canRender_publishing described
  | signing described =>
      rw [List.mem_singleton.mp isWritten]
      exact canRender_signing described _

end

end ScriptDescription

end BuildScribe
