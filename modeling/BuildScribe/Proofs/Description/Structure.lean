import BuildScribe.Proofs.Description.Outline

/-!
# Descriptions of the same structure

Two descriptions of the same structure differ in their strings only. Their scripts have the
same lines, apart from the lines that begin at a line feed in a string that is written as it
is.
-/

namespace BuildScribe

namespace DescribedValue

inductive Kind where
  | reference
  | string
  | number
  | boolean
  | null
  | list
  | object
deriving DecidableEq

def kind : DescribedValue → Kind
  | reference _ => .reference
  | literal (.string _) => .string
  | literal (.number _) => .number
  | literal (.bool _) => .boolean
  | literal .null => .null
  | literal (.array _) => .list
  | literal (.object _) => .object

def Kind.isWritable : Kind → Bool
  | list | object => false
  | _ => true

theorem isWritable_eq (value : DescribedValue) :
    value.isWritable = value.kind.isWritable := by
  cases value with
  | reference path => rfl
  | literal json => cases json <;> rfl

end DescribedValue

/-- What is outlined by forms has the same outline where the forms are the same. -/
theorem flatMap_eq_of_form {α β γ : Type} {outlineOf : α → List γ} (form : α → β)
    (ofForm : β → List γ) (byForm : ∀ item, outlineOf item = ofForm (form item))
    {first second : List α} (same : first.map form = second.map form) :
    first.flatMap outlineOf = second.flatMap outlineOf := by
  have formed (items : List α) :
      items.flatMap outlineOf = (items.map form).flatMap ofForm := by
    rw [List.flatMap_map, funext byForm]
  rw [formed, formed, same]

theorem isEmpty_eq_of_form {α β : Type} {form : α → β} {first second : List α}
    (same : first.map form = second.map form) : first.isEmpty = second.isEmpty := by
  rw [← @List.isEmpty_map _ _ first form, same, List.isEmpty_map]

/-- The plugin without its strings. -/
def PluginDescription.form : PluginDescription → PluginDescription
  | core _ => .core ""
  | external _ version apply => .external "" (version.map fun _ => "") apply

/-- The repository without its address. -/
def Repository.form : Repository → Repository
  | maven _ => .maven ""
  | repository => repository

/-- The publication without its strings. -/
def PublicationDescription.form (described : PublicationDescription) :
    PublicationDescription :=
  { name := ""
    typeName := ""
    component := described.component.map fun _ => ""
    groupId := described.groupId.map fun _ => ""
    artifactId := described.artifactId.map fun _ => ""
    version := described.version.map fun _ => "" }

/-- The section without its strings. -/
def PublishingDescription.form (described : PublishingDescription) : PublishingDescription :=
  { repositories := described.repositories.map (·.form)
    publications := described.publications.map (·.form) }

/-- The kinds of the key and of the password, and whether publications are signed. -/
def SigningDescription.form (described : SigningDescription) :
    DescribedValue.Kind × DescribedValue.Kind × Bool :=
  (described.key.kind, described.password.kind, described.signPublications)

theorem Repository.outline_form (target : Language) (repository : Repository) :
    repository.form.outline target = repository.outline target := by
  cases repository <;> rfl

theorem PublicationDescription.outline_form (described : PublicationDescription) :
    described.form.outline = described.outline := by
  obtain ⟨name, typeName, component, groupId, artifactId, version⟩ := described
  cases component <;> cases groupId <;> cases artifactId <;> cases version <;> rfl

theorem PublishingDescription.outline_form (target : Language)
    (described : PublishingDescription) :
    described.form.outline target = described.outline target := by
  simp only [outline, form, List.isEmpty_map, List.flatMap_map, Repository.outline_form,
    PublicationDescription.outline_form]

namespace ScriptDescription

open DescribedValue

/-- The descriptions differ in their strings only: the same optional parts are there, the
lists are equally long, with the same variants and kinds of values, and the comments have
equally many lines. The imports are counted without repetitions. -/
structure SameStructure (first second : ScriptDescription) : Prop where
  imports : (ImportSet.insertAll [] first.imports).length =
    (ImportSet.insertAll [] second.imports).length
  comment : first.comment.map (fun text => (textLines text).length) =
    second.comment.map fun text => (textLines text).length
  plugins : first.plugins.map (·.form) = second.plugins.map (·.form)
  group : first.group.isSome = second.group.isSome
  version : first.version.isSome = second.version.isSome
  vals : first.vals.values.map (·.kind) = second.vals.values.map (·.kind)
  properties : first.properties.values.map (·.kind) = second.properties.values.map (·.kind)
  repositories : first.repositories.map (·.form) = second.repositories.map (·.form)
  publishing : first.publishing.map (·.form) = second.publishing.map (·.form)
  signing : first.signing.map (·.form) = second.signing.map (·.form)

namespace SameStructure

variable {first second : ScriptDescription}

theorem outline_eq (same : first.SameStructure second) (target : Language)
    (comments : Bool) : first.outline target comments = second.outline target comments := by
  have comment : first.comment.toList.flatMap
        (fun text => if comments then (textLines text).map fun _ => .inked else []) =
      second.comment.toList.flatMap fun text =>
        if comments then (textLines text).map fun _ => LineOutline.inked else [] := by
    apply flatMap_eq_of_form (fun text => (textLines text).length)
      fun count => if comments then List.replicate count LineOutline.inked else []
    · exact fun text => by rw [List.map_const']
    · rw [← Option.toList_map, ← Option.toList_map, same.comment]
  have optional {former latter : Option String} (alike : former.isSome = latter.isSome) :
      former.toList.flatMap (fun _ => [LineOutline.inked]) =
        latter.toList.flatMap fun _ => [.inked] := by
    cases former <;> cases latter <;> first | rfl | cases alike
  have listed {former latter : OrderedMap String DescribedValue}
      (alike : former.values.map (·.kind) = latter.values.map (·.kind)) :
      former.entries.flatMap (fun _ => [LineOutline.inked]) =
        latter.entries.flatMap fun _ => [.inked] := by
    apply flatMap_eq_of_form (fun entry => entry.2.kind) fun _ => [.inked]
    · exact fun _ => rfl
    · rw [OrderedMap.values, OrderedMap.values, List.map_map, List.map_map] at alike
      exact alike
  have plugins : first.plugins.flatMap (fun _ => [LineOutline.inked]) =
      second.plugins.flatMap fun _ => [.inked] :=
    flatMap_eq_of_form PluginDescription.form (fun _ => [LineOutline.inked])
      (fun _ => rfl) same.plugins
  have repositories : first.repositories.flatMap (Repository.outline target) =
      second.repositories.flatMap (Repository.outline target) :=
    flatMap_eq_of_form (·.form) (Repository.outline target)
      (fun repository => (repository.outline_form target).symm) same.repositories
  have publishing : first.publishing.toList.flatMap (PublishingDescription.outline target) =
      second.publishing.toList.flatMap (PublishingDescription.outline target) := by
    apply flatMap_eq_of_form (·.form) (PublishingDescription.outline target)
    · exact fun described => (described.outline_form target).symm
    · rw [← Option.toList_map, ← Option.toList_map, same.publishing]
  have signing : first.signing.toList.flatMap SigningDescription.outline =
      second.signing.toList.flatMap SigningDescription.outline := by
    apply flatMap_eq_of_form (·.form)
      fun form => LineOutline.block (.inked :: if form.2.2 then [.inked] else [])
    · exact fun _ => rfl
    · rw [← Option.toList_map, ← Option.toList_map, same.signing]
  rw [outline, outline, comment, isEmpty_eq_of_form same.plugins, plugins,
    optional same.group, optional same.version, listed same.vals, listed same.properties,
    isEmpty_eq_of_form same.repositories, repositories, publishing, signing]

theorem sections_isEmpty (same : first.SameStructure second) :
    first.sections.isEmpty = second.sections.isEmpty := by
  have spelled (script : ScriptDescription) : script.sections.isEmpty =
      (script.comment.isNone && script.plugins.isEmpty && script.group.isNone &&
        script.version.isNone && script.vals.values.isEmpty &&
        script.properties.values.isEmpty && script.repositories.isEmpty &&
        script.publishing.isNone && script.signing.isNone) := by
    rw [Bool.eq_iff_iff]
    simp [sections, OrderedMap.values, and_assoc]
  have optional {α β : Type} {form : α → β} {former latter : Option α}
      (alike : former.map form = latter.map form) : former.isNone = latter.isNone := by
    rw [← @Option.isNone_map _ _ form former, alike, Option.isNone_map]
  have named {former latter : Option String} (alike : former.isSome = latter.isSome) :
      former.isNone = latter.isNone := by
    rw [← Option.not_isSome, alike, Option.not_isSome]
  rw [spelled, spelled, optional same.comment, isEmpty_eq_of_form same.plugins,
    named same.group, named same.version, isEmpty_eq_of_form same.vals,
    isEmpty_eq_of_form same.properties, isEmpty_eq_of_form same.repositories,
    optional same.publishing, optional same.signing]

theorem scriptOutline_eq (same : first.SameStructure second) (target : Language)
    (comments : Bool) :
    first.scriptOutline target comments = second.scriptOutline target comments := by
  have counted (paths : List String) : (paths.flatMap fun _ => [LineOutline.inked]) =
      List.replicate paths.length .inked := by
    rw [← List.map_eq_flatMap, List.map_const']
  have empty : (ImportSet.insertAll [] first.imports).isEmpty =
      (ImportSet.insertAll [] second.imports).isEmpty := by
    rw [Bool.eq_iff_iff, List.isEmpty_iff_length_eq_zero, same.imports,
      List.isEmpty_iff_length_eq_zero]
  rw [scriptOutline, scriptOutline, counted, counted, same.imports, empty,
    same.sections_isEmpty, same.outline_eq]

theorem kinds_eq (same : first.SameStructure second) :
    first.values.map (·.kind) = second.values.map (·.kind) := by
  have signing : (first.signing.toList.flatMap fun described =>
        [described.key.kind, described.password.kind]) =
      second.signing.toList.flatMap fun described =>
        [described.key.kind, described.password.kind] := by
    apply flatMap_eq_of_form (·.form) fun form => [form.1, form.2.1]
    · exact fun _ => rfl
    · rw [← Option.toList_map, ← Option.toList_map, same.signing]
  simp only [values, List.map_append, List.map_flatMap, List.map_cons, List.map_nil]
  rw [same.vals, same.properties, signing]

theorem writable_iff (same : first.SameStructure second) :
    (∀ value ∈ first.values, value.isWritable = true) ↔
      ∀ value ∈ second.values, value.isWritable = true := by
  have byKinds (script : ScriptDescription) :
      (∀ value ∈ script.values, value.isWritable = true) ↔
        ∀ kind ∈ script.values.map (·.kind), kind.isWritable = true := by
    simp only [List.forall_mem_map, DescribedValue.isWritable_eq]
  rw [byKinds, byKinds, same.kinds_eq]

end SameStructure

/-- In the text of a description there are the line feeds of its structure, and those of the
strings that are written as they are. -/
theorem render_eq_lineFeeds {script : ScriptDescription} (distinct : script.vals.keys.Nodup)
    {language : String} {target : Language} (recognized : foldedName language = target.name)
    (options : LayoutOptions) (writable : ∀ value ∈ script.values, value.isWritable = true) :
    ∃ text, script.render .standard language options = .ok text ∧
      lineFeeds text = outlineFeeds options (script.scriptOutline target options.comments) +
        lineFeeds (script.bareText target) := by
  have outlined := @outlined_node target options.comments script
  rw [render_of_recognized distinct recognized, onceWritten_of_writable writable]
  refine ⟨_, rfl, ?_⟩
  rw [lineFeeds_linesText, outlined.outline, outlined.feeds]

/-- Descriptions of the same structure are both refused, or their texts have the same lines,
apart from those that begin at line feeds in the strings that are written as they are. -/
theorem render_lineFeeds {first second : ScriptDescription}
    (firstDistinct : first.vals.keys.Nodup) (secondDistinct : second.vals.keys.Nodup)
    (same : first.SameStructure second) {language : String} {target : Language}
    (recognized : foldedName language = target.name) (options : LayoutOptions) :
    ((∃ failure, first.render .standard language options = .error failure) ∧
      ∃ failure, second.render .standard language options = .error failure) ∨
    ∃ lines firstText secondText,
      first.render .standard language options = .ok firstText ∧
      second.render .standard language options = .ok secondText ∧
      lineFeeds firstText = lines + lineFeeds (first.bareText target) ∧
      lineFeeds secondText = lines + lineFeeds (second.bareText target) := by
  by_cases writable : ∀ value ∈ first.values, value.isWritable = true
  · obtain ⟨firstText, firstSucceeds, firstFeeds⟩ :=
      render_eq_lineFeeds firstDistinct recognized options writable
    obtain ⟨secondText, secondSucceeds, secondFeeds⟩ :=
      render_eq_lineFeeds secondDistinct recognized options (same.writable_iff.mp writable)
    rw [← same.scriptOutline_eq] at secondFeeds
    exact .inr ⟨_, firstText, secondText, firstSucceeds, secondSucceeds, firstFeeds,
      secondFeeds⟩
  · have refused {script : ScriptDescription} (distinct : script.vals.keys.Nodup)
        (unwritable : ¬∀ value ∈ script.values, value.isWritable = true) :
        ∃ failure, script.render .standard language options = .error failure := by
      rw [render_fails_iff distinct recognized]
      simpa using unwritable
    have alsoUnwritable := mt same.writable_iff.mpr writable
    exact .inl ⟨refused firstDistinct writable, refused secondDistinct alsoUnwritable⟩

/-- In Kotlin the line feed in what the declared value refers to opens one line more. -/
theorem render_lineFeeds_of_reference :
    SameStructure
        { group := some "g", vals := ⟨[("a", .reference "b.c")]⟩ }
        { group := some "\n", vals := ⟨[("a", .reference "b\n.d")]⟩ } ∧
      ∃ lines firstText secondText,
        render { group := some "g", vals := ⟨[("a", .reference "b.c")]⟩ } .standard
          "Kotlin" {} = .ok firstText ∧
        render { group := some "\n", vals := ⟨[("a", .reference "b\n.d")]⟩ } .standard
          "Kotlin" {} = .ok secondText ∧
        lineFeeds firstText = lines ∧ lineFeeds secondText = lines + 1 := by
  have same : SameStructure
      { group := some "g", vals := ⟨[("a", .reference "b.c")]⟩ }
      { group := some "\n", vals := ⟨[("a", .reference "b\n.d")]⟩ } :=
    ⟨rfl, rfl, rfl, rfl, rfl, rfl, rfl, rfl, rfl, rfl⟩
  have recognized : foldedName "Kotlin" = Language.kotlin.name := by decide
  refine ⟨same, ?_⟩
  rcases render_lineFeeds (by decide) (by decide) same recognized {} with
    ⟨⟨failure, fails⟩, _⟩ | texts
  · cases fails
  · exact texts

/-- A line feed in an import opens a line that no structure accounts for. -/
theorem import_opens_line :
    SameStructure { imports := ["a"] } { imports := ["a\nversion = 'evil'"] } ∧
      render { imports := ["a"] } .standard "groovy" {} = .ok "import a\n" ∧
      render { imports := ["a\nversion = 'evil'"] } .standard "groovy" {} =
        .ok "import a\nversion = 'evil'\n" ∧
      lineFeeds "import a\n" ≠ lineFeeds "import a\nversion = 'evil'\n" := by
  refine ⟨⟨rfl, rfl, rfl, rfl, rfl, rfl, rfl, rfl, rfl, rfl⟩, rfl, rfl, by decide⟩

end ScriptDescription

end BuildScribe
