import BuildScribe.Proofs.Building.Imports
import BuildScribe.Proofs.Description.Outcome
import BuildScribe.Proofs.Rendering.Formatting

/-!
# Independent sections

The text of a description is a header and then the texts of its sections, each of which
is rendered as a description of its own. Nothing passes from one section into another;
the header depends on which imports there are, and on whether there is any section.
-/

namespace BuildScribe

theorem linesText_flatMap {α : Type} (options : LayoutOptions) (items : List α)
    (lines : α → List Line) :
    linesText options (items.flatMap lines) =
      String.join (items.map fun item => linesText options (lines item)) := by
  induction items with
  | nil => rfl
  | cons item rest ih =>
      rw [List.flatMap_cons, linesText_append, ih, List.map_cons, String.join_cons]

theorem mapM_eq_ok {ε α β : Type} {check : α → Except ε β} {result : α → β}
    {items : List α} (succeed : ∀ item ∈ items, check item = .ok (result item)) :
    items.mapM check = .ok (items.map result) := by
  induction items with
  | nil => rfl
  | cons item rest ih =>
      rw [List.forall_mem_cons] at succeed
      rw [List.mapM_cons, succeed.1, ih succeed.2]
      rfl

namespace ScriptDescription

open DescribedValue

/-- The sections of a description in the order of the script, each as a description that
holds nothing else. Every declared value and every property is a section. -/
def sections (script : ScriptDescription) : List ScriptDescription :=
  (script.comment.map fun text => { comment := some text }).toList ++
    (if script.plugins.isEmpty then [] else [{ plugins := script.plugins }]) ++
    (script.group.map fun value => { group := some value }).toList ++
    (script.version.map fun value => { version := some value }).toList ++
    script.vals.entries.map (fun entry => { vals := ⟨[entry]⟩ }) ++
    script.properties.entries.map (fun entry => { properties := ⟨[entry]⟩ }) ++
    (if script.repositories.isEmpty then []
      else [{ repositories := script.repositories }]) ++
    (script.publishing.map fun described => { publishing := some described }).toList ++
    (script.signing.map fun described => { signing := some described }).toList

/-- What makes a section a part of a description that can be rendered on its own. -/
structure IsSectionOf (script part : ScriptDescription) : Prop where
  noImports : part.imports = []
  distinct : part.vals.keys.Nodup
  values : ∀ value ∈ part.values, value ∈ script.values
  something : part.statements ≠ []

theorem sectionSteps_plugins {plugins : List PluginDescription}
    (some : plugins.isEmpty = false) :
    sectionSteps { plugins := plugins } = [.plugins (plugins.map (·.spec))] := by
  simp [sectionSteps, publishingSteps, some, OrderedMap.empty]

theorem sectionSteps_repositories {repositories : List Repository}
    (some : repositories.isEmpty = false) :
    sectionSteps { repositories := repositories } = [.repositories repositories] := by
  simp [sectionSteps, publishingSteps, some, OrderedMap.empty]

/-- Every section contributes its own step, in order. -/
theorem sectionSteps_eq_flatMap_sections (script : ScriptDescription) :
    script.sectionSteps = script.sections.flatMap sectionSteps := by
  -- A section comes from an optional part, from every entry of a list, or from a list as
  -- a whole unless it is empty.
  have optional {α : Type} (content : Option α) {step : α → RootStep}
      {part : α → ScriptDescription}
      (own : ∀ value, (part value).sectionSteps = [step value]) :
      (content.map part).toList.flatMap sectionSteps = (content.map step).toList := by
    cases content <;> simp [own]
  have listed {α : Type} (content : List α) {step : α → RootStep}
      {part : α → ScriptDescription}
      (own : ∀ value, (part value).sectionSteps = [step value]) :
      (content.map part).flatMap sectionSteps = content.map step := by
    simp [List.flatMap_map, own, ← List.map_eq_flatMap]
  have unlessEmpty {absent : Bool} {part : ScriptDescription} {step : RootStep}
      (own : absent = false → part.sectionSteps = [step]) :
      (if absent then [] else [part]).flatMap sectionSteps =
        if absent then [] else [step] := by
    cases absent with
    | true => rfl
    | false => simp [own]
  simp only [sections, List.flatMap_append]
  rw [optional script.comment fun _ => rfl, unlessEmpty sectionSteps_plugins,
    optional script.group fun _ => rfl, optional script.version fun _ => rfl,
    listed script.vals.entries fun _ => rfl, listed script.properties.entries fun _ => rfl,
    unlessEmpty sectionSteps_repositories, optional script.publishing fun _ => rfl,
    optional script.signing fun _ => rfl]
  simp only [sectionSteps, publishingSteps, List.append_assoc]

theorem statements_eq_flatMap_sections (script : ScriptDescription) :
    script.statements = script.sections.flatMap statements := by
  rw [statements, sectionSteps_eq_flatMap_sections, List.flatMap_assoc]
  rfl

/-- A section is a description without imports, whose values are among those of the
whole. -/
theorem isSectionOf_of_mem {script part : ScriptDescription}
    (member : part ∈ script.sections) : script.IsSectionOf part := by
  have valueless {value : DescribedValue} (none : value ∈ []) : value ∈ script.values :=
    (List.not_mem_nil none).elim
  simp only [sections, List.mem_append, Option.mem_toList, Option.map_eq_some_iff,
    List.mem_map, List.mem_ite_nil_left, List.mem_singleton,
    Bool.not_eq_true] at member
  rcases member with (((((((⟨text, _, rfl⟩ | ⟨somePlugin, rfl⟩) | ⟨value, _, rfl⟩) |
    ⟨value, _, rfl⟩) | ⟨entry, isVal, rfl⟩) | ⟨entry, isProperty, rfl⟩) |
    ⟨someRepository, rfl⟩) | ⟨described, _, rfl⟩) | ⟨described, isSigning, rfl⟩
  · exact ⟨rfl, List.nodup_nil, fun _ => valueless, List.cons_ne_nil _ _⟩
  · refine ⟨rfl, List.nodup_nil, fun _ => valueless, ?_⟩
    rw [statements, sectionSteps_plugins somePlugin]
    exact List.cons_ne_nil _ _
  · exact ⟨rfl, List.nodup_nil, fun _ => valueless, List.cons_ne_nil _ _⟩
  · exact ⟨rfl, List.nodup_nil, fun _ => valueless, List.cons_ne_nil _ _⟩
  · refine ⟨rfl, by simp [OrderedMap.keys], ?_, List.cons_ne_nil _ _⟩
    intro value isValue
    rw [List.mem_singleton.mp isValue]
    exact List.mem_append_left _ (List.mem_append_left _ (List.mem_map_of_mem isVal))
  · refine ⟨rfl, List.nodup_nil, ?_, List.cons_ne_nil _ _⟩
    intro value isValue
    rw [List.mem_singleton.mp isValue]
    exact List.mem_append_left _ (List.mem_append_right _ (List.mem_map_of_mem isProperty))
  · refine ⟨rfl, List.nodup_nil, fun _ => valueless, ?_⟩
    rw [statements, sectionSteps_repositories someRepository]
    exact List.cons_ne_nil _ _
  · exact ⟨rfl, List.nodup_nil, fun _ => valueless, List.cons_ne_nil _ _⟩
  · refine ⟨rfl, List.nodup_nil, ?_, List.cons_ne_nil _ _⟩
    intro value isValue
    apply List.mem_append_right
    rw [isSigning]
    exact isValue

/-- The import lines of a text, and the blank line behind them if anything follows. -/
def headerText (options : LayoutOptions) (paths : List String) (script : ScriptDescription) :
    String :=
  String.join (paths.map fun path => "import " ++ path ++ options.lineEnding) ++
    if paths.isEmpty || script.sections.isEmpty then "" else options.lineEnding

/-- The text of the statements of a description. -/
def bodyText (target : Language) (options : LayoutOptions) (script : ScriptDescription) :
    String :=
  linesText options
    (script.statements.flatMap ((Generator.standard target).layout options.comments))

theorem statements_isEmpty (script : ScriptDescription) :
    script.statements.isEmpty = script.sections.isEmpty := by
  rw [statements_eq_flatMap_sections]
  cases known : script.sections with
  | nil => rfl
  | cons part rest =>
      have isSection : part ∈ script.sections := by
        rw [known]
        exact List.mem_cons_self
      simpa using fun none => ((isSectionOf_of_mem isSection).something none).elim

theorem linesText_layout_node (script : ScriptDescription) (target : Language)
    (options : LayoutOptions) :
    linesText options ((Generator.standard target).layout options.comments script.node) =
      headerText options (ImportSet.insertAll [] script.imports) script ++
        script.bodyText target options := by
  rw [node, Node.ofStatements, Generator.standard,
    Generator.layout_script canRender_of_mem_statements]
  have importLine (path : String) :
      Line.text options ⟨0, "import " ++ path⟩ =
        "import " ++ path ++ options.lineEnding := by
    simp [Line.text, Line.shown, Buffer.indentChars]
  have imports (paths : List String) :
      linesText options (paths.map fun path => ⟨0, "import " ++ path⟩) =
        String.join (paths.map fun path => "import " ++ path ++ options.lineEnding) := by
    simp [linesText, importLine, Function.comp_def]
  have gap (absent : Bool) :
      linesText options (if absent then [] else [⟨0, ""⟩]) =
        if absent then "" else options.lineEnding := by
    cases absent <;> simp [linesText_singleton, Line.shown]
  rw [linesText_append, linesText_append, statements_isEmpty, imports, gap]
  rfl

theorem bodyText_eq_join (script : ScriptDescription) (target : Language)
    (options : LayoutOptions) :
    script.bodyText target options =
      String.join (script.sections.map (bodyText target options)) := by
  rw [bodyText, statements_eq_flatMap_sections, List.flatMap_assoc, linesText_flatMap]
  rfl

theorem render_of_writable {script : ScriptDescription}
    (distinct : script.vals.keys.Nodup)
    (writable : ∀ value ∈ script.values, value.isWritable = true) {language : String}
    {target : Language} (recognized : foldedName language = target.name)
    (options : LayoutOptions) :
    script.render .standard language options =
      .ok (headerText options (ImportSet.insertAll [] script.imports) script ++
        script.bodyText target options) := by
  rw [render_of_recognized distinct recognized, onceWritten_of_writable writable,
    linesText_layout_node]

/-- A section has its own text, without a header. -/
theorem IsSectionOf.render_eq {script part : ScriptDescription}
    (isSection : script.IsSectionOf part)
    (writable : ∀ value ∈ script.values, value.isWritable = true) {language : String}
    {target : Language} (recognized : foldedName language = target.name)
    (options : LayoutOptions) :
    part.render .standard language options = .ok (part.bodyText target options) := by
  have ownWritable : ∀ value ∈ part.values, value.isWritable = true :=
    fun value isValue => writable value (isSection.values value isValue)
  rw [render_of_writable isSection.distinct ownWritable recognized, isSection.noImports]
  simp [headerText, ImportSet.insertAll]

/-- A description whose values can all be written has a text in every recognized
language: the header, and then the texts of its sections in order. The header has one
line for every distinct import, in ascending order, and a blank line where a section
follows an import. So the order and the repetitions of the imports make no
difference. The values are read as a map, so their names are distinct. -/
theorem render_sections {script : ScriptDescription} (distinct : script.vals.keys.Nodup)
    (writable : ∀ value ∈ script.values, value.isWritable = true) {language : String}
    {target : Language} (recognized : foldedName language = target.name)
    (options : LayoutOptions) :
    ∃ paths texts,
      paths.Pairwise (· < ·) ∧ (∀ path, path ∈ paths ↔ path ∈ script.imports) ∧
      script.sections.mapM (fun part => part.render .standard language options) =
        .ok texts ∧
      script.render .standard language options =
        .ok (headerText options paths script ++ String.join texts) ∧
      ∀ imports : List String, (∀ path, path ∈ imports ↔ path ∈ script.imports) →
        render { script with imports := imports } .standard language options =
          script.render .standard language options := by
  have parts : ∀ part ∈ script.sections,
      part.render .standard language options = .ok (part.bodyText target options) :=
    fun part isPart => (isSectionOf_of_mem isPart).render_eq writable recognized options
  have ascending (paths : List String) :
      (ImportSet.insertAll [] paths).Pairwise (· < ·) :=
    ImportSet.ascending_insertAll List.Pairwise.nil paths
  have members (paths : List String) (path : String) :
      path ∈ ImportSet.insertAll [] paths ↔ path ∈ paths := by
    simp [ImportSet.mem_insertAll]
  have whole := render_of_writable distinct writable recognized options
  refine ⟨ImportSet.insertAll [] script.imports,
    script.sections.map (bodyText target options), ascending _, members _, ?_, ?_, ?_⟩
  · exact mapM_eq_ok parts
  · rw [whole, bodyText_eq_join]
  · intro imports same
    -- The imports enter the text only as a set.
    have sameSet : ImportSet.insertAll [] imports =
        ImportSet.insertAll [] script.imports := by
      apply ImportSet.eq_of_ascending (ascending _) (ascending _)
      intro path
      rw [members, members, same]
    have changed :
        render { script with imports := imports } .standard language options =
          .ok (headerText options (ImportSet.insertAll [] imports) script ++
            script.bodyText target options) :=
      @render_of_writable { script with imports := imports } distinct writable language
        target recognized options
    rw [changed, whole, sameSet]

/-- Repeated imports, a comment and two values in a spelling of its own of the
language. -/
theorem sections_of_two_values :
    ["a", "b"].Nodup ∧
      ∃ paths texts,
        paths.Pairwise (· < ·) ∧ (∀ path, path ∈ paths ↔ path ∈ ["x.B", "x.A", "x.B"]) ∧
        (sections
            { imports := ["x.B", "x.A", "x.B"]
              comment := some "c"
              vals := ⟨[("a", .reference "p"), ("b", .literal (.string "q"))]⟩ }).mapM
          (fun part => part.render .standard " Kotlin" {}) = .ok texts ∧
        render
            { imports := ["x.B", "x.A", "x.B"]
              comment := some "c"
              vals := ⟨[("a", .reference "p"), ("b", .literal (.string "q"))]⟩ }
            .standard " Kotlin" {} =
          .ok (headerText {} paths
            { imports := ["x.B", "x.A", "x.B"]
              comment := some "c"
              vals := ⟨[("a", .reference "p"), ("b", .literal (.string "q"))]⟩ } ++
            String.join texts) := by
  have distinct : ["a", "b"].Nodup := by decide
  obtain ⟨paths, texts, ascending, members, parts, whole, _⟩ :=
    @render_sections
      { imports := ["x.B", "x.A", "x.B"]
        comment := some "c"
        vals := ⟨[("a", .reference "p"), ("b", .literal (.string "q"))]⟩ }
      distinct (by decide) " Kotlin" .kotlin (by decide) {}
  exact ⟨distinct, paths, texts, ascending, members, parts, whole⟩

example :
    render
        { imports := ["x.B", "x.A", "x.B"]
          comment := some "c"
          vals := ⟨[("a", .reference "p"), ("b", .literal (.string "q"))]⟩ }
        .standard " Kotlin" {} =
      .ok "import x.A\nimport x.B\n\n// c\nval a = p\nval b = \"q\"\n" := by
  rfl

end ScriptDescription

end BuildScribe
