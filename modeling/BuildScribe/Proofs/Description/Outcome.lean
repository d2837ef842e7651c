import BuildScribe.Proofs.Description.Replay

/-!
# Outcomes of descriptions

Whether an accepted description has a text is decided by its values. The map of its
declared values has distinct keys, the publishing section is always known, and all
nodes that it becomes have rules, so nothing but the language and the values can be
refused.
-/

namespace BuildScribe.ScriptDescription

open DescribedValue

/-- What is read as a description declares every name once. -/
theorem codec_yields_distinct_keys :
    codec.Yields fun script => script.vals.keys.Nodup := by
  have other {α : Type} {form : Codec α} {get : ScriptDescription → α}
      {set : α → ScriptDescription → ScriptDescription} {name : String} {required : Bool}
      (sameVals : ∀ value script, (set value script).vals = script.vals) :
      (Field.of name required form get set).Keeps fun script => script.vals.keys.Nodup := by
    apply Field.Keeps.other
    intro value script distinct
    rwa [sameVals]
  -- Only the dictionary of declared values can repeat a name, and it is read as a map.
  have vals := Codec.dictionary_yields_distinct_keys DescribedValue.codec
  apply Record.codec_yields
  · exact List.nodup_nil
  · simp only [record, List.forall_mem_cons]
    refine ⟨other fun _ _ => rfl, other fun _ _ => rfl, other fun _ _ => rfl,
      other fun _ _ => rfl, other fun _ _ => rfl, .of vals ?_ _ _,
      other fun _ _ => rfl, other fun _ _ => rfl, other fun _ _ => rfl,
      other fun _ _ => rfl, by simp⟩
    intro map distinct script _
    exact distinct

/-- A description that a document may hold, as a text or as a value. -/
def IsAccepted (script : ScriptDescription) : Prop :=
  (∃ text, ofText text = .ok script) ∨ ∃ json, ofJson json = .ok script

theorem IsAccepted.distinct {script : ScriptDescription} (accepted : script.IsAccepted) :
    script.vals.keys.Nodup := by
  rcases accepted with ⟨text, reads⟩ | ⟨json, reads⟩
  · unfold ofText Codec.readText Reading.run at reads
    cases outcome : codec.fromText nestingLimit (.start text.toList) with
    | ok read rest =>
        rw [outcome] at reads
        cases reads
        exact codec_yields_distinct_keys.text _ _ _ _ outcome
    | error fault rest =>
        rw [outcome] at reads
        cases reads
  · unfold ofJson at reads
    cases outcome : codec.fromJson json with
    | ok read =>
        rw [outcome] at reads
        cases reads
        exact codec_yields_distinct_keys.json _ _ outcome
    | error fault =>
        rw [outcome] at reads
        cases reads

theorem render_of_unrecognized (script : ScriptDescription) {language : String}
    (unknown : ∀ target : Language, foldedName language ≠ target.name)
    (options : LayoutOptions) :
    script.render .standard language options = .error (.unsupportedLanguage language) := by
  rw [render, Catalogue.createGradle_of_unrecognized unknown]
  rfl

theorem canRender_of_mem_statements {script : ScriptDescription} {target : Language}
    {base : Generator} :
    ∀ statement ∈ script.statements, (Generator.gradle target base).CanRender statement := by
  intro statement isStatement
  obtain ⟨step, isStep, isWritten⟩ := List.mem_flatMap.mp isStatement
  exact (isSectionStep_of_mem isStep).canRender_written statement isWritten

/-- In a recognized language the text consists of the lines of the script, once the
values can be written. -/
theorem render_of_recognized {script : ScriptDescription}
    (distinct : script.vals.keys.Nodup) {language : String} {target : Language}
    (recognized : foldedName language = target.name) (options : LayoutOptions) :
    script.render .standard language options =
      onceWritten script.values
        (linesText options
          ((Generator.standard target).layout options.comments script.node)) := by
  have renderable : (Generator.standard target).CanRender script.node :=
    Generator.canRender_script _ canRender_of_mem_statements
  obtain ⟨rendering, succeeds, text⟩ := renderable.generate_eq options
  rw [render, Catalogue.createGradle_of_recognized recognized]
  change (script.tree (Catalogue.gradleWorkshop target) >>= fun node =>
    (Generator.standard target).generate node options >>= fun rendering =>
      pure rendering.text) = _
  rw [tree_eq distinct]
  unfold onceWritten
  cases script.values.findSome? refusal? with
  | some failure => rfl
  | none =>
      change ((Generator.standard target).generate script.node options >>=
        fun rendering => pure rendering.text) = _
      rw [succeeds, ← text]
      rfl

/-- In a recognized language the first value that no script can hold is refused. -/
theorem render_refuses_first {script : ScriptDescription}
    (distinct : script.vals.keys.Nodup) {language : String} {target : Language}
    (recognized : foldedName language = target.name) (options : LayoutOptions)
    {value : DescribedValue}
    (first : script.values.find? (fun value => !value.isWritable) = some value) :
    script.render .standard language options =
      .error (.input (.noScalar value.toJson.compact)) := by
  rw [render_of_recognized distinct recognized, onceWritten_of_first first]

/-- In a recognized language there is a text if a script can hold all values. -/
theorem render_succeeds {script : ScriptDescription}
    (distinct : script.vals.keys.Nodup) {language : String} {target : Language}
    (recognized : foldedName language = target.name) (options : LayoutOptions)
    (writable : ∀ value ∈ script.values, value.isWritable = true) :
    script.render .standard language options =
      .ok (linesText options
        ((Generator.standard target).layout options.comments script.node)) := by
  rw [render_of_recognized distinct recognized, onceWritten_of_writable writable]

theorem render_fails_iff {script : ScriptDescription}
    (distinct : script.vals.keys.Nodup) {language : String} {target : Language}
    (recognized : foldedName language = target.name) (options : LayoutOptions) :
    (∃ failure, script.render .standard language options = .error failure) ↔
      ∃ value ∈ script.values, value.isWritable = false := by
  rcases exists_first_or_writable script.values with ⟨value, first⟩ | writable
  · have unwritable := List.find?_some first
    constructor
    · intro _
      exact ⟨value, List.mem_of_find?_eq_some first, by simpa using unwritable⟩
    · intro _
      exact ⟨_, render_refuses_first distinct recognized options first⟩
  · have succeeds := render_succeeds distinct recognized options writable
    constructor
    · rintro ⟨failure, fails⟩
      rw [succeeds] at fails
      cases fails
    · rintro ⟨value, isValue, unwritable⟩
      rw [writable value isValue] at unwritable
      cases unwritable

/-- Only the language and the values are ever refused. -/
theorem failure_of_render {script : ScriptDescription}
    (distinct : script.vals.keys.Nodup) {language : String} {options : LayoutOptions}
    {failure : Failure}
    (fails : script.render .standard language options = .error failure) :
    failure = .unsupportedLanguage language ∨ ∃ fault, failure = .input fault := by
  by_cases known : ∃ target : Language, foldedName language = target.name
  · obtain ⟨target, recognized⟩ := known
    rcases exists_first_or_writable script.values with ⟨value, first⟩ | writable
    · rw [render_refuses_first distinct recognized options first] at fails
      cases fails
      exact .inr ⟨_, rfl⟩
    · have succeeds := render_succeeds distinct recognized options writable
      rw [succeeds] at fails
      cases fails
  · rw [not_exists] at known
    rw [script.render_of_unrecognized known] at fails
    cases fails
    exact .inl rfl

/-- The outcome depends on the language and on the values only. A language that is not
recognized is refused whatever the description holds. In any spelling of a recognized
one, the first value that is neither a scalar nor a reference is refused, and without
such a value the text consists of the lines of the script. Nothing else can go wrong. -/
theorem render_outcome {script : ScriptDescription} (accepted : script.IsAccepted)
    (language : String) (options : LayoutOptions) :
    ((∀ target : Language, foldedName language ≠ target.name) →
      script.render .standard language options =
        .error (.unsupportedLanguage language)) ∧
    (∀ target : Language, foldedName language = target.name →
      ((∃ failure, script.render .standard language options = .error failure) ↔
        ∃ value ∈ script.values, value.isWritable = false) ∧
      (∀ value, script.values.find? (fun value => !value.isWritable) = some value →
        script.render .standard language options =
          .error (.input (.noScalar value.toJson.compact))) ∧
      ((∀ value ∈ script.values, value.isWritable = true) →
        script.render .standard language options =
          .ok (linesText options
            ((Generator.standard target).layout options.comments script.node)))) ∧
    (∀ failure, script.render .standard language options = .error failure →
      failure = .unsupportedLanguage language ∨ ∃ fault, failure = .input fault) := by
  have distinct := accepted.distinct
  refine ⟨fun unknown => script.render_of_unrecognized unknown options, ?_, ?_⟩
  · intro target recognized
    refine ⟨render_fails_iff distinct recognized options, ?_, ?_⟩
    · intro value first
      exact render_refuses_first distinct recognized options first
    · intro writable
      exact render_succeeds distinct recognized options writable
  · intro failure fails
    exact failure_of_render distinct fails

/-- The list among the properties is refused before the object behind it and before the
key, in a spelling of its own of the language. -/
theorem render_fails_at_first_list :
    ofJson (.object [
        ("vals", .object [("a", .object [("ref", .string "b")])]),
        ("properties", .object [("c", .array [.null]), ("d", .object [])]),
        ("signing", .object [("key", .array []), ("password", .null)])]) =
      .ok
        { vals := ⟨[("a", .reference "b")]⟩
          properties := ⟨[("c", .literal (.array [.null])), ("d", .literal (.object []))]⟩
          signing := some ⟨.literal (.array []), .literal .null, true⟩ } ∧
      render
        { vals := ⟨[("a", .reference "b")]⟩
          properties := ⟨[("c", .literal (.array [.null])), ("d", .literal (.object []))]⟩
          signing := some ⟨.literal (.array []), .literal .null, true⟩ }
        .standard "\tGroovy" {} = .error (.input (.noScalar "[null]")) := by
  have reads : ofJson (.object [
        ("vals", .object [("a", .object [("ref", .string "b")])]),
        ("properties", .object [("c", .array [.null]), ("d", .object [])]),
        ("signing", .object [("key", .array []), ("password", .null)])]) =
      .ok
        { vals := ⟨[("a", .reference "b")]⟩
          properties := ⟨[("c", .literal (.array [.null])), ("d", .literal (.object []))]⟩
          signing := some ⟨.literal (.array []), .literal .null, true⟩ } := by
    rfl
  refine ⟨reads, ?_⟩
  exact ((render_outcome (.inr ⟨_, reads⟩) "\tGroovy" {}).2.1 .groovy (by decide)).2.1
    (.literal (.array [.null])) rfl

end BuildScribe.ScriptDescription
