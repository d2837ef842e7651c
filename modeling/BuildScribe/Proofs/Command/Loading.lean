import BuildScribe.Command.Documents
import BuildScribe.Proofs.Query.Documents

/-!
# What is loaded

The documents of a run are the selected values of all texts of all files, in order, and
there are none as soon as one input cannot be read: loading answers with documents or with
the fault of an unloadable input, never with both.
-/

namespace BuildScribe

@[simp] theorem Document.map_value_ofValues (origin : String) (values : List Json) :
    (ofValues origin values).map (·.value) = values := by
  unfold ofValues
  split
  · rw [List.map_map]
    exact List.map_id values
  · rw [List.map_map]
    exact List.zipIdx_map_fst 0 values

namespace InputSettings

/-- The value under the pointer, if it leads anywhere. -/
def pointed? (settings : InputSettings) (document : Json) : Option Json :=
  match settings.pointer with
  | none => some document
  | some pointer => document.pointed? pointer

/-- The filter, if there is one, makes these values of the value. -/
def Filters (settings : InputSettings) (engine : FilterEngine) (value : Json)
    (values : List Json) : Prop :=
  match settings.filter with
  | none => values = [value]
  | some source => engine.Yields source value values

/-- The text is a document, and these are the values that are selected from it. -/
def Selects (settings : InputSettings) (engine : FilterEngine) (text : String)
    (values : List Json) : Prop :=
  ∃ document, Json.parse text = .ok document ∧
    ∃ value, settings.pointed? document = some value ∧ settings.Filters engine value values

/-- These are the values of all the texts in order. -/
def SelectsAll (settings : InputSettings) (engine : FilterEngine) (texts : List String)
    (values : List Json) : Prop :=
  ∃ parts : List (String × List Json), parts.map (·.1) = texts ∧
    (∀ part ∈ parts, settings.Selects engine part.1 part.2) ∧ values = parts.flatMap (·.2)

/-- The file can be read, and these are the values of all its texts in order. -/
def Holds (settings : InputSettings) (engine : FilterEngine) (store : FileStore)
    (path : String) (values : List Json) : Prop :=
  ∃ text, store.read path = .ok text ∧
    settings.SelectsAll engine (settings.split text) values

/-- The paths of all files that the inputs stand for, in order. -/
def paths (settings : InputSettings) (store : FileStore) : Except RunFault (List String) :=
  List.flatten <$> settings.inputs.mapM (pathsOf store)

/-- The files of all inputs in order, each with the values that it holds. -/
structure Gathers (settings : InputSettings) (engine : FilterEngine) (store : FileStore)
    (files : List (String × List Json)) : Prop where
  paths : settings.paths store = .ok (files.map (·.1))
  holds : ∀ file ∈ files, settings.Holds engine store file.1 file.2

/-- The documents of files, in order. -/
def documentsOf (files : List (String × List Json)) : List Document :=
  files.flatMap fun file => Document.ofValues file.1 file.2

theorem map_value_documentsOf (files : List (String × List Json)) :
    (documentsOf files).map (·.value) = files.flatMap (·.2) := by
  simp [documentsOf, List.map_flatMap]

variable {settings : InputSettings} {engine : FilterEngine} {store : FileStore}
  {path : String} {count total : Nat}

theorem paths_eq_ok_iff {paths : List String} :
    settings.paths store = .ok paths ↔
      ∃ found : List (String × List String), found.map (·.1) = settings.inputs ∧
        (∀ input ∈ found, pathsOf store input.1 = .ok input.2) ∧
        paths = found.flatMap (·.2) := by
  have onInput (input : String) (found : List String) :
      pathsOf store input = .ok found ↔
        ∃ same, pathsOf store input = .ok same ∧ found = same := by
    simp
  have onInputs (groups : List (List String)) :
      settings.inputs.mapM (pathsOf store) = .ok groups ↔
        ∃ found : List (String × List String), found.map (·.1) = settings.inputs ∧
          (∀ input ∈ found, pathsOf store input.1 = .ok input.2) ∧
          groups = found.map fun input => input.2 :=
    mapM_eq_ok_iff onInput
  unfold InputSettings.paths
  rw [← bind_pure_comp, except_bind_eq_ok]
  constructor
  · rintro ⟨groups, resolved, flat⟩
    obtain ⟨found, named, resolves, rfl⟩ := (onInputs groups).mp resolved
    cases flat
    exact ⟨found, named, resolves, (List.flatMap_def ..).symm⟩
  · rintro ⟨found, named, resolves, rfl⟩
    refine ⟨_, (onInputs _).mpr ⟨found, named, resolves, rfl⟩, ?_⟩
    rw [List.flatMap_def]
    rfl

theorem select_eq_ok_iff {document : Json} {values : List Json} :
    settings.select engine path document = .ok values ↔
      ∃ value, settings.pointed? document = some value ∧
        settings.Filters engine value values := by
  have filters (value : Json) :
      (match settings.filter with
        | none => pure [value]
        | some source => (engine.documents source value).mapError (.filter path) :
          Except RunFault (List Json)) = .ok values ↔
        settings.Filters engine value values := by
    unfold Filters
    cases settings.filter with
    | none => exact ⟨by rintro ⟨⟩; rfl, by rintro ⟨⟩; rfl⟩
    | some source => exact except_mapError_eq_ok.trans FilterEngine.documents_eq_ok_iff
  unfold select pointed?
  cases settings.pointer with
  | none => exact (filters document).trans (by simp)
  | some pointer =>
      dsimp only
      cases document.pointed? pointer with
      | none => exact ⟨by rintro ⟨⟩, by simp⟩
      | some value => exact (filters value).trans (by simp)

theorem not_filters_of_refuses {source : String} {value : Json} {values : List Json}
    {fault : FilterFault} (hasFilter : settings.filter = some source)
    (refuses : engine.Refuses source value fault) : ¬settings.Filters engine value values := by
  unfold Filters
  rw [hasFilter]
  intro yields
  have failed := FilterEngine.documents_eq_error_iff.mpr refuses
  cases failed.symm.trans (FilterEngine.documents_eq_ok_iff.mpr yields)

theorem filters_or_refuses (settings : InputSettings) (engine : FilterEngine) (value : Json) :
    (∃ values, settings.Filters engine value values) ∨
      ∃ source fault, settings.filter = some source ∧ engine.Refuses source value fault := by
  unfold Filters
  cases settings.filter with
  | none => exact .inl ⟨_, rfl⟩
  | some source =>
      cases filtered : engine.documents source value with
      | ok values => exact .inl ⟨values, FilterEngine.documents_eq_ok_iff.mp filtered⟩
      | error fault =>
          exact .inr ⟨source, fault, rfl, FilterEngine.documents_eq_error_iff.mp filtered⟩

theorem readDocument_eq_ok_iff {text : String} {values : List Json} :
    settings.readDocument engine path text = .ok values ↔ settings.Selects engine text values := by
  unfold readDocument Selects
  simp only [except_bind_eq_ok, except_mapError_eq_ok, select_eq_ok_iff]

theorem loadFile_eq_ok_iff {documents : List Document} :
    settings.loadFile engine store path = .ok documents ↔
      ∃ values, settings.Holds engine store path values ∧
        documents = Document.ofValues path values := by
  have onText (text : String) (values : List Json) :
      settings.readDocument engine path text = .ok values ↔
        ∃ selected, settings.Selects engine text selected ∧ values = selected := by
    rw [readDocument_eq_ok_iff]
    simp
  have onTexts (texts : List String) (found : List (List Json)) :
      texts.mapM (settings.readDocument engine path) = .ok found ↔
        ∃ parts : List (String × List Json), parts.map (·.1) = texts ∧
          (∀ part ∈ parts, settings.Selects engine part.1 part.2) ∧
          found = parts.map fun part => part.2 :=
    mapM_eq_ok_iff onText
  unfold loadFile Holds
  simp only [except_bind_eq_ok, except_mapError_eq_ok, onTexts]
  constructor
  · rintro ⟨text, read, found, ⟨parts, split, selected, rfl⟩, made⟩
    cases made
    refine ⟨_, ⟨text, read, parts, split, selected, rfl⟩, ?_⟩
    rw [List.flatMap_def]
  · rintro ⟨values, ⟨text, read, parts, split, selected, rfl⟩, rfl⟩
    refine ⟨text, read, _, ⟨parts, split, selected, rfl⟩, ?_⟩
    rw [List.flatMap_def]
    rfl

/-- Loading succeeds with the documents of the gathered files, and only then. -/
theorem load_eq_ok_iff {documents : List Document} :
    settings.load engine store = .ok documents ↔
      ∃ files, settings.Gathers engine store files ∧ documents = documentsOf files := by
  have onFiles (paths : List String) (found : List (List Document)) :
      paths.mapM (settings.loadFile engine store) = .ok found ↔
        ∃ files : List (String × List Json), files.map (·.1) = paths ∧
          (∀ file ∈ files, settings.Holds engine store file.1 file.2) ∧
          found = files.map fun file => Document.ofValues file.1 file.2 :=
    mapM_eq_ok_iff fun _ _ => loadFile_eq_ok_iff
  unfold load
  simp only [except_bind_eq_ok, onFiles]
  constructor
  · rintro ⟨found, resolved, groups, ⟨files, named, holds, rfl⟩, made⟩
    cases made
    refine ⟨files, ⟨?_, holds⟩, (List.flatMap_def ..).symm⟩
    rw [paths, resolved, named]
    rfl
  · rintro ⟨files, ⟨resolved, holds⟩, rfl⟩
    unfold paths at resolved
    cases named : settings.inputs.mapM (pathsOf store) with
    | error fault =>
        rw [named] at resolved
        cases resolved
    | ok found =>
        rw [named] at resolved
        have flat : found.flatten = files.map (·.1) := Except.ok.inj resolved
        refine ⟨found, rfl, _, ⟨files, flat.symm, holds, rfl⟩, ?_⟩
        rw [documentsOf, List.flatMap_def]
        rfl

/-- An input stands for the file with the path. -/
def Names (settings : InputSettings) (store : FileStore) (path : String) : Prop :=
  ∃ input ∈ settings.inputs, ∃ found, pathsOf store input = .ok found ∧ path ∈ found

/-- The text of a document is in one of the files. -/
def HasText (settings : InputSettings) (store : FileStore) (text : String) : Prop :=
  ∃ path content, settings.Names store path ∧ store.read path = .ok content ∧
    text ∈ settings.split content

/-- Something stands in the way of loading: a pattern without meaning or matches, a file that
cannot be read, a text that is no document, or a document from which nothing can be selected
or whose filter fails. -/
inductive Unloadable (settings : InputSettings) (engine : FilterEngine)
    (store : FileStore) : Prop where
  | pattern {input : String} {fault : RunFault} :
      input ∈ settings.inputs → pathsOf store input = .error fault →
      Unloadable settings engine store
  | file {path : String} {fault : FileFault} :
      settings.Names store path → store.read path = .error fault →
      Unloadable settings engine store
  | document {text : String} {fault : ReadFault} :
      settings.HasText store text → Json.parse text = .error fault →
      Unloadable settings engine store
  | pointer {text : String} {document : Json} :
      settings.HasText store text → Json.parse text = .ok document →
      settings.pointed? document = none → Unloadable settings engine store
  | filter {text source : String} {document value : Json} {fault : FilterFault} :
      settings.HasText store text → Json.parse text = .ok document →
      settings.pointed? document = some value → settings.filter = some source →
      engine.Refuses source value fault → Unloadable settings engine store

theorem Gathers.exists_pathsOf {files : List (String × List Json)} {input : String}
    (gathers : settings.Gathers engine store files) (isInput : input ∈ settings.inputs) :
    ∃ found, pathsOf store input = .ok found ∧ ∀ path ∈ found, path ∈ files.map (·.1) := by
  obtain ⟨found, named, resolves, flat⟩ := paths_eq_ok_iff.mp gathers.paths
  rw [← named] at isInput
  obtain ⟨known, isKnown, rfl⟩ := List.mem_map.mp isInput
  refine ⟨known.2, resolves known isKnown, fun path isFound => ?_⟩
  rw [flat]
  exact List.mem_flatMap_of_mem isKnown isFound

theorem Gathers.holds_of_names {files : List (String × List Json)}
    (gathers : settings.Gathers engine store files) (names : settings.Names store path) :
    ∃ values, settings.Holds engine store path values := by
  obtain ⟨input, isInput, found, resolved, isFound⟩ := names
  obtain ⟨same, again, listed⟩ := gathers.exists_pathsOf isInput
  cases resolved.symm.trans again
  obtain ⟨file, isFile, rfl⟩ := List.mem_map.mp (listed path isFound)
  exact ⟨file.2, gathers.holds file isFile⟩

theorem Gathers.selects_of_hasText {files : List (String × List Json)} {text : String}
    (gathers : settings.Gathers engine store files) (hasText : settings.HasText store text) :
    ∃ values, settings.Selects engine text values := by
  obtain ⟨path, content, names, read, isText⟩ := hasText
  obtain ⟨values, known, again, parts, split, selects, rfl⟩ := gathers.holds_of_names names
  cases read.symm.trans again
  rw [← split] at isText
  obtain ⟨part, isPart, rfl⟩ := List.mem_map.mp isText
  exact ⟨part.2, selects part isPart⟩

theorem Gathers.not_unloadable {files : List (String × List Json)}
    (gathers : settings.Gathers engine store files) : ¬settings.Unloadable engine store := by
  intro unloadable
  cases unloadable with
  | pattern isInput refused =>
      obtain ⟨found, resolved, _⟩ := gathers.exists_pathsOf isInput
      cases refused.symm.trans resolved
  | file names refused =>
      obtain ⟨values, content, read, _⟩ := gathers.holds_of_names names
      cases refused.symm.trans read
  | document hasText refused =>
      obtain ⟨values, document, parsed, _⟩ := gathers.selects_of_hasText hasText
      cases refused.symm.trans parsed
  | pointer hasText parsed nothing =>
      obtain ⟨values, document, again, value, pointed, _⟩ := gathers.selects_of_hasText hasText
      cases parsed.symm.trans again
      cases nothing.symm.trans pointed
  | filter hasText parsed pointed hasFilter refuses =>
      obtain ⟨values, document, again, value, known, filters⟩ :=
        gathers.selects_of_hasText hasText
      cases parsed.symm.trans again
      cases pointed.symm.trans known
      exact not_filters_of_refuses hasFilter refuses filters

theorem unloadable_of_select {document : Json} {text : String} {fault : RunFault}
    (hasText : settings.HasText store text) (parsed : Json.parse text = .ok document)
    (failed : settings.select engine path document = .error fault) :
    settings.Unloadable engine store := by
  cases pointed : settings.pointed? document with
  | none => exact .pointer hasText parsed pointed
  | some value =>
      rcases settings.filters_or_refuses engine value with
        ⟨values, filters⟩ | ⟨source, fault, hasFilter, refuses⟩
      · have selected : settings.select engine path document = .ok values :=
          select_eq_ok_iff.mpr ⟨value, pointed, filters⟩
        cases failed.symm.trans selected
      · exact .filter hasText parsed pointed hasFilter refuses

theorem unloadable_of_loadFile {fault : RunFault} (names : settings.Names store path)
    (failed : settings.loadFile engine store path = .error fault) :
    settings.Unloadable engine store := by
  cases read : store.read path with
  | error unread => exact .file names read
  | ok content =>
      unfold loadFile at failed
      rw [read] at failed
      rcases except_bind_eq_error.mp failed with impossible | ⟨_, known, failed⟩
      · cases impossible
      cases known
      rcases except_bind_eq_error.mp failed with failed | ⟨_, _, impossible⟩
      · obtain ⟨text, isText, failed⟩ := mapM_eq_error failed
        have hasText : settings.HasText store text := ⟨path, content, names, read, isText⟩
        cases parsed : Json.parse text with
        | error malformed => exact .document hasText parsed
        | ok document =>
            unfold readDocument at failed
            rw [parsed] at failed
            exact unloadable_of_select hasText parsed failed
      · cases impossible

/-- Loading fails exactly if something stands in its way. -/
theorem load_eq_error_iff :
    (∃ fault, settings.load engine store = .error fault) ↔ settings.Unloadable engine store := by
  constructor
  · rintro ⟨fault, failed⟩
    unfold load at failed
    rcases except_bind_eq_error.mp failed with failed | ⟨groups, resolved, failed⟩
    · obtain ⟨input, isInput, refused⟩ := mapM_eq_error failed
      exact .pattern isInput refused
    rcases except_bind_eq_error.mp failed with failed | ⟨_, _, impossible⟩
    · obtain ⟨path, isPath, failed⟩ := mapM_eq_error failed
      have resolved : settings.paths store = .ok groups.flatten := by
        rw [InputSettings.paths, resolved]
        rfl
      obtain ⟨found, named, resolves, flat⟩ := paths_eq_ok_iff.mp resolved
      rw [flat] at isPath
      obtain ⟨input, isFound, isPath⟩ := List.mem_flatMap.mp isPath
      have isInput : input.1 ∈ settings.inputs := named ▸ List.mem_map_of_mem isFound
      exact unloadable_of_loadFile ⟨input.1, isInput, input.2, resolves input isFound, isPath⟩
        failed
    · cases impossible
  · intro unloadable
    cases loaded : settings.load engine store with
    | error fault => exact ⟨fault, rfl⟩
    | ok documents =>
        obtain ⟨files, gathers, _⟩ := load_eq_ok_iff.mp loaded
        exact (gathers.not_unloadable unloadable).elim

theorem exists_gathers (loadable : ¬settings.Unloadable engine store) :
    ∃ files, settings.Gathers engine store files := by
  cases loaded : settings.load engine store with
  | error fault => exact (loadable (load_eq_error_iff.mp ⟨fault, loaded⟩)).elim
  | ok documents =>
      obtain ⟨files, gathers, _⟩ := load_eq_ok_iff.mp loaded
      exact ⟨files, gathers⟩

theorem pathsOf_ne_failed {input : String} :
    pathsOf store input ≠ .error (.failed count total) := by
  intro failed
  unfold pathsOf at failed
  split at failed
  · rcases except_bind_eq_error.mp failed with failed | ⟨found, _, failed⟩
    · obtain ⟨_, _, impossible⟩ := except_mapError_eq_error.mp failed
      cases impossible
    · split at failed <;> cases failed
  · cases failed

theorem select_ne_failed {document : Json} :
    settings.select engine path document ≠ .error (.failed count total) := by
  have filters (value : Json) :
      (match settings.filter with
        | none => pure [value]
        | some source => (engine.documents source value).mapError (.filter path) :
          Except RunFault (List Json)) ≠ .error (.failed count total) := by
    intro failed
    split at failed
    · cases failed
    · obtain ⟨_, _, impossible⟩ := except_mapError_eq_error.mp failed
      cases impossible
  unfold select
  cases settings.pointer with
  | none => exact filters document
  | some pointer =>
      dsimp only
      cases document.pointed? pointer with
      | none => rintro ⟨⟩
      | some value => exact filters value

theorem loadFile_ne_failed :
    settings.loadFile engine store path ≠ .error (.failed count total) := by
  intro failed
  unfold loadFile at failed
  rcases except_bind_eq_error.mp failed with failed | ⟨_, _, failed⟩
  · obtain ⟨_, _, impossible⟩ := except_mapError_eq_error.mp failed
    cases impossible
  rcases except_bind_eq_error.mp failed with failed | ⟨_, _, impossible⟩
  · obtain ⟨text, _, failed⟩ := mapM_eq_error failed
    unfold readDocument at failed
    rcases except_bind_eq_error.mp failed with failed | ⟨document, _, failed⟩
    · obtain ⟨_, _, impossible⟩ := except_mapError_eq_error.mp failed
      cases impossible
    · exact select_ne_failed failed
  · cases impossible

/-- What is wrong with descriptions comes out only after all of them are loaded. -/
theorem load_ne_failed : settings.load engine store ≠ .error (.failed count total) := by
  intro failed
  unfold load at failed
  rcases except_bind_eq_error.mp failed with failed | ⟨_, _, failed⟩
  · obtain ⟨input, _, failed⟩ := mapM_eq_error failed
    exact pathsOf_ne_failed failed
  rcases except_bind_eq_error.mp failed with failed | ⟨_, _, impossible⟩
  · obtain ⟨path, _, failed⟩ := mapM_eq_error failed
    exact loadFile_ne_failed failed
  · cases impossible

end InputSettings

end BuildScribe
