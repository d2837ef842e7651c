import BuildScribe.Proofs.Command.Naming
import BuildScribe.Proofs.Command.Printing

/-!
# What is written

A run with an output directory puts every script into a file of that directory. The files of
two documents are the same exactly if their names are, and then the later script is the one
that stays.
-/

namespace BuildScribe

open InputSettings

namespace RenderSettings

variable {settings : RenderSettings} {engine : FilterEngine} {session next : Session}
  {language : Language} {directory : String} {outer : Place}

/-- The documents that have a script, each with it. -/
def scripts (settings : RenderSettings) (documents : List Document) :
    List (Document × String) :=
  documents.filterMap fun document =>
    (settings.script? document.value).map fun text => (document, text)

theorem scripts_cons_of_ok {document : Document} {text : String}
    (rendered : settings.rendering document.value = .ok text) (rest : List Document) :
    settings.scripts (document :: rest) = (document, text) :: settings.scripts rest := by
  simp [scripts, script?, rendered, Except.toOption]

theorem scripts_cons_of_error {document : Document} {failure : Failure}
    (refused : settings.rendering document.value = .error failure) (rest : List Document) :
    settings.scripts (document :: rest) = settings.scripts rest := by
  simp [scripts, script?, refused, Except.toOption]

/-- The place of the script of a document in a directory. -/
def scriptPlace (language : Language) (outer : Place) (document : Document) : Place :=
  outer ++ [document.outputName language.fileExtension]

/-- The path that the script of a document is written to. -/
def scriptPath (language : Language) (directory : String) (document : Document) : String :=
  joinPath directory (document.outputName language.fileExtension)

theorem scriptPath_inj {document other : Document}
    (same : scriptPath language directory document = scriptPath language directory other) :
    document.outputName language.fileExtension = other.outputName language.fileExtension := by
  have same := congrArg String.toList same
  rw [scriptPath, scriptPath, FileStore.toList_joinPath, FileStore.toList_joinPath] at same
  exact String.toList_injective (List.cons.inj (List.append_cancel_left same)).2

theorem nodup_scriptPaths (directory : String) (files : List (String × List Json)) :
    ((documentsOf files).map (scriptPath language directory)).Nodup ↔
      files.Pairwise fun first second => ¬Document.Clash first second := by
  rw [← Document.nodup_outputNames files language.fileExtension]
  unfold List.Nodup
  rw [List.pairwise_map, List.pairwise_map]
  refine List.Pairwise.iff fun document other => not_congr ⟨scriptPath_inj, fun same => ?_⟩
  rw [scriptPath, same, scriptPath]

theorem emit_eq_ok_iff (toDirectory : settings.outDirectory = some directory)
    {document : Document} {text : String} :
    settings.emit language session document text = .ok next ↔
      ∃ made, session.store.ensureDirectory directory = .ok made ∧
        ∃ after, made.write (scriptPath language directory document) text = .ok after ∧
          next = { session with store := after }.report
            ("wrote " ++ document.label ++ " → " ++ scriptPath language directory document) := by
  rw [emit, toDirectory]
  simp only [except_bind_eq_ok, except_mapError_eq_ok]
  refine exists_congr fun made => and_congr_right fun _ => exists_congr fun after =>
    and_congr_right fun _ => ?_
  exact ⟨fun same => (Except.ok.inj same).symm, fun same => congrArg Except.ok same.symm⟩

/-- A document that is written adds one file, in the place that its name has in the output
directory. -/
theorem emit_to_directory (toDirectory : settings.outDirectory = some directory)
    {document : Document} {text : String}
    (emitted : settings.emit language session document text = .ok next) :
    session.store.GrowsTo next.store ∧
      ∃ outer, next.store.outerPlace directory = .ok outer ∧ next.store.IsOpen outer ∧
        next.store.files = session.store.files.insert
          (scriptPlace language outer document) (.ok text) := by
  obtain ⟨made, ensured, after, wrote, rfl⟩ := (emit_eq_ok_iff toDirectory).mp emitted
  have spreads := FileStore.spreadsTo_of_ensureDirectory ensured
  have grows := FileStore.growsTo_of_write wrote
  obtain ⟨place, led, _, rfl⟩ := FileStore.write_eq_ok_iff.mp wrote
  obtain ⟨outer, inDirectory, isOpen, rfl⟩ :=
    (FileStore.resolve_joinPath (document.isPlain_outputName language) directory).mp led
  refine ⟨spreads.toGrowsTo.trans grows, outer, grows.outerPlace inDirectory,
    grows.isOpen isOpen, ?_⟩
  rw [← spreads.files]
  rfl

theorem emit_ne_failed {document : Document} {text : String} {count total : Nat} :
    settings.emit language session document text ≠ .error (.failed count total) := by
  intro failed
  unfold emit at failed
  split at failed
  · cases failed
  rcases except_bind_eq_error.mp failed with failed | ⟨_, _, failed⟩
  · obtain ⟨_, _, impossible⟩ := except_mapError_eq_error.mp failed
    cases impossible
  rcases except_bind_eq_error.mp failed with failed | ⟨_, _, impossible⟩
  · obtain ⟨_, _, impossible⟩ := except_mapError_eq_error.mp failed
    cases impossible
  · cases impossible

/-- The scripts were put into the directory, in order, and nothing else was written. -/
structure WroteTo (language : Language) (directory : String) (outer : Place)
    (scripts : List (Document × String)) (before after : FileStore) : Prop where
  grows : before.GrowsTo after
  files : after.files = before.files.insertAll
    (scripts.map fun script => (scriptPlace language outer script.1, .ok script.2))
  place : scripts ≠ [] → after.outerPlace directory = .ok outer ∧ after.IsOpen outer

theorem WroteTo.cons {document : Document} {text : String} {rest : List (Document × String)}
    {after : FileStore} (toDirectory : settings.outDirectory = some directory)
    (emitted : settings.emit language session document text = .ok next)
    (onRest : WroteTo language directory outer rest next.store after) :
    ∃ outer, WroteTo language directory outer ((document, text) :: rest) session.store
      after := by
  obtain ⟨grows, own, led, isOpen, files⟩ := emit_to_directory toDirectory emitted
  have ledOn := onRest.grows.outerPlace led
  refine ⟨own, grows.trans onRest.grows, ?_, fun _ => ⟨ledOn, onRest.grows.isOpen isOpen⟩⟩
  rw [onRest.files, files]
  by_cases none : rest = []
  · rw [none]
    rfl
  · obtain ⟨again, _⟩ := onRest.place none
    cases ledOn.symm.trans again
    rfl

/-- Handing out documents to the end writes the scripts of all that have one and counts the
others. -/
theorem emitAll_to_directory (toDirectory : settings.outDirectory = some directory)
    (total failures : Nat) (documents : List Document)
    (ended : ∀ fault,
      (settings.emitAll language total failures session documents).fault = some fault →
        ∃ count total, fault = .failed count total) :
    (settings.emitAll language total failures session documents).fault =
        verdict total (failures + settings.failing (documents.map (·.value))) ∧
      ∃ outer, WroteTo language directory outer (settings.scripts documents) session.store
        (settings.emitAll language total failures session documents).session.store := by
  induction documents generalizing failures session with
  | nil =>
      rw [emitAll_nil]
      exact ⟨rfl, [], .refl session.store, rfl, fun some => (some rfl).elim⟩
  | cons document rest ih =>
      rw [List.map_cons]
      cases rendered : settings.rendering document.value with
      | ok text =>
          rw [failing_cons_of_ok rendered, scripts_cons_of_ok rendered]
          cases emitted : settings.emit language session document text with
          | ok next =>
              rw [emitAll_cons_of_ok rendered emitted] at ended ⊢
              obtain ⟨verdict, outer, onRest⟩ := ih failures ended
              exact ⟨verdict, onRest.cons toDirectory emitted⟩
          | error fault =>
              rw [emitAll_cons_of_fault rendered emitted] at ended
              obtain ⟨count, total, rfl⟩ := ended fault rfl
              exact (emit_ne_failed emitted).elim
      | error failure =>
          rw [emitAll_cons_of_error rendered] at ended ⊢
          rw [failing_cons_of_error rendered, scripts_cons_of_error rendered,
            Nat.add_comm (settings.failing _), ← Nat.add_assoc]
          exact ih (failures + 1) ended

theorem map_fst_scripts {documents : List Document}
    (complete : settings.failing (documents.map (·.value)) = 0) :
    (settings.scripts documents).map (·.1) = documents := by
  induction documents with
  | nil => rfl
  | cons document rest ih =>
      rw [List.map_cons] at complete
      cases rendered : settings.rendering document.value with
      | ok text =>
          rw [failing_cons_of_ok rendered] at complete
          rw [scripts_cons_of_ok rendered, List.map_cons, ih complete]
      | error failure =>
          rw [failing_cons_of_error rendered] at complete
          cases complete

/-- The scripts are in files at the paths of their documents, and no other files are new. A
script can be read again if no later one has the same path. -/
structure Delivers (language : Language) (directory : String) (outer : Place)
    (scripts : List (Document × String)) (before after : FileStore) : Prop where
  resolve : ∀ script ∈ scripts,
    after.resolve (scriptPath language directory script.1) =
      .ok (scriptPlace language outer script.1)
  hasFile : ∀ place, after.hasFile place = true ↔
    before.hasFile place = true ∨
      ∃ script ∈ scripts, place = scriptPlace language outer script.1
  read : ∀ ahead script behind, scripts = ahead ++ script :: behind →
    (∀ later ∈ behind, scriptPath language directory later.1 ≠
      scriptPath language directory script.1) →
    after.read (scriptPath language directory script.1) = .ok script.2

theorem scriptPlace_inj {document other : Document}
    (same : scriptPlace language outer document = scriptPlace language outer other) :
    document.outputName language.fileExtension = other.outputName language.fileExtension := by
  simpa [scriptPlace] using same

theorem WroteTo.delivers {scripts : List (Document × String)} {before after : FileStore}
    (wrote : WroteTo language directory outer scripts before after) :
    Delivers language directory outer scripts before after := by
  have resolves : ∀ script ∈ scripts,
      after.resolve (scriptPath language directory script.1) =
        .ok (scriptPlace language outer script.1) := by
    intro script isScript
    obtain ⟨led, isOpen⟩ := wrote.place (List.ne_nil_of_mem isScript)
    exact (FileStore.resolve_joinPath (script.1.isPlain_outputName language) directory).mpr
      ⟨outer, led, isOpen, rfl⟩
  refine ⟨resolves, fun place => ?_, ?_⟩
  · unfold FileStore.hasFile
    rw [wrote.files, OrderedMap.contains_insertAll, List.map_map, List.mem_map]
    exact or_congr_right (exists_congr fun _ => and_congr_right fun _ => eq_comm)
  · intro ahead script behind split last
    have isScript : script ∈ scripts := by simp [split]
    refine FileStore.read_of_resolve (resolves script isScript) ?_
    rw [wrote.files, split, List.map_append, List.map_cons]
    refine OrderedMap.get?_insertAll_of_last ?_ (Except.ok script.2)
    simp only [List.map_map, List.mem_map, not_exists, not_and]
    intro later isLater same
    apply last later isLater
    rw [scriptPath, scriptPlace_inj same, scriptPath]

/-- The paths of the documents of a run differ exactly if no two files clash, whatever engine
runs the filter. A run that is not stopped delivers every script to the path of its document,
and all documents have one if there is no fault. -/
theorem run_to_directory (recognized : Language.ofName? settings.language = some language)
    (toDirectory : settings.outDirectory = some directory)
    {files : List (String × List Json)}
    (gathers : settings.input.Gathers engine session.store files) :
    (((documentsOf files).map (scriptPath language directory)).Nodup ↔
        files.Pairwise fun first second => ¬Document.Clash first second) ∧
      ((∀ fault, (settings.run engine session).fault = some fault →
          ∃ count total, fault = .failed count total) →
        ∃ outer, Delivers language directory outer (settings.scripts (documentsOf files))
          session.store (settings.run engine session).session.store) ∧
      ((settings.run engine session).fault = none →
        (settings.scripts (documentsOf files)).map (·.1) = documentsOf files) := by
  have loaded := load_eq_ok_iff.mpr ⟨files, gathers, rfl⟩
  rw [run_of_load recognized loaded]
  refine ⟨nodup_scriptPaths directory files, fun ended => ?_, fun finished => ?_⟩
  · obtain ⟨_, outer, wrote⟩ := emitAll_to_directory toDirectory _ _ _ ended
    exact ⟨outer, wrote.delivers⟩
  · obtain ⟨counted, _⟩ :=
      emitAll_to_directory toDirectory _ 0 (documentsOf files) fun fault failed => by
        rw [finished] at failed
        cases failed
    rw [finished, Nat.zero_add] at counted
    apply map_fst_scripts
    cases failing : settings.failing ((documentsOf files).map (·.value)) with
    | zero => rfl
    | succ failures =>
        rw [failing] at counted
        cases counted

/-- Two outputs of a filter for one file. -/
theorem run_to_directory_of_two_items :
    let settings := (plain false ["a"] (some "o")).filtering ".[]"
    let session : Session :=
      { store := ⟨[], ⟨[(["a"], .ok "[\x7b\x7d, \x7b\"group\": \"g\"\x7d]")]⟩, [["o"]]⟩ }
    Language.ofName? settings.language = some .groovy ∧
      settings.outDirectory = some "o" ∧ (settings.run .basic session).fault = none ∧
      (settings.run .basic session).session.store.read "o/a-0.gradle" = .ok "" ∧
      (settings.run .basic session).session.store.read "o/a-1.gradle" =
        .ok "group = 'g'\n" := by
  intro settings session
  let first : Document := ⟨"a", some 0, .object []⟩
  let second : Document := ⟨"a", some 1, .object [("group", .string "g")]⟩
  have recognized : Language.ofName? settings.language = some .groovy :=
    ofName?_plain false ["a"] (some "o")
  have loaded : settings.input.load .basic session.store = .ok [first, second] := by
    decide +kernel
  have blank : settings.rendering first.value = .ok "" := by decide +kernel
  have grouped : settings.rendering second.value = .ok "group = 'g'\n" := by decide +kernel
  have finished : (settings.run .basic session).fault = none := by decide +kernel
  obtain ⟨files, gathers, documents⟩ := load_eq_ok_iff.mp loaded
  obtain ⟨_, delivered, _⟩ := run_to_directory recognized rfl gathers
  obtain ⟨outer, delivers⟩ := delivered fun fault failed => by
    rw [finished] at failed
    cases failed
  rw [← documents, scripts_cons_of_ok blank, scripts_cons_of_ok grouped] at delivers
  have firstPath : scriptPath .groovy "o" first = "o/a-0.gradle" := by decide +kernel
  have secondPath : scriptPath .groovy "o" second = "o/a-1.gradle" := by decide +kernel
  refine ⟨recognized, rfl, finished, ?_, ?_⟩
  · rw [← firstPath]
    refine delivers.read [] (first, "") [(second, _)] rfl ?_
    simp only [List.forall_mem_singleton, firstPath, secondPath]
    decide
  · rw [← secondPath]
    exact delivers.read [(first, "")] (second, _) [] rfl fun _ isLater =>
      (List.not_mem_nil isLater).elim

/-- Three documents and two scripts: the number of one makes its name that of another file. -/
theorem run_overwrites_numbered_script :
    let settings := plain true ["a", "a-0"] (some "o")
    let session : Session :=
      { store := ⟨[], ⟨[(["a"], .ok "\x7b\x7d\n\x7b\x7d"),
          (["a-0"], .ok "\x7b\"group\": \"g\"\x7d")]⟩, [["o"]]⟩ }
    let documents : List Document :=
      [⟨"a", some 0, .object []⟩, ⟨"a", some 1, .object []⟩,
        ⟨"a-0", none, .object [("group", .string "g")]⟩]
    settings.input.inputs.Nodup ∧ settings.input.load .basic session.store = .ok documents ∧
      ¬(documents.map (scriptPath .groovy "o")).Nodup ∧
      (settings.run .basic session).fault = none ∧
      (settings.run .basic session).session.store.files.keys =
        [["a"], ["a-0"], ["o", "a-0.gradle"], ["o", "a-1.gradle"]] := by
  intro settings session documents
  exact ⟨by decide, by decide +kernel, by decide +kernel, by decide +kernel,
    by decide +kernel⟩

end RenderSettings

end BuildScribe
