import BuildScribe.Command.Run
import BuildScribe.Proofs.Command.Loading

/-!
# What is printed

A run without an output directory prints nothing if something cannot be loaded. Otherwise it
prints the scripts of all documents that have one, in order, and reports each of the others
once; a document that fails has no influence on the text of another one.
-/

namespace BuildScribe

open InputSettings

namespace RenderSettings

variable {settings : RenderSettings} {engine : FilterEngine} {session : Session}
  {language : Language}

/-- The script for a value, which depends on nothing but the value and the settings. -/
def rendering (settings : RenderSettings) (value : Json) : Except Failure String := do
  let script ← ScriptDescription.ofJson value
  script.render .standard settings.language settings.format.options

theorem renderDocument_eq (document : Document) :
    settings.renderDocument document = settings.rendering document.value :=
  rfl

/-- The script for a value, if there is one. -/
def script? (settings : RenderSettings) (value : Json) : Option String :=
  (settings.rendering value).toOption

/-- The report on a document that has no script. -/
def complaint? (settings : RenderSettings) (document : Document) : Option String :=
  match settings.rendering document.value with
  | .ok _ => none
  | .error failure => some ("error: " ++ document.label ++ ": " ++ failure.message ++ "\n")

/-- The number of values that have no script. -/
def failing (settings : RenderSettings) (values : List Json) : Nat :=
  values.countP fun value => (settings.script? value).isNone

/-- Settings for Groovy scripts without any other choice. -/
def plain (linewise : Bool) (inputs : List String) (outDirectory : Option String) :
    RenderSettings :=
  { input := { linewise, pointer := none, filter := none, inputs }
    format := { tabs := false, crlf := false, noComments := false }
    language := "groovy"
    outDirectory
    dryRun := false }

/-- The same settings with a filter. -/
def filtering (settings : RenderSettings) (source : String) : RenderSettings :=
  { settings with input := { settings.input with filter := some source } }

theorem ofName?_plain (linewise : Bool) (inputs : List String)
    (outDirectory : Option String) :
    Language.ofName? (plain linewise inputs outDirectory).language = some .groovy := by
  change Language.ofName? "groovy" = some .groovy
  decide +kernel

/-- How a run ends after all scripts were handed out. -/
def verdict (total : Nat) : (failures : Nat) → Option RunFault
  | 0 => none
  | failures + 1 => some (.failed (failures + 1) total)

/-- What has been printed and reported when the scripts of some documents are handed out. -/
def afterPrinting (settings : RenderSettings) (session : Session)
    (documents : List Document) : Session :=
  { store := session.store
    printed := session.printed ++
      String.join (documents.filterMap fun document => settings.script? document.value)
    messages := session.messages ++ String.join (documents.filterMap settings.complaint?) }

theorem afterPrinting_cons_of_ok {document : Document} {text : String}
    (rendered : settings.rendering document.value = .ok text) (rest : List Document) :
    settings.afterPrinting session (document :: rest) =
      settings.afterPrinting (session.print text) rest := by
  have script : settings.script? document.value = some text := by rw [script?, rendered]; rfl
  have noComplaint : settings.complaint? document = none := by rw [complaint?, rendered]
  simp [afterPrinting, script, noComplaint, Session.print, String.append_assoc]

theorem afterPrinting_cons_of_error {document : Document} {failure : Failure}
    (refused : settings.rendering document.value = .error failure) (rest : List Document) :
    settings.afterPrinting session (document :: rest) =
      settings.afterPrinting
        (session.report ("error: " ++ document.label ++ ": " ++ failure.message)) rest := by
  have noScript : settings.script? document.value = none := by rw [script?, refused]; rfl
  have complaint : settings.complaint? document =
      some ("error: " ++ document.label ++ ": " ++ failure.message ++ "\n") := by
    rw [complaint?, refused]
  simp [afterPrinting, noScript, complaint, Session.report, String.append_assoc]

@[simp] theorem failing_nil : settings.failing [] = 0 :=
  rfl

theorem failing_cons_of_ok {value : Json} {text : String}
    (rendered : settings.rendering value = .ok text) (rest : List Json) :
    settings.failing (value :: rest) = settings.failing rest := by
  simp [failing, script?, rendered, Except.toOption]

theorem failing_cons_of_error {value : Json} {failure : Failure}
    (refused : settings.rendering value = .error failure) (rest : List Json) :
    settings.failing (value :: rest) = settings.failing rest + 1 := by
  simp [failing, script?, refused, Except.toOption]

theorem emitAll_nil (total failures : Nat) :
    settings.emitAll language total failures session [] =
      { session := session, fault := verdict total failures } := by
  cases failures <;> rfl

theorem emitAll_cons_of_ok {document : Document} {text : String} {next : Session}
    (rendered : settings.rendering document.value = .ok text)
    (emitted : settings.emit language session document text = .ok next)
    (total failures : Nat) (rest : List Document) :
    settings.emitAll language total failures session (document :: rest) =
      settings.emitAll language total failures next rest := by
  rw [← renderDocument_eq] at rendered
  cases failures <;> simp only [emitAll, rendered, emitted]

theorem emitAll_cons_of_fault {document : Document} {text : String} {fault : RunFault}
    (rendered : settings.rendering document.value = .ok text)
    (failed : settings.emit language session document text = .error fault)
    (total failures : Nat) (rest : List Document) :
    settings.emitAll language total failures session (document :: rest) =
      { session := session, fault := some fault } := by
  rw [← renderDocument_eq] at rendered
  cases failures <;> simp only [emitAll, rendered, failed]

theorem emitAll_cons_of_error {document : Document} {failure : Failure}
    (refused : settings.rendering document.value = .error failure) (total failures : Nat)
    (rest : List Document) :
    settings.emitAll language total failures session (document :: rest) =
      settings.emitAll language total (failures + 1)
        (session.report ("error: " ++ document.label ++ ": " ++ failure.message)) rest := by
  rw [← renderDocument_eq] at refused
  cases failures <;> simp only [emitAll, refused]

/-- Handing out documents prints their scripts, reports the failures and adds their number
to those before. -/
theorem emitAll_to_output (toOutput : settings.outDirectory = none) (total failures : Nat)
    (documents : List Document) :
    settings.emitAll language total failures session documents =
      { session := settings.afterPrinting session documents
        fault := verdict total (failures + settings.failing (documents.map (·.value))) } := by
  induction documents generalizing failures session with
  | nil => simp [emitAll_nil, afterPrinting]
  | cons document rest ih =>
      rw [List.map_cons]
      cases rendered : settings.rendering document.value with
      | ok text =>
          have emitted : settings.emit language session document text =
              .ok (session.print text) := by
            rw [emit, toOutput]
          rw [emitAll_cons_of_ok rendered emitted, afterPrinting_cons_of_ok rendered,
            failing_cons_of_ok rendered]
          exact ih failures
      | error failure =>
          rw [emitAll_cons_of_error rendered, ih, afterPrinting_cons_of_error rendered,
            failing_cons_of_error rendered, Nat.add_right_comm, Nat.add_assoc]

theorem run_of_unloadable (recognized : Language.ofName? settings.language = some language)
    (unloadable : settings.input.Unloadable engine session.store) :
    ∃ fault, (∀ count total, fault ≠ .failed count total) ∧
      settings.run engine session = { session := session, fault := some fault } := by
  obtain ⟨fault, failed⟩ := load_eq_error_iff.mpr unloadable
  refine ⟨fault, ?_, ?_⟩
  · rintro count total rfl
    exact load_ne_failed failed
  · unfold run
    rw [recognized]
    simp only [failed]

theorem run_of_load (recognized : Language.ofName? settings.language = some language)
    {documents : List Document}
    (loaded : settings.input.load engine session.store = .ok documents) :
    settings.run engine session =
      settings.emitAll language documents.length 0 session documents := by
  unfold run
  rw [recognized]
  simp only [loaded]

theorem run_of_gathers (recognized : Language.ofName? settings.language = some language)
    (toOutput : settings.outDirectory = none) {files : List (String × List Json)}
    (gathers : settings.input.Gathers engine session.store files) :
    settings.run engine session =
      { session := settings.afterPrinting session (documentsOf files)
        fault := verdict (documentsOf files).length
          (settings.failing (files.flatMap (·.2))) } := by
  rw [run_of_load recognized (load_eq_ok_iff.mpr ⟨files, gathers, rfl⟩),
    emitAll_to_output toOutput, map_value_documentsOf, Nat.zero_add]

/-- A run that prints does so only if everything can be loaded, whatever engine runs the
filter. It prints the scripts of the documents in order, reports those that have none, and
fails exactly if there are any, with their number out of all. -/
theorem run_to_output (engine : FilterEngine)
    (recognized : Language.ofName? settings.language = some language)
    (toOutput : settings.outDirectory = none) :
    (settings.input.Unloadable engine session.store ∧
      ∃ fault, settings.run engine session = { session := session, fault := some fault }) ∨
    (¬settings.input.Unloadable engine session.store ∧
      ∃ files, settings.input.Gathers engine session.store files ∧
        settings.run engine session =
          { session := settings.afterPrinting session (documentsOf files)
            fault := verdict (documentsOf files).length
              (settings.failing (files.flatMap (·.2))) }) := by
  by_cases unloadable : settings.input.Unloadable engine session.store
  · obtain ⟨fault, _, stopped⟩ := run_of_unloadable recognized unloadable
    exact .inl ⟨unloadable, fault, stopped⟩
  · obtain ⟨files, gathers⟩ := exists_gathers unloadable
    exact .inr ⟨unloadable, files, gathers, run_of_gathers recognized toOutput gathers⟩

/-- Two outputs of a filter, the second of which is no description. -/
theorem run_to_output_of_refused_item :
    let settings := (plain false ["a"] none).filtering ".[]"
    let session : Session :=
      { store := ⟨[], ⟨[(["a"], .ok "[\x7b\"group\": \"g\"\x7d, true]")]⟩, []⟩ }
    let result := settings.run .basic session
    Language.ofName? settings.language = some .groovy ∧ settings.outDirectory = none ∧
      result.session.printed = "group = 'g'\n" ∧ result.fault = some (.failed 1 2) := by
  intro settings session result
  have recognized : Language.ofName? settings.language = some .groovy :=
    ofName?_plain false ["a"] none
  have loaded : settings.input.load .basic session.store =
      .ok [⟨"a", some 0, .object [("group", .string "g")]⟩, ⟨"a", some 1, .bool true⟩] := by
    decide +kernel
  have loadable : ¬settings.input.Unloadable .basic session.store := by
    intro unloadable
    obtain ⟨fault, failed⟩ := load_eq_error_iff.mpr unloadable
    cases loaded.symm.trans failed
  obtain ⟨_, files, gathers, (printed : result = _)⟩ :=
    (run_to_output .basic recognized rfl).resolve_left fun failed => loadable failed.1
  have documents := load_eq_ok_iff.mpr ⟨files, gathers, rfl⟩
  rw [loaded] at documents
  have documents := Except.ok.inj documents
  have written : settings.script? (.object [("group", .string "g")]) =
      some "group = 'g'\n" := by
    decide +kernel
  have refused : settings.script? (.bool true) = none := by decide +kernel
  refine ⟨recognized, rfl, ?_, ?_⟩
  · rw [printed, ← documents]
    simp only [afterPrinting, List.filterMap, written, refused]
    rfl
  · rw [printed, ← map_value_documentsOf, ← documents]
    simp only [failing, List.map, List.countP_cons, written, refused]
    rfl

end RenderSettings

end BuildScribe
