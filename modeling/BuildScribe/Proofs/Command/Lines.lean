import BuildScribe.Proofs.Command.Printing

/-!
# Lines as files

Texts on lines of their own in one file are loaded like texts in files of their own. Lines of
blanks between them and the ends of the lines make no difference, so neither does the form of
the input to what is printed.
-/

namespace BuildScribe

open InputSettings

/-- What may end a line. A carriage return before the line feed is part of the end. -/
inductive LineEnd (line : List Char) : List Char → Prop where
  | lineFeed : line.getLast? ≠ some '\r' → LineEnd line ['\n']
  | carriageReturn : LineEnd line ['\r', '\n']

/-- The text consists of the lines and their ends. The last line may have none. -/
inductive WrittenAs : List String → List Char → Prop where
  | none : WrittenAs [] []
  | last {line : String} : line ≠ "" → '\n' ∉ line.toList → WrittenAs [line] line.toList
  | line {line : String} {ending rest : List Char} {lines : List String} :
      '\n' ∉ line.toList → LineEnd line.toList ending → WrittenAs lines rest →
      WrittenAs (line :: lines) (line.toList ++ ending ++ rest)

/-- The text has the given texts on lines of their own, in order, and otherwise lines of
blanks. -/
def LaidOut (texts : List String) (content : String) : Prop :=
  ∃ lines, WrittenAs lines content.toList ∧
    texts = lines.filter fun line => !line.toList.all isBlank

theorem sourceLines_lineFeed {line : List Char} (unbroken : '\n' ∉ line) (rest : List Char) :
    sourceLines (.ofList (line ++ '\n' :: rest)) =
      .ofList (if line.getLast? = some '\r' then line.dropLast else line) ::
        sourceLines (.ofList rest) := by
  obtain ⟨first, more, split⟩ :=
    List.exists_cons_of_ne_nil (List.splitOn_ne_nil '\n' rest)
  simp only [sourceLines, String.toList_ofList,
    List.splitOn_append_cons_self_of_not_mem unbroken, split, List.dropLast_cons_cons,
    List.getLast?_cons_cons, List.map_cons, List.cons_append]

theorem sourceLines_last {line : String} (text : line ≠ "") (unbroken : '\n' ∉ line.toList) :
    sourceLines line = [line] := by
  have whole : line.toList.splitOn '\n' = [line.toList] := List.splitOn_eq_singleton unbroken
  have filled : line.toList ≠ [] := by simpa using text
  simp [sourceLines, whole, filled, Option.filter]

theorem sourceLines_of_writtenAs {lines : List String} {content : List Char}
    (written : WrittenAs lines content) : sourceLines (.ofList content) = lines := by
  induction written with
  | none => rfl
  | last text unbroken =>
      rw [String.ofList_toList]
      exact sourceLines_last text unbroken
  | @line line ending rest lines unbroken ended _ ih =>
      rw [List.append_assoc]
      cases ended with
      | lineFeed noReturn =>
          rw [List.singleton_append, sourceLines_lineFeed unbroken, if_neg noReturn, ih,
            String.ofList_toList]
      | carriageReturn =>
          have unbroken : '\n' ∉ line.toList ++ ['\r'] := by simp [unbroken]
          have joined : line.toList ++ (['\r', '\n'] ++ rest) =
              (line.toList ++ ['\r']) ++ '\n' :: rest := by simp
          rw [joined, sourceLines_lineFeed unbroken, List.getLast?_concat, if_pos rfl,
            List.dropLast_concat, ih, String.ofList_toList]

namespace InputSettings

variable {settings : InputSettings} {engine : FilterEngine} {store : FileStore}

theorem split_of_laidOut (linewise : settings.linewise = true) {texts : List String}
    {content : String} (laidOut : LaidOut texts content) : settings.split content = texts := by
  obtain ⟨lines, written, rfl⟩ := laidOut
  have read : sourceLines content = lines := by
    simpa using sourceLines_of_writtenAs written
  rw [split, if_pos linewise, read]

theorem selectsAll_append {first second : List String} {values : List Json} :
    settings.SelectsAll engine (first ++ second) values ↔
      ∃ before behind, settings.SelectsAll engine first before ∧
        settings.SelectsAll engine second behind ∧ values = before ++ behind := by
  constructor
  · rintro ⟨parts, split, selects, rfl⟩
    obtain ⟨front, back, rfl, onFront, onBack⟩ := List.map_eq_append_iff.mp split
    rw [List.forall_mem_append] at selects
    exact ⟨_, _, ⟨front, onFront, selects.1, rfl⟩, ⟨back, onBack, selects.2, rfl⟩,
      List.flatMap_append⟩
  · rintro ⟨_, _, ⟨front, rfl, onFront, rfl⟩, ⟨back, rfl, onBack, rfl⟩, rfl⟩
    exact ⟨front ++ back, List.map_append, List.forall_mem_append.mpr ⟨onFront, onBack⟩,
      List.flatMap_append.symm⟩

/-- Files with known contents are loaded exactly if every text in them can be, and their
values are those of all texts in order. -/
theorem exists_gathers_iff {paths contents : List String}
    (resolved : settings.paths store = .ok paths)
    (read : paths.map store.read = contents.map .ok) {values : List Json} :
    (∃ files, settings.Gathers engine store files ∧ values = files.flatMap (·.2)) ↔
      settings.SelectsAll engine (contents.flatMap settings.split) values := by
  have onPaths : (∃ files : List (String × List Json), files.map (·.1) = paths ∧
      (∀ file ∈ files, settings.Holds engine store file.1 file.2) ∧ values = files.flatMap (·.2)) ↔
        settings.SelectsAll engine (contents.flatMap settings.split) values := by
    clear resolved
    induction paths generalizing contents values with
    | nil =>
        cases contents with
        | cons content others => cases read
        | nil => simp [SelectsAll]
    | cons path rest ih =>
        cases contents with
        | nil => cases read
        | cons content others =>
            rw [List.map_cons, List.map_cons, List.cons.injEq] at read
            rw [List.flatMap_cons, selectsAll_append]
            constructor
            · rintro ⟨files, named, holds, rfl⟩
              obtain ⟨file, more, rfl, rfl, others⟩ := List.map_eq_cons_iff.mp named
              rw [List.forall_mem_cons] at holds
              obtain ⟨text, known, selects⟩ := holds.1
              cases read.1.symm.trans known
              exact ⟨_, _, selects, (ih read.2).mp ⟨more, others, holds.2, rfl⟩,
                List.flatMap_cons⟩
            · rintro ⟨before, behind, onFirst, onOthers, rfl⟩
              obtain ⟨files, named, holds, rfl⟩ := (ih read.2).mpr onOthers
              refine ⟨(path, before) :: files, by rw [List.map_cons, named], ?_, rfl⟩
              exact List.forall_mem_cons.mpr ⟨⟨content, read.1, onFirst⟩, holds⟩
  rw [← onPaths]
  constructor
  · rintro ⟨files, ⟨named, holds⟩, rfl⟩
    exact ⟨files, (Except.ok.inj (resolved.symm.trans named)).symm, holds, rfl⟩
  · rintro ⟨files, rfl, holds, rfl⟩
    exact ⟨files, ⟨resolved, holds⟩, rfl⟩

end InputSettings

namespace RenderSettings

variable {settings : RenderSettings} {engine : FilterEngine} {session : Session}
  {language : Language}

/-- The settings with other inputs, which are read line by line or each as a whole. -/
def reading (settings : RenderSettings) (linewise : Bool) (inputs : List String) :
    RenderSettings :=
  { settings with input := { settings.input with linewise, inputs } }

/-- What a run prints depends only on the texts in its files, in order, and so does how it
ends. -/
theorem run_of_contents (recognized : Language.ofName? settings.language = some language)
    (toOutput : settings.outDirectory = none) {paths contents : List String}
    (resolved : settings.input.paths session.store = .ok paths)
    (read : paths.map session.store.read = contents.map .ok) :
    (∀ values, settings.input.SelectsAll engine (contents.flatMap settings.input.split) values →
      (settings.run engine session).session.printed =
          session.printed ++ String.join (values.filterMap settings.script?) ∧
        (settings.run engine session).fault = verdict values.length (settings.failing values)) ∧
    ((¬∃ values, settings.input.SelectsAll engine (contents.flatMap settings.input.split) values) →
      (settings.run engine session).session.printed = session.printed ∧
        ∃ fault, (settings.run engine session).fault = some fault ∧
          ∀ count total, fault ≠ .failed count total) := by
  constructor
  · intro values selects
    obtain ⟨files, gathers, rfl⟩ := (exists_gathers_iff resolved read).mpr selects
    rw [run_of_gathers recognized toOutput gathers, ← map_value_documentsOf]
    exact ⟨by simp [afterPrinting, List.filterMap_map], by simp⟩
  · intro nothing
    have unloadable : settings.input.Unloadable engine session.store := by
      refine Classical.byContradiction fun loadable => nothing ?_
      obtain ⟨files, gathers⟩ := exists_gathers loadable
      exact ⟨_, (exists_gathers_iff resolved read).mp ⟨files, gathers, rfl⟩⟩
    obtain ⟨fault, notFailed, stopped⟩ := run_of_unloadable recognized unloadable
    rw [stopped]
    exact ⟨rfl, fault, rfl, notFailed⟩

/-- Two runs print the same and end alike if one reads the texts from lines of one file and
the other reads each of them from a file of its own. -/
theorem run_linewise (engine : FilterEngine) (toOutput : settings.outDirectory = none)
    {other : Session} (samePrinted : session.printed = other.printed)
    {together separate : List String} {path content : String} {paths texts : List String}
    (resolved : (settings.reading true together).input.paths session.store = .ok [path])
    (read : session.store.read path = .ok content) (laidOut : LaidOut texts content)
    (resolvedApart : (settings.reading false separate).input.paths other.store = .ok paths)
    (readApart : paths.map other.store.read = texts.map .ok) :
    ((settings.reading true together).run engine session).session.printed =
        ((settings.reading false separate).run engine other).session.printed ∧
      (((settings.reading true together).run engine session).fault = none ↔
        ((settings.reading false separate).run engine other).fault = none) ∧
      ∀ count total,
        ((settings.reading true together).run engine session).fault = some (.failed count total) ↔
          ((settings.reading false separate).run engine other).fault =
            some (.failed count total) := by
  cases recognized : Language.ofName? settings.language with
  | none =>
      have stopped (linewise : Bool) (inputs : List String) (session : Session) :
          (settings.reading linewise inputs).run engine session =
            { session := session, fault := some (.language settings.language) } := by
        simp only [run, reading, recognized]
      simp [stopped, samePrinted]
  | some language =>
      have readTogether : [path].map session.store.read = [content].map .ok := by
        rw [List.map_singleton, read]
        rfl
      have onLines : [content].flatMap (settings.reading true together).input.split = texts := by
        rw [List.flatMap_singleton]
        exact split_of_laidOut rfl laidOut
      have onFiles : texts.flatMap (settings.reading false separate).input.split = texts :=
        List.flatMap_singleton' texts
      obtain ⟨written, unwritten⟩ :=
        (settings.reading true together).run_of_contents recognized toOutput resolved
          readTogether
      obtain ⟨writtenApart, unwrittenApart⟩ :=
        (settings.reading false separate).run_of_contents recognized toOutput resolvedApart
          readApart
      rw [onLines] at written unwritten
      rw [onFiles] at writtenApart unwrittenApart
      by_cases loads : ∃ values, settings.input.SelectsAll engine texts values
      · obtain ⟨values, selects⟩ := loads
        obtain ⟨printed, ended⟩ := written values selects
        obtain ⟨printedApart, endedApart⟩ := writtenApart values selects
        rw [printed, printedApart, ended, endedApart, samePrinted]
        exact ⟨rfl, Iff.rfl, fun _ _ => Iff.rfl⟩
      · obtain ⟨printed, fault, ended, notFailed⟩ := unwritten loads
        obtain ⟨printedApart, faultApart, endedApart, notFailedApart⟩ := unwrittenApart loads
        rw [printed, printedApart, ended, endedApart]
        refine ⟨samePrinted, by simp, fun count total => ?_⟩
        simp [notFailed count total, notFailedApart count total]

/-- Two texts, one of them no description, with a line of blanks between them. -/
theorem run_linewise_of_two_texts :
    let session : Session :=
      { store := ⟨[],
          ⟨[(["a"], .ok "\x7b\x7d\n \t\r\ntrue"), (["b"], .ok "\x7b\x7d"),
            (["c"], .ok "true")]⟩, []⟩ }
    let together := ((plain false [] none).reading true ["a"]).run .basic session
    let separate := ((plain false [] none).reading false ["b", "c"]).run .basic session
    LaidOut ["\x7b\x7d", "true"] "\x7b\x7d\n \t\r\ntrue" ∧
      together.session.printed = separate.session.printed ∧
      (together.fault = none ↔ separate.fault = none) ∧
      ∀ count total, together.fault = some (.failed count total) ↔
        separate.fault = some (.failed count total) := by
  intro session together separate
  unfold together separate
  have written : WrittenAs ["\x7b\x7d", " \t", "true"]
      ("\x7b\x7d".toList ++ ['\n'] ++ (" \t".toList ++ ['\r', '\n'] ++ "true".toList)) :=
    .line (by decide) (.lineFeed (by decide))
      (.line (by decide) .carriageReturn (.last (by decide) (by decide)))
  have laidOut : LaidOut ["\x7b\x7d", "true"] "\x7b\x7d\n \t\r\ntrue" :=
    ⟨_, written, by decide⟩
  refine ⟨laidOut, ?_⟩
  have resolved : ((plain false [] none).reading true ["a"]).input.paths session.store =
      .ok ["a"] := by decide +kernel
  have resolvedApart :
      ((plain false [] none).reading false ["b", "c"]).input.paths session.store =
        .ok ["b", "c"] := by decide +kernel
  have read : session.store.read "a" = .ok "\x7b\x7d\n \t\r\ntrue" := by decide +kernel
  have readApart : ["b", "c"].map session.store.read = ["\x7b\x7d", "true"].map .ok := by
    decide +kernel
  exact run_linewise .basic rfl (Eq.refl session.printed) resolved read laidOut resolvedApart
    readApart

end RenderSettings

end BuildScribe
