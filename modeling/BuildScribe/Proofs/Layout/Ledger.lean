import BuildScribe.Proofs.History
import BuildScribe.Proofs.Layout.Emission
import Mathlib.Data.List.Infix

/-!
# Buffers and their calls

A ledger lists what was called on a buffer: for each line the texts that were put on it, with
the levels then in force. Pages follow ledgers as buffers follow pages, so a buffer that was
empty at first holds the lines of its ledger, and its counters count them.
-/

namespace BuildScribe

/-- What is called on a buffer: a stroke, or a step to another level. -/
inductive Call where
  | stroke (stroke : Stroke)
  | indent
  | dedent
deriving DecidableEq

namespace Call

def emission : Call → Emission
  | .stroke drawn => modify (·.apply drawn)
  | .indent => Emission.indent
  | .dedent => Emission.dedent

/-- The call leads from one buffer to the other and does not halt. -/
def Leads (before : Buffer) (call : Call) (after : Buffer) : Prop :=
  call.emission.run before = .ok () after

/-- No call steps back from the outermost level: wherever the calls are cut off, there are no
more steps back than steps down. -/
def Balanced (calls : List Call) : Prop :=
  ∀ first ∈ calls.inits, first.count .dedent ≤ first.count .indent

instance (calls : List Call) : Decidable (Balanced calls) :=
  List.decidableBAll (fun first : List Call => first.count .dedent ≤ first.count .indent)
    calls.inits

variable {before after : Buffer} {call : Call}

theorem run_modify_eq_ok_iff {change : Buffer → Buffer} :
    (modify change : Emission).run before = .ok () after ↔ after = change before := by
  constructor
  · rintro ⟨⟩
    rfl
  · rintro rfl
    exact rfl

theorem leads_stroke_iff {drawn : Stroke} :
    Leads before (.stroke drawn) after ↔ after = before.apply drawn :=
  run_modify_eq_ok_iff

theorem leads_indent_iff : Leads before .indent after ↔ after = before.indent :=
  run_modify_eq_ok_iff

theorem leads_dedent_iff :
    Leads before .dedent after ↔ before.level ≠ 0 ∧ after = before.dedent := by
  have ran : Emission.dedent.run before =
      (if before.level = 0 then throw .unbalanced else set before.dedent : Emission) before :=
    rfl
  rw [Leads, emission, ran]
  by_cases outermost : before.level = 0
  · rw [if_pos outermost]
    constructor
    · rintro ⟨⟩
    · intro steps
      exact (steps.1 outermost).elim
  · rw [if_neg outermost]
    constructor
    · rintro ⟨⟩
      exact ⟨outermost, rfl⟩
    · rintro ⟨_, rfl⟩
      exact rfl

theorem Leads.options (leads : Leads before call after) : after.options = before.options := by
  cases call with
  | stroke drawn =>
      rw [leads_stroke_iff.mp leads, ← Buffer.write_zero, Buffer.options_write]
  | indent => rw [leads_indent_iff.mp leads, Buffer.indent]
  | dedent => rw [(leads_dedent_iff.mp leads).2, Buffer.dedent]

theorem Leads.level (leads : Leads before call after) :
    after.level + [call].count .dedent = before.level + [call].count .indent := by
  cases call with
  | stroke drawn =>
      rw [leads_stroke_iff.mp leads, Buffer.level_apply]
      rfl
  | indent =>
      rw [leads_indent_iff.mp leads]
      rfl
  | dedent =>
      obtain ⟨inside, rfl⟩ := leads_dedent_iff.mp leads
      exact Nat.sub_add_cancel (Nat.pos_of_ne_zero inside)

theorem exists_leads
    (inside : [call].count .dedent ≤ before.level + [call].count .indent) :
    ∃ after, Leads before call after := by
  cases call with
  | stroke drawn => exact ⟨_, leads_stroke_iff.mpr rfl⟩
  | indent => exact ⟨_, leads_indent_iff.mpr rfl⟩
  | dedent =>
      refine ⟨_, leads_dedent_iff.mpr ⟨?_, rfl⟩⟩
      intro outermost
      rw [outermost] at inside
      exact absurd inside (by decide)

/-- Calls run through exactly if the steps back never outnumber the level at the start and the
steps down. -/
theorem exists_run_iff (start : Buffer) (calls : List Call) :
    (∃ last, Run Leads start calls last) ↔
      ∀ first, first <+: calls → first.count .dedent ≤ start.level + first.count .indent := by
  -- The first call changes the level by the steps that it adds to the counts, so what is asked
  -- of the later calls is the same from the next buffer as from the start.
  induction calls generalizing start with
  | nil =>
      constructor
      · rintro _ first isFirst
        rw [List.prefix_nil.mp isFirst]
        exact Nat.zero_le _
      · intro _
        exact ⟨start, .done start⟩
  | cons call later ih =>
      constructor
      · rintro ⟨last, _ | ⟨leads, run⟩⟩ first isFirst
        rcases List.prefix_cons_iff.mp isFirst with rfl | ⟨rest, rfl, isRest⟩
        · exact Nat.zero_le _
        · have onRest := (ih _).mp ⟨last, run⟩ rest isRest
          have stepped := leads.level
          rw [← List.singleton_append, List.count_append, List.count_append]
          omega
      · intro onAll
        obtain ⟨next, leads⟩ := exists_leads (onAll [call] (List.prefix_append [call] later))
        have onLater (rest : List Call) (isRest : rest <+: later) :
            rest.count .dedent ≤ next.level + rest.count .indent := by
          have onRest := onAll (call :: rest) (List.cons_prefix_cons.mpr ⟨rfl, isRest⟩)
          have stepped := leads.level
          rw [← List.singleton_append, List.count_append, List.count_append] at onRest
          omega
        obtain ⟨last, run⟩ := (ih next).mpr onLater
        exact ⟨last, .step leads run⟩

theorem exists_run_empty_iff (options : LayoutOptions) (calls : List Call) :
    (∃ last, Run Leads (.empty options) calls last) ↔ Balanced calls := by
  rw [exists_run_iff]
  simp [Balanced, Buffer.empty]

end Call

/-- A text that was put on a line, with the level then in force. -/
structure PlacedText where
  level : Nat
  text : String
deriving DecidableEq

/-- The level in force, and what was put on the terminated lines and on the current one. -/
structure Ledger where
  level : Nat := 0
  ended : List (List PlacedText) := []
  current : List PlacedText := []
deriving DecidableEq

namespace Ledger

/-- Nothing is on the line but empty texts. -/
def IsBlank (texts : List PlacedText) : Prop :=
  ∀ placed ∈ texts, placed.text = ""

instance (texts : List PlacedText) : Decidable (IsBlank texts) :=
  List.decidableBAll (fun placed : PlacedText => placed.text = "") texts

/-- The first text on the line that is not empty. -/
def firstText (texts : List PlacedText) : Option PlacedText :=
  texts.find? (·.text ≠ "")

/-- What stands on a line: nothing if it is blank, and otherwise the indent for the level at
which its first text was put there, and then all texts. -/
def lineText (options : LayoutOptions) (texts : List PlacedText) : String :=
  match firstText texts with
  | none => ""
  | some first =>
      String.ofList (Buffer.indentChars options first.level) ++
        String.join (texts.map PlacedText.text)

/-- The terminated lines, each with the line ending behind it, and the current line. -/
def text (ledger : Ledger) (options : LayoutOptions) : String :=
  String.join (ledger.ended.map fun texts => lineText options texts ++ options.lineEnding) ++
    lineText options ledger.current

def put (ledger : Ledger) (written : String) : Ledger :=
  { ledger with current := ledger.current ++ [⟨ledger.level, written⟩] }

def close (ledger : Ledger) : Ledger :=
  { ledger with ended := ledger.ended ++ [ledger.current], current := [] }

/-- The ledger with one call more. A line stroke ends a blank line too, a finish does not. -/
def record (ledger : Ledger) : Call → Ledger
  | .stroke (.text written) => ledger.put written
  | .stroke (.line written) => (ledger.put written).close
  | .stroke .finish => if IsBlank ledger.current then ledger else ledger.close
  | .stroke (.mark _) => ledger
  | .indent => { ledger with level := ledger.level + 1 }
  | .dedent => { ledger with level := ledger.level - 1 }

def ofCalls (calls : List Call) : Ledger :=
  calls.foldl record {}

theorem ofCalls_concat (calls : List Call) (call : Call) :
    ofCalls (calls ++ [call]) = (ofCalls calls).record call := by
  rw [ofCalls, List.foldl_concat]
  rfl

theorem level_record_stroke (ledger : Ledger) (drawn : Stroke) :
    (ledger.record (.stroke drawn)).level = ledger.level := by
  cases drawn with
  | finish => rw [record]; split <;> rfl
  | _ => rfl

variable {texts : List PlacedText}

theorem firstText_eq_none_iff : firstText texts = none ↔ IsBlank texts := by
  simp [firstText, IsBlank]

theorem firstText_concat (texts : List PlacedText) (placed : PlacedText) :
    firstText (texts ++ [placed]) =
      (firstText texts).or (if placed.text = "" then none else some placed) := by
  rw [firstText, List.find?_append, ← firstText]
  by_cases nothing : placed.text = "" <;> simp [nothing]

theorem join_eq_empty_iff : String.join (texts.map PlacedText.text) = "" ↔ IsBlank texts := by
  induction texts with
  | nil => simp [IsBlank]
  | cons first rest ih =>
      rw [List.map_cons, String.join_cons, String.append_eq_empty_iff, ih, IsBlank, IsBlank,
        List.forall_mem_cons]

theorem join_ne_empty {first : PlacedText} (found : firstText texts = some first) :
    String.join (texts.map PlacedText.text) ≠ "" := by
  rw [ne_eq, join_eq_empty_iff, ← firstText_eq_none_iff, found]
  exact Option.some_ne_none first

theorem lineText_eq_empty_iff {options : LayoutOptions} :
    lineText options texts = "" ↔ IsBlank texts := by
  rw [← firstText_eq_none_iff, lineText]
  cases found : firstText texts with
  | none => simp
  | some first => simp [join_ne_empty found]

/-- The line that the texts make up, if anything stands on it. -/
def lineOf (texts : List PlacedText) : Option Line :=
  (firstText texts).map fun first =>
    ⟨first.level, String.join (texts.map PlacedText.text)⟩

theorem lineOf_eq_none_iff : lineOf texts = none ↔ IsBlank texts := by
  rw [lineOf, Option.map_eq_none_iff, firstText_eq_none_iff]

theorem lineText_eq_shown (options : LayoutOptions) (texts : List PlacedText) :
    lineText options texts = (lineOf texts).elim "" (Line.shown options) := by
  unfold lineText lineOf
  cases found : firstText texts with
  | none => rfl
  | some first => simp [Line.shown, join_ne_empty found]

/-- One more text goes on with the line, or starts it. -/
theorem put_lineOf (closed : List Line) (texts : List PlacedText) (level : Nat)
    (written : String) :
    Page.put ⟨closed, lineOf texts⟩ level written =
      ⟨closed, lineOf (texts ++ [⟨level, written⟩])⟩ := by
  rw [lineOf, lineOf, firstText_concat]
  by_cases nothing : written = ""
  · simp [Page.put, nothing]
  · cases found : firstText texts with
    | none =>
        have blank := join_eq_empty_iff.mpr (firstText_eq_none_iff.mp found)
        simp [Page.put, nothing, blank]
    | some first => simp [Page.put, nothing]

end Ledger

open Ledger (IsBlank lineOf lineText)

namespace Page

/-- The page shows what the ledger lists. The depth of a blank line does not show, so terminated
lines are compared by what they show. -/
structure Bears (page : Page) (ledger : Ledger) : Prop where
  closed : ∀ options,
    page.closed.map (Line.shown options) = ledger.ended.map (lineText options)
  current : page.current = lineOf ledger.current

namespace Bears

variable {page : Page} {ledger : Ledger}

theorem blank : Page.blank.Bears {} :=
  ⟨fun _ => rfl, rfl⟩

/-- What a ledger lists does not depend on its level. -/
theorem atLevel (bears : page.Bears ledger) (level : Nat) :
    page.Bears { ledger with level := level } :=
  ⟨bears.closed, bears.current⟩

theorem put (bears : page.Bears ledger) (written : String) :
    (page.put ledger.level written).Bears (ledger.put written) := by
  obtain ⟨closed, current⟩ := page
  obtain ⟨onClosed, rfl⟩ := bears
  rw [Ledger.put_lineOf]
  exact ⟨onClosed, rfl⟩

theorem close (bears : page.Bears ledger) (depth : Nat) :
    (page.close depth).Bears ledger.close := by
  constructor
  · intro options
    have ended : (page.current.getD ⟨depth, ""⟩).shown options =
        lineText options ledger.current := by
      rw [Ledger.lineText_eq_shown, bears.current]
      cases lineOf ledger.current <;> rfl
    simp [Page.close, Ledger.close, bears.closed, ended]
  · rfl

theorem settle (bears : page.Bears ledger) :
    page.settle.Bears (ledger.record (.stroke .finish)) := by
  cases known : page.current with
  | none =>
      have blank : IsBlank ledger.current := by
        rw [← Ledger.lineOf_eq_none_iff, ← bears.current, known]
      simpa [Page.settle, known, Ledger.record, blank] using bears
  | some line =>
      have inked : ¬ IsBlank ledger.current := by
        rw [← Ledger.lineOf_eq_none_iff, ← bears.current, known]
        exact Option.some_ne_none line
      simpa [Page.settle, Page.close, known, Ledger.record, inked] using bears.close line.depth

theorem apply (bears : page.Bears ledger) (drawn : Stroke) :
    (page.apply ledger.level drawn).Bears (ledger.record (.stroke drawn)) := by
  cases drawn with
  | text written => exact bears.put written
  | line written => exact (bears.put written).close ledger.level
  | finish => exact bears.settle
  | mark location => exact bears

theorem currentText (bears : page.Bears ledger) (options : LayoutOptions) :
    page.currentText options = lineText options ledger.current := by
  rw [Ledger.lineText_eq_shown, ← bears.current, Page.currentText]
  cases page.current <;> rfl

theorem text (bears : page.Bears ledger) (options : LayoutOptions) :
    page.text options = ledger.text options := by
  have ended : page.closed.map (Line.text options) =
      ledger.ended.map fun texts => lineText options texts ++ options.lineEnding := by
    have shown := congrArg (List.map (· ++ options.lineEnding)) (bears.closed options)
    rwa [List.map_map, List.map_map] at shown
  rw [Page.text, linesText, ended, bears.currentText, Ledger.text]

theorem isNone_current (bears : page.Bears ledger) :
    page.current.isNone = true ↔ IsBlank ledger.current := by
  rw [Option.isNone_iff_eq_none, bears.current, Ledger.lineOf_eq_none_iff]

theorem length_closed (bears : page.Bears ledger) :
    page.closed.length = ledger.ended.length := by
  simpa using congrArg List.length (bears.closed {})

end Bears

end Page

namespace Buffer

/-- The buffer stands at the level of the ledger and shows a page that bears it. -/
structure Holds (buffer : Buffer) (ledger : Ledger) : Prop where
  level : buffer.level = ledger.level
  page : ∃ page, buffer.Shows page ∧ page.Bears ledger

namespace Holds

variable {buffer after : Buffer} {ledger : Ledger}

theorem leads {call : Call} (holds : buffer.Holds ledger)
    (led : Call.Leads buffer call after) : after.Holds (ledger.record call) := by
  obtain ⟨sameLevel, page, shows, bears⟩ := holds
  cases call with
  | stroke drawn =>
      obtain rfl := Call.leads_stroke_iff.mp led
      have drawnOn := shows.apply drawn
      rw [sameLevel] at drawnOn
      refine ⟨?_, page.apply ledger.level drawn, drawnOn, bears.apply drawn⟩
      rw [level_apply, Ledger.level_record_stroke, sameLevel]
  | indent =>
      obtain rfl := Call.leads_indent_iff.mp led
      exact ⟨congrArg (· + 1) sameLevel, page, shows.atLevel _, bears.atLevel _⟩
  | dedent =>
      obtain ⟨_, rfl⟩ := Call.leads_dedent_iff.mp led
      exact ⟨congrArg (· - 1) sameLevel, page, shows.atLevel _, bears.atLevel _⟩

variable (holds : buffer.Holds ledger)
include holds

theorem text_eq : buffer.text = ledger.text buffer.options := by
  obtain ⟨_, page, shows, bears⟩ := holds
  rw [shows.text, bears.text]

theorem fresh_iff : buffer.fresh = true ↔ IsBlank ledger.current := by
  obtain ⟨_, page, shows, bears⟩ := holds
  rw [shows.fresh, bears.isNone_current]

theorem line_eq : buffer.line = 1 + ledger.ended.length := by
  obtain ⟨_, page, shows, bears⟩ := holds
  rw [shows.line, bears.length_closed, Nat.add_comm]

theorem width_eq : buffer.width = (lineText buffer.options ledger.current).length := by
  obtain ⟨_, page, shows, bears⟩ := holds
  rw [shows.width, bears.currentText]

theorem endLine_eq :
    buffer.endLine =
      if lineText buffer.options ledger.current = "" then buffer else buffer.breakLine := by
  have blank : lineText buffer.options ledger.current = "" ↔ buffer.fresh = true :=
    Ledger.lineText_eq_empty_iff.trans holds.fresh_iff.symm
  simp only [blank]
  rfl

end Holds

/-- The calls account for the buffer: for its level, and for what it holds. -/
structure Follows (options : LayoutOptions) (past : List Call) (buffer : Buffer) : Prop where
  options : buffer.options = options
  balance : buffer.level + past.count .dedent = past.count .indent
  holds : buffer.Holds (.ofCalls past)

namespace Follows

variable {options : LayoutOptions} {past : List Call} {buffer after : Buffer}

theorem empty (options : LayoutOptions) : Follows options [] (.empty options) :=
  ⟨rfl, rfl, rfl, Page.blank, shows_empty options, .blank⟩

theorem leads {call : Call} (follows : Follows options past buffer)
    (led : Call.Leads buffer call after) : Follows options (past ++ [call]) after := by
  constructor
  · rw [led.options, follows.options]
  · have balance := follows.balance
    have stepped := led.level
    rw [List.count_append, List.count_append]
    omega
  · rw [Ledger.ofCalls_concat]
    exact follows.holds.leads led

theorem of_run (run : Run Call.Leads (.empty options) past buffer) :
    Follows options past buffer :=
  run.invariant (empty options) fun follows led => follows.leads led

end Follows

end Buffer

namespace Call

/-- Calls on an empty buffer run through exactly if none of them steps back from the outermost
level. The text is then that of the lines in the ledger of the calls. The buffer is fresh
exactly if nothing was put on its current line; it counts the terminated lines and the characters
of the current one, and its level counts the steps down that were not taken back. Ending the
line leaves an empty one as it is. -/
theorem lines_follow_calls (options : LayoutOptions) (past : List Call) :
    ((∃ buffer, Run Leads (.empty options) past buffer) ↔ Balanced past) ∧
      ∀ buffer, Run Leads (.empty options) past buffer →
        let ledger := Ledger.ofCalls past
        let current := lineText options ledger.current
        buffer.text = ledger.text options ∧
          (buffer.fresh = true ↔ IsBlank ledger.current) ∧
          buffer.line = 1 + ledger.ended.length ∧
          buffer.width = current.length ∧
          (buffer.level = ledger.level ∧
            buffer.level + past.count .dedent = past.count .indent) ∧
          buffer.endLine = if current = "" then buffer else buffer.breakLine := by
  refine ⟨exists_run_empty_iff options past, ?_⟩
  intro buffer run
  obtain ⟨rfl, balance, holds⟩ := Buffer.Follows.of_run run
  exact ⟨holds.text_eq, holds.fresh_iff, holds.line_eq, holds.width_eq,
    ⟨holds.level, balance⟩, holds.endLine_eq⟩

/-- The first line stands at the level to which the steps down behind its empty texts lead, and
the step back in its middle counts for the next line only. -/
theorem lines_follow_calls_at_late_levels :
    let options : LayoutOptions := { indent := "\t", lineEnding := "\r\n" }
    let past : List Call :=
      [.stroke (.text ""), .indent, .stroke (.text ""), .indent, .stroke (.text "é"), .dedent,
        .stroke (.text "b"), .stroke .finish, .stroke .finish, .stroke (.line ""),
        .stroke (.text "c")]
    Balanced past ∧
      ∃ buffer, Run Leads (.empty options) past buffer ∧
        buffer.text = "\t\téb\r\n\r\n\tc" ∧ buffer.fresh = false ∧ buffer.line = 3 ∧
        buffer.width = 2 ∧ buffer.level = 1 ∧ buffer.endLine = buffer.breakLine := by
  intro options past
  have balanced : Balanced past := by decide
  obtain ⟨runs, onRun⟩ := lines_follow_calls options past
  obtain ⟨buffer, run⟩ := runs.mpr balanced
  obtain ⟨text, fresh, line, width, ⟨level, _⟩, ended⟩ := onRun buffer run
  have current : lineText options (Ledger.ofCalls past).current = "\tc" := by decide
  have inked : ¬ IsBlank (Ledger.ofCalls past).current := by decide
  refine ⟨balanced, buffer, run, text.trans ?_, ?_, line, ?_, level, ?_⟩
  · decide
  · exact Bool.eq_false_iff.mpr fun starts => inked (fresh.mp starts)
  · rw [width, current]
    rfl
  · rw [ended, current]
    exact if_neg (by decide)

end Call

end BuildScribe
