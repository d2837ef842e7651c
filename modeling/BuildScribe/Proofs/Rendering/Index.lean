import BuildScribe.Proofs.Layout.Index
import BuildScribe.Proofs.Rendering.Position

/-!
# Source maps as an index into the text

The lines of a source map are always in order and always lines of the text. The places are,
too, unless a block ends while a mark still waits for the first text of a line: a located
node that writes nothing shows the column of the statements of the block, but what follows
there is the brace that closes the block, further to the left.
-/

namespace BuildScribe

namespace LineState

/-- Only a mark at the margin waits for text. -/
def AtMargin (state : LineState) : Prop :=
  ∀ depth ∈ state.waiting, depth = 0

theorem atMargin_start : start.AtMargin := by
  rintro _ ⟨⟩

/-- Everything is a number of levels deeper. -/
def sunk (levels : Nat) (state : LineState) : LineState :=
  ⟨state.fresh, state.waiting.map (· + levels)⟩

theorem step_sunk (levels : Nat) (state : LineState) (piece : Piece) :
    (state.sunk levels).step (piece.sunk levels) = (state.step piece).sunk levels := by
  obtain ⟨fresh, waiting⟩ := state
  obtain ⟨depth, stroke⟩ := piece
  cases stroke with
  | text written => by_cases nothing : written = "" <;> simp [step, sunk, Piece.sunk, nothing]
  | line written => rfl
  | finish => cases fresh <;> rfl
  | mark location => cases fresh <;> rfl

theorem run_sunk (levels : Nat) (state : LineState) (pieces : List Piece) :
    (state.sunk levels).run (pieces.map (Piece.sunk levels)) =
      (state.run pieces).sunk levels := by
  induction pieces generalizing state with
  | nil => rfl
  | cons piece rest ih =>
      have next := ih (state.step piece)
      rw [← step_sunk] at next
      exact next

theorem Admits.sunk {indent : Nat} {state : LineState} {piece : Piece}
    (admits : state.Admits indent piece) (levels : Nat) :
    (state.sunk levels).Admits indent (piece.sunk levels) := by
  intro waiting waits
  obtain ⟨depth, known, rfl⟩ := Option.map_eq_some_iff.mp waits
  have admitted := admits depth known
  obtain ⟨own, stroke⟩ := piece
  cases stroke with
  | text written =>
      intro something
      have reaches := admitted something
      dsimp only [Piece.sunk] at reaches ⊢
      rw [Nat.mul_add, Nat.mul_add]
      omega
  | line written =>
      obtain ⟨something, reaches⟩ := admitted
      refine ⟨something, ?_⟩
      dsimp only [Piece.sunk] at reaches ⊢
      rw [Nat.mul_add, Nat.mul_add]
      omega
  | finish => trivial
  | mark location => exact Nat.add_le_add_right admitted levels

theorem admitsAll_sunk {indent : Nat} {state : LineState} {pieces : List Piece}
    (admits : state.AdmitsAll indent pieces) (levels : Nat) :
    (state.sunk levels).AdmitsAll indent (pieces.map (Piece.sunk levels)) := by
  induction pieces generalizing state with
  | nil => trivial
  | cons piece rest ih =>
      refine ⟨admits.1.sunk levels, ?_⟩
      rw [step_sunk]
      exact ih admits.2

end LineState

namespace Fragment

/-- Where only a mark at the margin waits, every piece of the fragment is admitted, and again
only a mark at the margin waits behind it. -/
def Steady (indent : Nat) (fragment : Fragment) : Prop :=
  ∀ state : LineState, state.AtMargin →
    state.AdmitsAll indent fragment.pieces ∧ (state.run fragment.pieces).AtMargin

namespace Steady

variable {indent : Nat}

theorem empty : Fragment.empty.Steady indent :=
  fun _ atMargin => ⟨trivial, atMargin⟩

theorem text (written : String) : (Fragment.text written).Steady indent := by
  intro state atMargin
  refine ⟨⟨?_, trivial⟩, ?_⟩
  · intro depth waits _
    rw [atMargin depth waits, Nat.mul_zero]
    exact Nat.zero_le _
  · change (if written = "" then state else ⟨false, none⟩).AtMargin
    split
    · exact atMargin
    · rintro _ ⟨⟩

theorem line {written : String} (something : written ≠ "") :
    (Fragment.line written).Steady indent := by
  intro state atMargin
  refine ⟨⟨?_, trivial⟩, LineState.atMargin_start⟩
  intro depth waits
  rw [atMargin depth waits, Nat.mul_zero]
  exact ⟨something, Nat.zero_le _⟩

theorem finish : Fragment.finish.Steady indent := by
  intro state atMargin
  refine ⟨⟨fun _ _ => trivial, trivial⟩, ?_⟩
  change (if state.fresh then state else .start).AtMargin
  split
  · exact atMargin
  · exact LineState.atMargin_start

theorem mark (location : Option SourceLocation) :
    (Fragment.mark location).Steady indent := by
  cases location with
  | none => exact empty
  | some known =>
      intro state atMargin
      refine ⟨⟨fun depth waits => Nat.le_of_eq (atMargin depth waits), trivial⟩, ?_⟩
      change (if state.fresh then ⟨true, some 0⟩ else state).AtMargin
      split
      · rintro _ ⟨⟩
        rfl
      · exact atMargin

theorem append {first second : Fragment} (onFirst : first.Steady indent)
    (onSecond : second.Steady indent) : (first ++ second).Steady indent := by
  intro state atMargin
  cases fails : first.failure with
  | none =>
      rw [pieces_append fails, LineState.admitsAll_append, LineState.run_append]
      obtain ⟨firstAdmits, between⟩ := onFirst state atMargin
      obtain ⟨secondAdmits, behind⟩ := onSecond _ between
      exact ⟨⟨firstAdmits, secondAdmits⟩, behind⟩
  | some failure =>
      rw [pieces_append_of_fails fails]
      exact onFirst state atMargin

theorem compositional : Compositional (Steady indent) :=
  ⟨empty, text, finish, mark, fun _ => empty, append⟩

theorem run_text_finish {written : String} (something : written ≠ "") (state : LineState) :
    state.run (Fragment.text written ++ Fragment.finish).pieces = .start := by
  change (state.step ⟨0, .text written⟩).step ⟨0, .finish⟩ = .start
  rw [LineState.step_text something]
  rfl

/-- The brace that closes nested lines reaches their column if the indent has at most one
character. Otherwise no mark may wait there. -/
theorem enclosed {opening : String} (something : opening ≠ "") {inner : Fragment}
    (succeeds : inner.failure = none) (onInner : inner.Steady indent)
    (settled : indent ≤ 1 ∨ (LineState.start.run inner.pieces).waiting = none) :
    (Fragment.text opening ++ Fragment.finish ++ nested inner ++
      Fragment.text "\x7d").Steady indent := by
  intro state atMargin
  have onHead : (Fragment.text opening ++ Fragment.finish).Steady indent :=
    (text opening).append finish
  have opened := run_text_finish something state
  obtain ⟨innerAdmits, innerMargin⟩ := onInner .start LineState.atMargin_start
  have nestedAdmits := LineState.admitsAll_sunk innerAdmits 1
  have nestedRun := LineState.run_sunk 1 .start inner.pieces
  have atStart : LineState.start.sunk 1 = .start := rfl
  rw [atStart] at nestedAdmits nestedRun
  have oneDeeper : inner.nested.pieces = inner.pieces.map (Piece.sunk 1) := rfl
  have closes : ((LineState.start.run inner.pieces).sunk 1).Admits indent
      ⟨0, .text "\x7d"⟩ := by
    intro waiting waits _
    obtain ⟨depth, known, rfl⟩ := Option.map_eq_some_iff.mp waits
    rcases settled with narrow | nothing
    · rw [innerMargin depth known]
      change indent * 1 ≤ indent * 0 + 1
      omega
    · rw [nothing] at known
      cases known
  have headSucceeds : (Fragment.text opening ++ Fragment.finish ++ nested inner).failure =
      none := by
    simpa using succeeds
  rw [pieces_append headSucceeds, pieces_append rfl, LineState.admitsAll_append,
    LineState.admitsAll_append, LineState.run_append, LineState.run_append, opened,
    oneDeeper, nestedRun]
  refine ⟨⟨⟨(onHead state atMargin).1, nestedAdmits⟩, closes, trivial⟩, ?_⟩
  rintro _ ⟨⟩

theorem braces {statements : List Fragment}
    (succeed : ∀ statement ∈ statements, statement.failure = none)
    (onStatements : ∀ statement ∈ statements, statement.Steady indent)
    (settled : indent ≤ 1 ∨
      (LineState.start.run (Fragment.lines statements).pieces).waiting = none) :
    (Fragment.braces statements).Steady indent := by
  apply enclosed (by decide) _ (compositional.lines onStatements) settled
  simpa [List.findSome?_eq_none_iff] using succeed

theorem mavenRepository (language : Language) (url : String) :
    (language.mavenRepository url).Steady indent := by
  cases language with
  | kotlin => exact text _
  | groovy =>
      have something : "url " ++ Language.groovy.stringLiteral url ≠ "" := by simp
      apply enclosed (by decide) rfl ((text _).append finish)
      right
      rw [run_text_finish something]
      rfl

/-- Behind the lines of the imports nothing waits that the blank line could miss. -/
theorem importLines (path : String) (others : List String) {state : LineState}
    (atMargin : state.AtMargin) :
    let pieces := (sequence ((path :: others).map fun path =>
      Fragment.line ("import " ++ path))).pieces
    state.AdmitsAll indent pieces ∧ state.run pieces = .start := by
  induction others generalizing path state with
  | nil =>
      have something : "import " ++ path ≠ "" := by simp
      exact ⟨((line something).append empty state atMargin).1, rfl⟩
  | cons second rest ih =>
      have something : "import " ++ path ≠ "" := by simp
      have onLine : (Fragment.line ("import " ++ path)).Steady indent := line something
      obtain ⟨⟨admits, _⟩, behind⟩ := onLine state atMargin
      obtain ⟨others, ended⟩ := ih second behind
      exact ⟨⟨admits, others⟩, ended⟩

theorem script (imports : List String) {statements : List Fragment}
    (onStatements : ∀ statement ∈ statements, statement.Steady indent) :
    (Fragment.script imports statements).Steady indent := by
  have body := compositional.lines onStatements
  cases imports with
  | nil => exact (empty.append empty).append body
  | cons path others =>
      apply append _ body
      intro state atMargin
      obtain ⟨admits, ended⟩ := @importLines indent path others state atMargin
      have succeeds : (sequence ((path :: others).map fun path =>
          Fragment.line ("import " ++ path))).failure = none := by
        simp [List.findSome?_eq_none_iff]
      rw [pieces_append succeeds, LineState.admitsAll_append, LineState.run_append, ended]
      cases statements with
      | nil => exact ⟨⟨admits, trivial⟩, LineState.atMargin_start⟩
      | cons first rest =>
          refine ⟨⟨admits, ?_, trivial⟩, LineState.atMargin_start⟩
          rintro _ ⟨⟩

end Steady

end Fragment

namespace Generator

/-- Whether a mark in the block still waits for text when the block ends: behind the last
text of its statements a located node is written that puts nothing on the line. -/
def leavesWaiting (generator : Generator) (comments : Bool) : Node → Bool
  | .block body =>
      (LineState.start.run (Fragment.lines
        (body.statements.map (generator.fragment comments generator))).pieces).waiting.isSome
  | _ => false

/-- No mark in a block of the tree waits for text behind the end of the block. -/
def SettlesBlocks (generator : Generator) (comments : Bool) (node : Node) : Prop :=
  ∀ met ∈ node.walk, generator.leavesWaiting comments met = false

instance (generator : Generator) (comments : Bool) (node : Node) :
    Decidable (generator.SettlesBlocks comments node) :=
  inferInstanceAs (Decidable (∀ met ∈ node.walk, generator.leavesWaiting comments met = false))

theorem SettlesBlocks.child {generator : Generator} {comments : Bool} {node child : Node}
    (settles : generator.SettlesBlocks comments node) (isChild : child ∈ node.children) :
    generator.SettlesBlocks comments child :=
  fun met onWalk => settles met (Node.mem_walk_of_mem_children isChild onWalk)

theorem steady_fragment {generator : Generator} {comments : Bool} {node : Node}
    (renderable : generator.CanRender node) {indent : Nat}
    (settled : indent ≤ 1 ∨ generator.SettlesBlocks comments node) :
    (generator.fragment comments generator node).Steady indent := by
  induction node using Node.descend with
  | step node ih =>
      have below : ∀ child ∈ node.children,
          (generator.fragment comments generator child).Steady indent :=
        fun child isChild => ih child isChild ((canRender_iff.mp renderable).2 child isChild)
          (settled.imp_right fun settles => settles.child isChild)
      apply Fragment.Steady.compositional.node below
      · rintro body rfl
        have succeed := fun statement isStatement =>
          ((canRender_iff.mp renderable).2 statement isStatement).succeeds comments
        apply Fragment.Steady.braces (List.forall_mem_map.mpr succeed)
          (List.forall_mem_map.mpr below)
        refine settled.imp_right fun settles => ?_
        have onBlock := settles (.block body) (Node.mem_walk_self _)
        rw [leavesWaiting, Option.isSome_eq_false_iff, Option.isNone_iff_eq_none] at onBlock
        exact onBlock
      · rintro info imports statements rfl
        exact .script imports (List.forall_mem_map.mpr below)
      · intro language url
        exact .mavenRepository language url

/-- The lines of a source map never decrease and are lines of the text. If the indent has at
most one character, or no mark waits for text behind the end of a block, then the places are
in the order of reading, and each of them lies in the text. -/
theorem marks_index_text {generator : Generator} {node : Node} {options : LayoutOptions}
    (renderable : generator.CanRender node) (names : node.HasInlineNames)
    (regular : options.Regular) :
    ∃ rendering, generator.generate node options = .ok rendering ∧
      rendering.marks.Pairwise (fun first second => first.line ≤ second.line) ∧
      (∀ mark ∈ rendering.marks,
        1 ≤ mark.line ∧ mark.line ≤ (TextPlace.behind rendering.text).line) ∧
      (options.indent.length ≤ 1 ∨ generator.SettlesBlocks options.comments node →
        rendering.marks.Pairwise (fun first second => first.place ≤ second.place) ∧
          ∀ mark ∈ rendering.marks,
            mark.place.LiesIn options.lineEnding rendering.text) := by
  have succeeds := renderable.succeeds options.comments
  have inline := generator.inline_fragment options.comments names
  let written := (Buffer.empty options).writeFragment
    (generator.fragment options.comments generator node)
  have ordered : written.endLine.InLineOrder :=
    ((Buffer.InLineOrder.empty options).writeFragment _).endLine
  have counts : written.endLine.Counts := by
    apply ((Buffer.counts_empty options).writeFragment regular inline).endLine
    rw [Buffer.options_writeFragment]
    exact regular
  refine ⟨_, by rw [generate, Fragment.render, succeeds], ordered.sorted, ?_, ?_⟩
  · intro mark member
    change _ ∧ mark.line ≤ (TextPlace.behind written.endLine.text).line
    rw [counts.place]
    exact ordered.passed mark member
  · intro settled
    have steady := steady_fragment renderable settled
    obtain ⟨admits, atMargin⟩ := steady .start LineState.atMargin_start
    exact Fragment.indexes_writeFragment regular inline admits atMargin

/-- The marks of a left-out comment and of an empty script wait for the statement behind
them. The comment at the end of the block has no location. -/
theorem marks_index_text_of_leftOut_comment :
    let node : Node := .block (.of [
      .comment ⟨.statement, some ⟨"s", 1, 1⟩, .empty⟩ "left out",
      .script ⟨.block, some ⟨"s", 2, 1⟩, .empty⟩ [] [],
      .literal ⟨.literal, some ⟨"s", 3, 1⟩, .empty⟩ (.string "a"),
      .ofComment "left out"])
    let options : LayoutOptions :=
      { lineEnding := "\r\n", comments := false, sourceMap := true }
    (standard .kotlin).CanRender node ∧ node.HasInlineNames ∧ options.Regular ∧
      (standard .kotlin).SettlesBlocks options.comments node ∧
      ∃ rendering, (standard .kotlin).generate node options = .ok rendering ∧
        rendering.text = "\x7b\r\n    \"a\"\r\n\x7d\r\n" ∧
        rendering.marks.map (·.place) = [⟨2, 5⟩, ⟨2, 5⟩, ⟨2, 5⟩] ∧
        rendering.marks.Pairwise (fun first second => first.place ≤ second.place) ∧
        ∀ mark ∈ rendering.marks, mark.place.LiesIn "\r\n" rendering.text := by
  intro node options
  have renderable : (standard .kotlin).CanRender node := by decide
  have names : node.HasInlineNames := by decide
  have regular : options.Regular := ⟨.inr rfl, by decide⟩
  have settles : (standard .kotlin).SettlesBlocks options.comments node := by decide
  obtain ⟨rendering, succeeds, _, _, indexed⟩ := marks_index_text renderable names regular
  obtain ⟨sorted, lies⟩ := indexed (.inr settles)
  have written : (standard .kotlin).generate node options =
      .ok ⟨"\x7b\r\n    \"a\"\r\n\x7d\r\n",
        [⟨2, 5, ⟨"s", 1, 1⟩⟩, ⟨2, 5, ⟨"s", 2, 1⟩⟩, ⟨2, 5, ⟨"s", 3, 1⟩⟩]⟩ := by decide
  cases written.symm.trans succeeds
  exact ⟨renderable, names, regular, settles, _, succeeds, rfl, rfl, sorted, lies⟩

/-- The mark of a left-out comment at the end of a block shows a column that the line of the
closing brace does not have. -/
theorem mark_outside_text :
    let node : Node := .block (.of [
      .comment ⟨.statement, some ⟨"s", 1, 1⟩, .empty⟩ "c"])
    let options : LayoutOptions := { comments := false, sourceMap := true }
    (Generator.language .kotlin).generate node options =
        .ok ⟨"\x7b\n\x7d\n", [⟨2, 5, ⟨"s", 1, 1⟩⟩]⟩ ∧
      ¬ TextPlace.LiesIn "\n" ⟨2, 5⟩ "\x7b\n\x7d\n" := by
  refine ⟨by decide, ?_⟩
  rintro ⟨above, line, below, split, _, start, ⟨_, reached⟩, _⟩
  -- The line would have at least four characters, as many as the whole text.
  have whole : (above ++ line ++ below).length = 4 := by
    rw [← split]
    rfl
  rw [String.length_append, String.length_append] at whole
  have nothing : above = "" := by
    rw [← String.length_eq_zero_iff]
    dsimp only at reached
    omega
  subst nothing
  cases start

/-- The comment in the block shows a later column of the line than the value behind the
block. -/
example :
    (Generator.standard .kotlin).generate
        (.invoke "f" [
          .block (.of [.comment ⟨.statement, some ⟨"s", 1, 1⟩, .empty⟩ "c"]),
          .literal ⟨.literal, some ⟨"s", 2, 1⟩, .empty⟩ (.string "a")])
        { comments := false, sourceMap := true } =
      .ok ⟨"f(\x7b\n\x7d, \"a\")\n", [⟨2, 5, ⟨"s", 1, 1⟩⟩, ⟨2, 4, ⟨"s", 2, 1⟩⟩]⟩ := by
  decide

end Generator

namespace LineState

/-- Only a mark makes a line wait. -/
theorem waiting_run_of_silent {state : LineState} (settled : state.waiting = none)
    {pieces : List Piece} (silent : recordedBy pieces = []) :
    (state.run pieces).waiting = none := by
  induction pieces generalizing state with
  | nil => exact settled
  | cons piece rest ih =>
      obtain ⟨depth, stroke⟩ := piece
      cases stroke with
      | text written =>
          apply ih _ silent
          by_cases nothing : written = "" <;> simp [step, nothing, settled]
      | line written => exact ih rfl silent
      | finish =>
          apply ih _ silent
          cases starts : state.fresh <;> simp [step, starts, settled, start]
      | mark location => cases silent

/-- Behind the first text it does not matter which mark waited for it. -/
theorem run_of_ink {pieces : List Piece}
    (something : String.join (pieces.map (·.stroke.written)) ≠ "") (fresh : Bool)
    (first second : Option Nat) :
    LineState.run ⟨fresh, first⟩ pieces = LineState.run ⟨fresh, second⟩ pieces := by
  induction pieces generalizing fresh first second with
  | nil => exact (something rfl).elim
  | cons piece rest ih =>
      obtain ⟨depth, stroke⟩ := piece
      have later (blank : stroke.written = "") :
          String.join (rest.map (·.stroke.written)) ≠ "" := by
        simpa [blank] using something
      change (step ⟨fresh, first⟩ ⟨depth, stroke⟩).run rest =
        (step ⟨fresh, second⟩ ⟨depth, stroke⟩).run rest
      cases stroke with
      | text written =>
          by_cases nothing : written = ""
          · simpa [step, nothing] using ih (later nothing) fresh first second
          · simp [step, nothing]
      | line written => rfl
      | finish =>
          cases fresh with
          | true => exact ih (later rfl) true first second
          | false => rfl
      | mark location =>
          cases fresh with
          | true => rfl
          | false => exact ih (later rfl) false first second

end LineState

namespace Fragment

/-- The fragment leaves no mark waiting. -/
def Quiet (fragment : Fragment) : Prop :=
  ∀ state : LineState, state.waiting = none → (state.run fragment.pieces).waiting = none

theorem waiting_run_of_assembled {parts : List Fragment} {pieces : List Piece}
    (assembled : Assembled parts pieces) (quiet : ∀ part ∈ parts, part.Quiet)
    {state : LineState} (settled : state.waiting = none) :
    (state.run pieces).waiting = none := by
  induction assembled generalizing state with
  | rest silent => exact LineState.waiting_run_of_silent settled silent
  | @part before levels part parts behind silent others ih =>
      rw [List.forall_mem_cons] at quiet
      rw [LineState.run_append, LineState.run_append]
      apply ih quiet.2
      have reached := LineState.waiting_run_of_silent settled silent
      have unsunk : (state.run before).sunk levels = state.run before := by
        rw [LineState.sunk, reached, Option.map_none, ← reached]
      rw [← unsunk, LineState.run_sunk, LineState.sunk, quiet.1 _ reached]
      rfl

end Fragment

namespace Generator

/-- If every node with a location writes something, no mark is left waiting. -/
theorem quiet_fragment {generator : Generator} {comments : Bool} {node : Node}
    (renderable : generator.CanRender node)
    (inked : ∀ part ∈ node.walk, part.info.location ≠ none →
      generator.content comments part ≠ "") :
    (generator.fragment comments generator node).Quiet := by
  induction node using Node.descend with
  | step node ih =>
      obtain ⟨body, written, assembles⟩ := generator.assembles_fragment comments node
      have succeeds := renderable.succeeds comments
      rw [written, Fragment.failure_append, Fragment.failure_mark,
        Option.none_or] at succeeds
      have onBody : body.Quiet := by
        intro state settled
        apply Fragment.waiting_run_of_assembled (assembles succeeds) _ settled
        rw [List.forall_mem_map]
        intro child isWritten
        have isChild := mem_children_of_mem_writtenChildren isWritten
        exact ih child isChild ((canRender_iff.mp renderable).2 child isChild)
          fun part onWalk => inked part (Node.mem_walk_of_mem_children isChild onWalk)
      intro state settled
      rw [written, Fragment.pieces_append rfl, LineState.run_append]
      cases located : node.info.location with
      | none => exact onBody state settled
      | some location =>
          have something := inked node node.mem_walk_self (by simp [located])
          rw [content_eq_ink] at something
          dsimp only at something
          have unmarked : (Fragment.mark (some location)).ink = "" := rfl
          rw [written, Fragment.ink_append rfl, located, unmarked, String.empty_append]
            at something
          change ((if state.fresh then ⟨true, some 0⟩ else state).run body.pieces).waiting =
            none
          split
          · rw [LineState.run_of_ink something true (some 0) none]
            exact onBody _ rfl
          · exact onBody state settled

/-- Nothing waits behind the end of a block if every node with a location writes something. -/
theorem settlesBlocks_of_content {generator : Generator} {comments : Bool} {node : Node}
    (renderable : generator.CanRender node)
    (inked : ∀ part ∈ node.walk, part.info.location ≠ none →
      generator.content comments part ≠ "") :
    generator.SettlesBlocks comments node := by
  intro met isMet
  cases met with
  | block body =>
      have parts := (canRender_iff.mp (renderable.part isMet)).2
      have quiet : ∀ statement ∈ body.statements,
          (generator.fragment comments generator statement).Quiet := by
        intro statement isStatement
        apply quiet_fragment (parts statement isStatement)
        intro part onWalk
        exact inked part (Node.mem_walk_trans isMet
          (Node.mem_walk_of_mem_children isStatement onWalk))
      have succeed : (Fragment.lines
          (body.statements.map (generator.fragment comments generator))).failure = none := by
        rw [Fragment.failure_lines, List.findSome?_eq_none_iff, List.forall_mem_map]
        intro statement isStatement
        exact (parts statement isStatement).succeeds comments
      rw [leavesWaiting, Option.isSome_eq_false_iff, Option.isNone_iff_eq_none]
      exact Fragment.waiting_run_of_assembled (Fragment.Assembles.lines _ succeed)
        (List.forall_mem_map.mpr quiet) rfl
  | _ => rfl

end Generator

end BuildScribe
