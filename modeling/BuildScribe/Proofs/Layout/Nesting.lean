import BuildScribe.Proofs.Layout.Lines
import BuildScribe.Proofs.Rendering.Composition

/-!
# Nested lines

Strokes only look at the current line, so what stands above it makes no difference,
and strokes at a deeper level make the same lines deeper. A fragment that starts on
a fresh line therefore adds its own lines at the level it is written at.
-/

namespace BuildScribe

def Line.deeper (count : Nat) (line : Line) : Line :=
  { line with depth := line.depth + count }

@[simp] theorem Line.deeper_zero : Line.deeper 0 = id := rfl

theorem Line.deeper_comp_deeper (first second : Nat) :
    Line.deeper second ∘ Line.deeper first = Line.deeper (first + second) := by
  funext line
  simp [Line.deeper, Nat.add_assoc]

namespace Page

/-- The page with other lines above it. -/
def behind (above : List Line) (page : Page) : Page :=
  { page with closed := above ++ page.closed }

/-- The page with all lines a number of levels deeper. -/
def deeper (count : Nat) (page : Page) : Page :=
  ⟨page.closed.map (Line.deeper count), page.current.map (Line.deeper count)⟩

def ofLines (lines : List Line) : Page := ⟨lines, none⟩

theorem put_behind (above : List Line) (page : Page) (depth : Nat)
    (written : String) :
    (page.behind above).put depth written = (page.put depth written).behind above := by
  unfold put
  cases written.isEmpty <;> cases current : page.current <;> simp [behind, current]

theorem close_behind (above : List Line) (page : Page) (depth : Nat) :
    (page.behind above).close depth = (page.close depth).behind above := by
  simp [close, behind]

theorem settle_behind (above : List Line) (page : Page) :
    (page.behind above).settle = page.settle.behind above := by
  unfold settle
  cases current : page.current <;> simp [behind, current]

theorem apply_behind (above : List Line) (page : Page) (depth : Nat)
    (stroke : Stroke) :
    (page.behind above).apply depth stroke =
      (page.apply depth stroke).behind above := by
  cases stroke with
  | text written => exact put_behind above page depth written
  | line written => simp only [apply, put_behind, close_behind]
  | finish => exact settle_behind above page
  | mark location => rfl

/-- Lines above a page stay above it. -/
theorem writeAll_behind (above : List Line) (page : Page) (level : Nat)
    (pieces : List Piece) :
    (page.behind above).writeAll level pieces =
      (page.writeAll level pieces).behind above :=
  List.foldl_hom (behind above) fun page piece =>
    apply_behind above page (level + piece.depth) piece.stroke

theorem put_deeper (count : Nat) (page : Page) (depth : Nat) (written : String) :
    (page.deeper count).put (depth + count) written =
      (page.put depth written).deeper count := by
  unfold put
  cases written.isEmpty <;> cases current : page.current <;>
    simp [deeper, current, Line.deeper]

theorem close_deeper (count : Nat) (page : Page) (depth : Nat) :
    (page.deeper count).close (depth + count) = (page.close depth).deeper count := by
  unfold close
  cases current : page.current <;> simp [deeper, current, Line.deeper]

theorem settle_deeper (count : Nat) (page : Page) :
    (page.deeper count).settle = page.settle.deeper count := by
  unfold settle
  cases current : page.current <;> simp [deeper, current]

theorem apply_deeper (count : Nat) (page : Page) (depth : Nat) (stroke : Stroke) :
    (page.deeper count).apply (depth + count) stroke =
      (page.apply depth stroke).deeper count := by
  cases stroke with
  | text written => exact put_deeper count page depth written
  | line written => simp only [apply, put_deeper, close_deeper]
  | finish => exact settle_deeper count page
  | mark location => rfl

/-- The same pieces at a deeper level make the same lines deeper. -/
theorem writeAll_deeper (count : Nat) (page : Page) (level : Nat)
    (pieces : List Piece) :
    (page.deeper count).writeAll (level + count) pieces =
      (page.writeAll level pieces).deeper count := by
  apply List.foldl_hom (deeper count)
  intro page piece
  rw [write, write, Nat.add_right_comm]
  exact apply_deeper count page (level + piece.depth) piece.stroke

theorem writeAll_append (page : Page) (level : Nat) (first second : List Piece) :
    page.writeAll level (first ++ second) =
      (page.writeAll level first).writeAll level second :=
  List.foldl_append

theorem writeAll_nested (page : Page) (level : Nat) (fragment : Fragment) :
    page.writeAll level fragment.nested.pieces =
      page.writeAll (level + 1) fragment.pieces := by
  have samePiece (page : Page) (piece : Piece) :
      page.write level piece.deeper = page.write (level + 1) piece := by
    rw [write, write, Piece.deeper, Nat.add_right_comm, Nat.add_assoc level]
  simp only [writeAll, Fragment.pieces_nested, List.foldl_map, samePiece]

@[simp] theorem writeAll_mark (page : Page) (level : Nat)
    (location : Option SourceLocation) :
    page.writeAll level (Fragment.mark location).pieces = page := by
  cases location <;> rfl

/-- On a fresh line a fragment adds its own lines. -/
theorem settle_writeAll_ofLines (above : List Line) (level : Nat)
    (fragment : Fragment) :
    ((ofLines above).writeAll level fragment.pieces).settle =
      ofLines (above ++ fragment.layout.map (Line.deeper level)) := by
  have start : ofLines above = (blank.deeper level).behind above := by
    simp [ofLines, behind, deeper, blank]
  have shifted := writeAll_deeper level blank 0 fragment.pieces
  rw [Nat.zero_add] at shifted
  rw [start, writeAll_behind, settle_behind, shifted, settle_deeper]
  simp [behind, deeper, ofLines, Fragment.layout]

@[simp] theorem writeAll_finish (page : Page) (level : Nat) :
    page.writeAll level Fragment.finish.pieces = page.settle := rfl

/-- Statements that each end their line add their lines one after the other. -/
theorem writeAll_lines (above : List Line) (level : Nat)
    (fragments : List Fragment)
    (succeed : ∀ fragment ∈ fragments, fragment.failure = none) :
    (ofLines above).writeAll level (Fragment.lines fragments).pieces =
      ofLines (above ++
        (fragments.flatMap Fragment.layout).map (Line.deeper level)) := by
  induction fragments generalizing above with
  | nil => simp [Fragment.lines, Fragment.empty, writeAll]
  | cons first rest ih =>
      have firstSucceeds := succeed first List.mem_cons_self
      have endedSucceeds : (first ++ Fragment.finish).failure = none := by
        simp [firstSucceeds]
      have restAdds := ih (above ++ first.layout.map (Line.deeper level))
        fun fragment member => succeed fragment (List.mem_cons_of_mem first member)
      rw [Fragment.lines, Fragment.pieces_append endedSucceeds,
        Fragment.pieces_append firstSucceeds, writeAll_append, writeAll_append,
        writeAll_finish, settle_writeAll_ofLines, restAdds]
      simp [List.append_assoc]

theorem writeAll_line (above : List Line) (level : Nat) (content : String) :
    (ofLines above).writeAll level (Fragment.line content).pieces =
      ofLines (above ++ [⟨level, content⟩]) := by
  have single : (ofLines above).writeAll level (Fragment.line content).pieces =
      ((ofLines above).put level content).close level := rfl
  rw [single, put]
  cases nothing : content.isEmpty with
  | true =>
      have equality : content = "" := String.isEmpty_iff.mp nothing
      simp [close, ofLines, equality]
  | false => simp [close, ofLines]

theorem writeAll_sequence_line {α : Type} (content : α → String)
    (above : List Line) (level : Nat) (items : List α) :
    (ofLines above).writeAll level
        (Fragment.sequence
          (items.map fun item => Fragment.line (content item))).pieces =
      ofLines (above ++ items.map fun item => ⟨level, content item⟩) := by
  induction items generalizing above with
  | nil => simp [Fragment.sequence, Fragment.empty, writeAll]
  | cons first rest ih =>
      rw [List.map_cons, Fragment.sequence, Fragment.pieces_append rfl,
        writeAll_append, writeAll_line, ih]
      simp

end Page

namespace Fragment

theorem layout_marked (location : Option SourceLocation) (fragment : Fragment) :
    (mark location ++ fragment).layout = fragment.layout := by
  rw [layout, pieces_append rfl, Page.writeAll_append, Page.writeAll_mark, layout]

/-- A block has its lines one level deeper, between the lines of the braces. -/
theorem layout_braces (statements : List Fragment)
    (succeed : ∀ statement ∈ statements, statement.failure = none) :
    (braces statements).layout =
      ⟨0, "\x7b"⟩ :: (statements.flatMap layout).map (Line.deeper 1) ++
        [⟨0, "\x7d"⟩] := by
  have bodySucceeds : (text "\x7b" ++ finish ++ nested (lines statements)).failure =
      none := by
    simpa [List.findSome?_eq_none_iff] using succeed
  have opened : (Page.blank.writeAll 0 (text "\x7b" ++ finish).pieces) =
      Page.ofLines [⟨0, "\x7b"⟩] := rfl
  rw [layout, braces, pieces_append bodySucceeds, pieces_append rfl,
    Page.writeAll_append, Page.writeAll_append, opened, Page.writeAll_nested,
    Page.writeAll_lines _ _ _ succeed]
  have closed (above : List Line) :
      ((Page.ofLines above).writeAll 0 (text "\x7d").pieces).settle =
        Page.ofLines (above ++ [⟨0, "\x7d"⟩]) := rfl
  rw [closed]
  rfl

/-- A script has one line for every import, a blank line if it has both imports
and statements, and then the lines of its statements. -/
theorem layout_script (imports : List String) (statements : List Fragment)
    (succeed : ∀ statement ∈ statements, statement.failure = none) :
    (script imports statements).layout =
      imports.map (fun path => ⟨0, "import " ++ path⟩) ++
        (if imports.isEmpty || statements.isEmpty then [] else [⟨0, ""⟩]) ++
        statements.flatMap layout := by
  let gap : Fragment :=
    if imports.isEmpty || statements.isEmpty then empty else line ""
  have gapSucceeds : gap.failure = none := by
    simp only [gap]
    split <;> rfl
  have gapAdds (above : List Line) :
      (Page.ofLines above).writeAll 0 gap.pieces =
        Page.ofLines (above ++
          if imports.isEmpty || statements.isEmpty then [] else [⟨0, ""⟩]) := by
    simp only [gap]
    split
    · simp [empty, Page.writeAll]
    · exact Page.writeAll_line above 0 ""
  have importsSucceed :
      (sequence (imports.map fun path => line ("import " ++ path))).failure =
        none := by
    simp [List.findSome?_eq_none_iff]
  have importsAdd :
      Page.blank.writeAll 0
          (sequence (imports.map fun path => line ("import " ++ path))).pieces =
        Page.ofLines (imports.map fun path => ⟨0, "import " ++ path⟩) :=
    Page.writeAll_sequence_line (fun path => "import " ++ path) [] 0 imports
  have headSucceeds :
      (sequence (imports.map fun path => line ("import " ++ path)) ++ gap).failure =
        none := by
    rw [failure_append, importsSucceed, gapSucceeds]
    rfl
  rw [layout, script, pieces_append headSucceeds, pieces_append importsSucceed,
    Page.writeAll_append, Page.writeAll_append, importsAdd, gapAdds,
    Page.writeAll_lines _ _ _ succeed]
  simp [Page.ofLines, Page.settle]

end Fragment

end BuildScribe
