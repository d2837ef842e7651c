import BuildScribe.Layout.Fragment

/-!
# Lines of the output

A page holds what a buffer holds without its options: the terminated lines, each
with a depth and a content, and the line that text stands on. Every operation of a
buffer acts on its page, so the text of a fragment is spelled out from one list of
lines, whatever the indent and the line ending are.
-/

namespace BuildScribe

/-- A line without its indent and without its line ending. -/
structure Line where
  depth : Nat
  content : String
deriving DecidableEq

namespace Line

/-- The line behind its indent; a line without content has none. -/
def shown (options : LayoutOptions) (line : Line) : String :=
  if line.content.isEmpty then
    ""
  else
    String.ofList (Buffer.indentChars options line.depth) ++ line.content

def text (options : LayoutOptions) (line : Line) : String :=
  line.shown options ++ options.lineEnding

end Line

def linesText (options : LayoutOptions) (lines : List Line) : String :=
  String.join (lines.map (Line.text options))

@[simp] theorem linesText_nil (options : LayoutOptions) :
    linesText options [] = "" := by
  simp [linesText]

theorem linesText_append (options : LayoutOptions) (first second : List Line) :
    linesText options (first ++ second) =
      linesText options first ++ linesText options second := by
  simp [linesText]

theorem linesText_singleton (options : LayoutOptions) (line : Line) :
    linesText options [line] = line.shown options ++ options.lineEnding := by
  simp [linesText, Line.text]

/-- Terminated lines, and the line that is not terminated yet if anything stands
on it. -/
structure Page where
  closed : List Line
  current : Option Line

namespace Page

def blank : Page := ⟨[], none⟩

def currentText (page : Page) (options : LayoutOptions) : String :=
  match page.current with
  | none => ""
  | some line => line.shown options

def text (page : Page) (options : LayoutOptions) : String :=
  linesText options page.closed ++ page.currentText options

/-- Puts text on the current line. The depth counts only if the text is the first
on its line. -/
def put (page : Page) (depth : Nat) (written : String) : Page :=
  if written.isEmpty then
    page
  else
    match page.current with
    | none => { page with current := some ⟨depth, written⟩ }
    | some line =>
        { page with current := some { line with content := line.content ++ written } }

def close (page : Page) (depth : Nat) : Page :=
  ⟨page.closed ++ [page.current.getD ⟨depth, ""⟩], none⟩

/-- Terminates the current line unless nothing stands on it. -/
def settle (page : Page) : Page :=
  match page.current with
  | none => page
  | some line => ⟨page.closed ++ [line], none⟩

@[simp] theorem current_settle (page : Page) : page.settle.current = none := by
  unfold settle
  split
  · assumption
  · rfl

theorem text_settle (page : Page) (options : LayoutOptions) :
    page.settle.text options = linesText options page.settle.closed := by
  simp [text, currentText]

def apply (page : Page) (depth : Nat) : Stroke → Page
  | .text written => page.put depth written
  | .line written => (page.put depth written).close depth
  | .finish => page.settle
  | .mark _ => page

def write (level : Nat) (page : Page) (piece : Piece) : Page :=
  page.apply (level + piece.depth) piece.stroke

def writeAll (level : Nat) (page : Page) (pieces : List Piece) : Page :=
  pieces.foldl (write level) page

end Page

namespace Buffer

/-- A buffer shows a page when it holds the text of the page under its options,
and its counters are those of the page. -/
structure Shows (buffer : Buffer) (page : Page) : Prop where
  text : buffer.text = page.text buffer.options
  fresh : buffer.fresh = page.current.isNone
  line : buffer.line = page.closed.length + 1
  width : buffer.width = (page.currentText buffer.options).length
  /-- Only a line with something on it is current. -/
  inked : ∀ line, page.current = some line → line.content.isEmpty = false

theorem shows_empty (options : LayoutOptions) :
    (Buffer.empty options).Shows Page.blank := by
  constructor
  · simp [Buffer.empty, Page.text, Page.currentText, Page.blank]
  · rfl
  · rfl
  · rfl
  · intro line current
    simp [Page.blank] at current

theorem options_append (buffer : Buffer) (written : String) :
    (buffer.append written).options = buffer.options := by
  unfold append
  split
  · rfl
  · split <;> rfl

theorem level_append (buffer : Buffer) (written : String) :
    (buffer.append written).level = buffer.level := by
  unfold append
  split
  · rfl
  · split <;> rfl

theorem options_mark (buffer : Buffer) (location : Option SourceLocation) :
    (buffer.mark location).options = buffer.options := by
  unfold mark
  cases location with
  | none => rfl
  | some known => dsimp only; split <;> rfl

theorem options_endLine (buffer : Buffer) :
    buffer.endLine.options = buffer.options := by
  unfold endLine
  split <;> rfl

theorem options_write (buffer : Buffer) (piece : Piece) :
    (buffer.write piece).options = buffer.options := by
  unfold write
  cases piece.stroke with
  | text written => exact options_append _ written
  | line written => exact options_append _ written
  | finish => exact options_endLine _
  | mark location => exact options_mark _ location

theorem options_writeFragment (buffer : Buffer) (fragment : Fragment) :
    (buffer.writeFragment fragment).options = buffer.options := by
  unfold writeFragment
  induction fragment.pieces generalizing buffer with
  | nil => rfl
  | cons piece rest ih => exact (ih (buffer.write piece)).trans (options_write _ _)

namespace Shows

variable {buffer : Buffer} {page : Page}

private theorem append_of_fresh {written : String}
    (something : written.isEmpty = false) (shows : buffer.Shows page)
    (current : page.current = none) :
    (buffer.append written).Shows (page.put buffer.level written) := by
  have fresh : buffer.fresh = true := by simp [shows.fresh, current]
  have noWidth : buffer.width = 0 := by
    simp [shows.width, Page.currentText, current]
  have sameText : buffer.text = linesText buffer.options page.closed := by
    simp [shows.text, Page.text, Page.currentText, current]
  constructor
  · simp [Buffer.append, Page.put, something, fresh, current, Page.text,
      Page.currentText, Line.shown, sameText, currentIndent, String.append_assoc]
  · simp [Buffer.append, Page.put, something, fresh, current]
  · simp [Buffer.append, Page.put, something, fresh, current, shows.line]
  · simp [Buffer.append, Page.put, something, fresh, current, noWidth,
      Page.currentText, Line.shown, currentIndent]
  · intro line isCurrent
    have equality : line = ⟨buffer.level, written⟩ := by
      simpa [Page.put, something, current, eq_comm] using isCurrent
    subst equality
    exact something

private theorem append_of_current {written : String}
    (something : written.isEmpty = false) (shows : buffer.Shows page)
    {line : Line} (current : page.current = some line) :
    (buffer.append written).Shows (page.put buffer.level written) := by
  have notFresh : buffer.fresh = false := by simp [shows.fresh, current]
  have inked := shows.inked line current
  have grows : (line.content ++ written).isEmpty = false := by
    simp_all
  constructor
  · simp [Buffer.append, Page.put, something, notFresh, current, shows.text,
      Page.text, Page.currentText, Line.shown, inked, grows,
      String.append_assoc]
  · simp [Buffer.append, Page.put, something, notFresh, current]
  · simp [Buffer.append, Page.put, something, notFresh, current, shows.line]
  · simp [Buffer.append, Page.put, something, notFresh, current, shows.width,
      Page.currentText, Line.shown, inked, grows]
    omega
  · intro other isCurrent
    have equality : other = { line with content := line.content ++ written } := by
      simpa [Page.put, something, current, eq_comm] using isCurrent
    subst equality
    exact grows

theorem append (shows : buffer.Shows page) (written : String) :
    (buffer.append written).Shows (page.put buffer.level written) := by
  cases something : written.isEmpty with
  | true => simpa [Buffer.append, Page.put, something] using shows
  | false =>
      cases current : page.current with
      | none => exact append_of_fresh something shows current
      | some line => exact append_of_current something shows current

theorem breakLine (shows : buffer.Shows page) :
    buffer.breakLine.Shows (page.close buffer.level) := by
  have ended : buffer.text ++ buffer.options.lineEnding =
      linesText buffer.options (page.close buffer.level).closed := by
    rw [shows.text, Page.text, Page.close, linesText_append, linesText_singleton]
    cases current : page.current with
    | none => simp [Page.currentText, current, Line.shown]
    | some line => simp [Page.currentText, current, String.append_assoc]
  constructor
  · simp [Buffer.breakLine, Page.text, Page.currentText, Page.close, ended]
  · rfl
  · simp [Buffer.breakLine, Page.close, shows.line]
  · rfl
  · intro line isCurrent
    simp [Page.close] at isCurrent

theorem endLine (shows : buffer.Shows page) : buffer.endLine.Shows page.settle := by
  cases current : page.current with
  | none =>
      have fresh : buffer.fresh = true := by simp [shows.fresh, current]
      simpa [Buffer.endLine, fresh, Page.settle, current] using shows
  | some line =>
      have notFresh : buffer.fresh = false := by simp [shows.fresh, current]
      have broken := shows.breakLine
      simpa [Buffer.endLine, notFresh, Page.settle, Page.close, current] using
        broken

theorem mark (shows : buffer.Shows page) (location : Option SourceLocation) :
    (buffer.mark location).Shows page := by
  unfold Buffer.mark
  cases location with
  | none => exact shows
  | some known =>
      dsimp only
      split
      · exact ⟨shows.text, shows.fresh, shows.line, shows.width, shows.inked⟩
      · exact shows

/-- What a buffer shows does not depend on its level. -/
theorem atLevel (shows : buffer.Shows page) (level : Nat) :
    { buffer with level := level }.Shows page :=
  ⟨shows.text, shows.fresh, shows.line, shows.width, shows.inked⟩

theorem apply (shows : buffer.Shows page) (stroke : Stroke) :
    (buffer.apply stroke).Shows (page.apply buffer.level stroke) := by
  cases stroke with
  | text written => exact shows.append written
  | line written =>
      have appended := (shows.append written).breakLine
      rwa [level_append] at appended
  | finish => exact shows.endLine
  | mark location => exact shows.mark location

theorem write (shows : buffer.Shows page) (piece : Piece) :
    (buffer.write piece).Shows (page.write buffer.level piece) :=
  ((shows.atLevel (buffer.level + piece.depth)).apply piece.stroke).atLevel
    buffer.level

/-- A fragment is written on the page as into the buffer. -/
theorem writeFragment (shows : buffer.Shows page) (fragment : Fragment) :
    (buffer.writeFragment fragment).Shows
      (page.writeAll buffer.level fragment.pieces) := by
  unfold Buffer.writeFragment Page.writeAll
  induction fragment.pieces generalizing buffer page with
  | nil => exact shows
  | cons piece rest ih => exact ih (shows.write piece)

end Shows

end Buffer

namespace Fragment

/-- The lines of the text of a fragment. -/
def layout (fragment : Fragment) : List Line :=
  (Page.blank.writeAll 0 fragment.pieces).settle.closed

/-- A fragment without a failure is rendered, and its text is made of its lines. -/
theorem render_eq_linesText (fragment : Fragment) (options : LayoutOptions)
    (succeeds : fragment.failure = none) :
    ∃ rendering, fragment.render options = .ok rendering ∧
      rendering.text = linesText options fragment.layout := by
  have shows :=
    ((Buffer.shows_empty options).writeFragment fragment).endLine
  refine ⟨_, by rw [render, succeeds], ?_⟩
  rw [Buffer.rendering, shows.text, Buffer.options_endLine,
    Buffer.options_writeFragment, Page.text_settle]
  rfl

end Fragment

end BuildScribe
