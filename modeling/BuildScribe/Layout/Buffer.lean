import BuildScribe.Layout.Options
import BuildScribe.Tree.Node

/-!
# Output buffers

A buffer collects text line by line. A line is fresh until something is put on
it, and only then gets its indent, so that blank lines stay blank. The buffer
counts lines and the characters on the current line, by which it records where
located nodes start.
-/

namespace BuildScribe

/-- The place in the output at which a located node starts; lines and columns
count characters from one. -/
structure SourceMark where
  line : Nat
  column : Nat
  location : SourceLocation
deriving DecidableEq

structure Buffer where
  options : LayoutOptions
  text : String := ""
  level : Nat := 0
  /-- Whether nothing stands on the current line. -/
  fresh : Bool := true
  line : Nat := 1
  /-- The number of characters on the current line. -/
  width : Nat := 0
  marks : List SourceMark := []

namespace Buffer

def empty (options : LayoutOptions) : Buffer :=
  { options := options }

def indentChars (options : LayoutOptions) (level : Nat) : List Char :=
  (List.replicate level options.indent.toList).flatten

def currentIndent (buffer : Buffer) : String :=
  String.ofList (indentChars buffer.options buffer.level)

/-- Puts text on the current line, behind the indent if the line is fresh. -/
def append (buffer : Buffer) (text : String) : Buffer :=
  if text.isEmpty then
    buffer
  else if buffer.fresh then
    { buffer with
      text := buffer.text ++ buffer.currentIndent ++ text
      fresh := false
      width := buffer.width + buffer.currentIndent.length + text.length }
  else
    { buffer with
      text := buffer.text ++ text
      width := buffer.width + text.length }

def breakLine (buffer : Buffer) : Buffer :=
  { buffer with
    text := buffer.text ++ buffer.options.lineEnding
    fresh := true
    line := buffer.line + 1
    width := 0 }

def appendLine (buffer : Buffer) (text : String) : Buffer :=
  (buffer.append text).breakLine

/-- Ends the current line unless it is fresh. -/
def endLine (buffer : Buffer) : Buffer :=
  if buffer.fresh then buffer else buffer.breakLine

def indent (buffer : Buffer) : Buffer :=
  { buffer with level := buffer.level + 1 }

def dedent (buffer : Buffer) : Buffer :=
  { buffer with level := buffer.level - 1 }

/-- The column at which the next text will stand. -/
def nextColumn (buffer : Buffer) : Nat :=
  if buffer.fresh then buffer.currentIndent.length + 1 else buffer.width + 1

/-- Records that something from a location starts here, if places are recorded
at all. -/
def mark (buffer : Buffer) (location : Option SourceLocation) : Buffer :=
  match location with
  | some known =>
      if buffer.options.sourceMap then
        { buffer with
          marks := buffer.marks ++ [⟨buffer.line, buffer.nextColumn, known⟩] }
      else
        buffer
  | none => buffer

end Buffer

/-- A finished text with the places of the located nodes in it. -/
structure Rendering where
  text : String
  marks : List SourceMark
deriving DecidableEq

def Buffer.rendering (buffer : Buffer) : Rendering :=
  ⟨buffer.text, buffer.marks⟩

end BuildScribe
