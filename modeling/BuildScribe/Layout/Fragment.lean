import BuildScribe.Failure
import BuildScribe.Layout.Buffer

/-!
# Fragments

A fragment is what a part of a tree contributes to the output, whatever stands
before it: a sequence of pieces, each at a depth below the level at which the
fragment is written. A fragment may stop short of its end with a failure; what
came before the failure is still written, and nothing comes after it.
-/

namespace BuildScribe

inductive Stroke where
  /-- Puts text on the current line. -/
  | text (text : String)
  /-- Puts text on the current line and ends the line. -/
  | line (text : String)
  /-- Ends the current line unless it is fresh. -/
  | finish
  /-- Records where something from a location starts. -/
  | mark (location : SourceLocation)
deriving DecidableEq

structure Piece where
  depth : Nat
  stroke : Stroke
deriving DecidableEq

/-- The piece at the end of one nesting more. -/
def Piece.deeper (piece : Piece) : Piece :=
  { piece with depth := piece.depth + 1 }

/-- Pieces in order, and the failure that cuts them short. -/
structure Fragment where
  pieces : List Piece
  failure : Option Failure

namespace Fragment

def empty : Fragment :=
  ⟨[], none⟩

def ofStroke (stroke : Stroke) : Fragment :=
  ⟨[⟨0, stroke⟩], none⟩

def text (written : String) : Fragment :=
  ofStroke (.text written)

def line (written : String) : Fragment :=
  ofStroke (.line written)

def finish : Fragment :=
  ofStroke .finish

def mark (location : Option SourceLocation) : Fragment :=
  ⟨(location.map fun known => ⟨0, .mark known⟩).toList, none⟩

def fail (failure : Failure) : Fragment :=
  ⟨[], some failure⟩

/-- One fragment and then the other, which a failure of the first suppresses. -/
def andThen (first second : Fragment) : Fragment :=
  match first.failure with
  | some failure => ⟨first.pieces, some failure⟩
  | none => ⟨first.pieces ++ second.pieces, second.failure⟩

instance : Append Fragment := ⟨andThen⟩

def nested (fragment : Fragment) : Fragment :=
  ⟨fragment.pieces.map Piece.deeper, fragment.failure⟩

def sequence : List Fragment → Fragment
  | [] => empty
  | first :: rest => first ++ sequence rest

def separated (separator : String) : List Fragment → Fragment
  | [] => empty
  | [only] => only
  | first :: second :: rest =>
      first ++ text separator ++ separated separator (second :: rest)

/-- Fragments that each end the line they stop on. -/
def lines : List Fragment → Fragment
  | [] => empty
  | first :: rest => first ++ finish ++ lines rest

end Fragment

namespace Buffer

def apply (buffer : Buffer) : Stroke → Buffer
  | .text written => buffer.append written
  | .line written => buffer.appendLine written
  | .finish => buffer.endLine
  | .mark location => buffer.mark location

/-- Writes a piece; the level of the buffer is the same afterwards. -/
def write (buffer : Buffer) (piece : Piece) : Buffer :=
  { { buffer with level := buffer.level + piece.depth }.apply piece.stroke with
    level := buffer.level }

def writeFragment (buffer : Buffer) (fragment : Fragment) : Buffer :=
  fragment.pieces.foldl write buffer

end Buffer

/-- The text of a whole fragment; a failing fragment has none. -/
def Fragment.render (fragment : Fragment) (options : LayoutOptions) :
    Except Failure Rendering :=
  match fragment.failure with
  | some failure => .error failure
  | none => .ok ((Buffer.empty options).writeFragment fragment).endLine.rendering

end BuildScribe
