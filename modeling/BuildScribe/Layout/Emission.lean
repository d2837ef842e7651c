import BuildScribe.Failure
import BuildScribe.Layout.Buffer

/-!
# Emissions

An emission changes a buffer step by step. It goes a level deeper and comes back by steps of
their own. It may halt at any step, and what it has done before stays done.
-/

namespace BuildScribe

/-- Why an emission halts. -/
inductive Halt where
  | failure (failure : Failure)
  /-- A step back from the outermost level. Nothing recovers from it. -/
  | unbalanced

abbrev Emission := EStateM Halt Buffer Unit

namespace Emission

def append (written : String) : Emission :=
  modify (·.append written)

def appendLine (written : String) : Emission :=
  modify (·.appendLine written)

def endLine : Emission :=
  modify (·.endLine)

def mark (location : Option SourceLocation) : Emission :=
  modify (·.mark location)

def indent : Emission :=
  modify (·.indent)

def dedent : Emission := do
  let buffer ← get
  if buffer.level = 0 then throw .unbalanced else set buffer.dedent

def fail (failure : Failure) : Emission :=
  throw (.failure failure)

def onlyIf (condition : Bool) (emission : Emission) : Emission :=
  if condition then emission else pure ()

/-- Emissions with another one between any two of them. -/
def between (gap : Emission) : List Emission → Emission
  | [] => pure ()
  | [only] => only
  | first :: second :: rest => do
      first
      gap
      between gap (second :: rest)

def separated (separator : String) (parts : List Emission) : Emission :=
  between (append separator) parts

/-- Emissions that each end the line they stop on. -/
def lines : List Emission → Emission
  | [] => pure ()
  | first :: rest => do
      first
      endLine
      lines rest

/-- One level deeper, for what fails on that level after stepping back or not at all. -/
def deeper (body : Emission) : Emission := do
  indent
  body
  dedent

/-- Steps back before a failure is passed on. -/
def dedentOnFailure (emission : Emission) : Emission :=
  tryCatch emission fun
    | .failure failure => do
        dedent
        fail failure
    | .unbalanced => throw .unbalanced

/-- Statements on lines of their own, one level deeper. If one of them fails, the level is
restored all the same. -/
def indented (statements : List Emission) : Emission :=
  deeper (lines (statements.map dedentOnFailure))

end Emission

end BuildScribe
