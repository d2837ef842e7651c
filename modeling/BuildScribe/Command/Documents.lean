import BuildScribe.Command.Invocation
import BuildScribe.Files.Search
import BuildScribe.Json.Equality
import BuildScribe.Query.Engine
import BuildScribe.Query.Pointer
import BuildScribe.Text.Blank

/-!
# Documents to render

All inputs are loaded before anything is rendered, so one bad input leaves nothing
done. A file yields one document, or several when it is read line by line or a filter
makes several out of one; those are numbered within their file. Filters are run by an
engine that comes with the run.
-/

namespace BuildScribe

inductive RunFault where
  | language (name : String)
  | unreadable (path : String) (fault : FileFault)
  | malformed (path : String) (cause : String)
  | nothingAtPointer (path pointer : String)
  | filter (path : String) (fault : FilterFault)
  | pattern (text : String) (fault : PatternFault)
  | noMatch (text : String)
  | noDirectory (path : String) (fault : FileFault)
  | unwritable (path : String) (fault : FileFault)
  /-- Some descriptions failed; all others were rendered. -/
  | failed (count total : Nat)
deriving DecidableEq

namespace RunFault

def message : RunFault → String
  | language name => "unsupported language: " ++ name
  | unreadable path fault => "failed to read " ++ path ++ ": " ++ fault.message
  | malformed path cause => "failed to parse JSON in " ++ path ++ ": " ++ cause
  | nothingAtPointer path pointer =>
      path ++ ": nothing at JSON pointer " ++ pointer
  | filter path fault =>
      "failed to apply jq expression to " ++ path ++ ": " ++ fault.message
  | pattern text fault => "bad glob pattern: " ++ text ++ ": " ++ fault.message
  | noMatch text => "glob pattern matched no files: " ++ text
  | noDirectory path fault => "failed to create " ++ path ++ ": " ++ fault.message
  | unwritable path fault => "failed to write " ++ path ++ ": " ++ fault.message
  | failed count total =>
      toString count ++ " of " ++ toString total ++ " build descriptions failed"

end RunFault

structure Document where
  origin : String
  /-- The number within its file, if that yields several. -/
  index : Option Nat
  value : Json
deriving DecidableEq

namespace Document

def label (document : Document) : String :=
  match document.index with
  | some index => document.origin ++ "#" ++ toString index
  | none => document.origin

/-- A file name without its last extension. A point at the beginning starts none. -/
def stemOf (name : List Char) : List Char :=
  let before := (name.reverse.dropWhile (· != '.')).drop 1
  if before.isEmpty then name else before.reverse

def stem (document : Document) : String :=
  match (FileStore.plainSteps document.origin).getLast? with
  | none => "build"
  | some name => String.ofList (stemOf name.toList)

def outputName (document : Document) (extension : String) : String :=
  let number :=
    match document.index with
    | some index => "-" ++ toString index
    | none => ""
  document.stem ++ number ++ "." ++ extension

/-- Numbers the descriptions of a file if there are several. -/
def ofValues (origin : String) (values : List Json) : List Document :=
  if values.length ≤ 1 then
    values.map fun value => ⟨origin, none, value⟩
  else
    values.zipIdx.map fun (value, index) => ⟨origin, some index, value⟩

end Document

/-- The lines of a text. A line ends at a line feed or at a carriage return with a line
feed; the last one may have no end. -/
def sourceLines (text : String) : List String :=
  let pieces := text.toList.splitOn '\n'
  let ended := pieces.dropLast.map fun line =>
    if line.getLast? = some '\r' then line.dropLast else line
  let last := (pieces.getLast?.filter fun line => !line.isEmpty).toList
  (ended ++ last).map String.ofList

namespace InputSettings

/-- The texts of the documents in a file. Lines of blanks hold none. -/
def split (settings : InputSettings) (text : String) : List String :=
  if settings.linewise then
    (sourceLines text).filter fun line => !line.toList.all isBlank
  else
    [text]

def select (settings : InputSettings) (engine : FilterEngine) (path : String)
    (document : Json) : Except RunFault (List Json) := do
  let value ←
    match settings.pointer with
    | none => pure document
    | some pointer =>
        match document.pointed? pointer with
        | some value => pure value
        | none => .error (.nothingAtPointer path pointer)
  match settings.filter with
  | none => pure [value]
  | some source => (engine.documents source value).mapError (.filter path)

def readDocument (settings : InputSettings) (engine : FilterEngine) (path text : String) :
    Except RunFault (List Json) := do
  let document ←
    (Json.parse text).mapError fun fault =>
      .malformed path (fault.causeText text.toList)
  settings.select engine path document

def loadFile (settings : InputSettings) (engine : FilterEngine) (store : FileStore)
    (path : String) : Except RunFault (List Document) := do
  let text ← (store.read path).mapError (.unreadable path)
  let values ← (settings.split text).mapM (settings.readDocument engine path)
  pure (Document.ofValues path values.flatten)

def pathsOf (store : FileStore) (input : String) : Except RunFault (List String) :=
  if input.toList.any Pattern.isWildcard then do
    let found ← (store.search input).mapError (.pattern input)
    if found.isEmpty then .error (.noMatch input) else pure found
  else
    .ok [input]

def load (settings : InputSettings) (engine : FilterEngine) (store : FileStore) :
    Except RunFault (List Document) := do
  let paths ← settings.inputs.mapM (pathsOf store)
  let documents ← paths.flatten.mapM (settings.loadFile engine store)
  pure documents.flatten

end InputSettings

end BuildScribe
