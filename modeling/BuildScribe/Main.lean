import BuildScribe.Command.Run

/-!
# The program

What a command line may ask for is read from the disk into a store of files, the
command line is carried out on the store, and what it prints and writes is then printed
and written. Nothing is decided here.
-/

namespace BuildScribe

namespace FileStore

def absolutePath (place : Place) : String :=
  "/" ++ String.intercalate "/" place

/-- The store without files, in the working directory of the process. -/
def atWorkingDirectory : IO FileStore := do
  let path := toString (← IO.currentDir)
  pure (.empty (plainSteps path))

def contentOf (path : String) : IO FileContent := do
  try
    pure (.ok (← IO.FS.readFile path))
  catch
    | .permissionDenied .. => pure (.error .denied)
    | _ => pure (.error .notText)

def lookAt (store : FileStore) (place : Place) : IO FileStore := do
  let path := (← IO.currentDir) / absolutePath place
  if ← path.isDir then
    pure (store.addDirectory place)
  else if ← path.pathExists then
    pure (store.addContent place (← contentOf path.toString))
  else
    pure store

def lookAlong (store : FileStore) (path : String) : IO FileStore :=
  ((pathsAround path).reverse ++ [path]).foldlM
    (fun store path =>
      match store.resolve path with
      | .ok place => store.lookAt place
      | .error _ => pure store)
    store

/-- Adds the names of all files and directories below a place, down to a depth. -/
def explore (place : Place) : (depth : Nat) → FileStore → IO FileStore
  | 0, store => pure store
  | depth + 1, store => do
      let path := (← IO.currentDir) / absolutePath place
      if ← path.isDir then
        (← path.readDir).foldlM
          (fun store entry => do
            let inner := place ++ [entry.fileName]
            if ← entry.path.isDir then
              explore inner depth (store.addDirectory inner)
            else
              pure (store.addFile inner ""))
          store
      else
        pure store

/-- Adds what a pattern may match. Directories of any number are followed to a depth of
thirty-two. -/
def exploreFor (store : FileStore) (pattern : String) : IO FileStore := do
  let steps := patternSteps pattern.toList
  let isPlain := fun step => !step.any Pattern.isWildcard
  let literal :=
    String.intercalate "/" ((steps.takeWhile isPlain).map String.ofList)
  let base := (if pattern.startsWith "/" then "/" else "./") ++ literal
  let depth := if steps.contains ['*', '*'] then 32 else steps.length
  let found ← store.lookAlong base
  match found.resolve base with
  | .ok place => explore place depth found
  | .error _ => pure found

/-- Adds what the inputs and the output of a render command refer to. -/
def lookFor (store : FileStore) (settings : RenderSettings) : IO FileStore := do
  let patterns := settings.input.inputs.filter fun input =>
    input.toList.any Pattern.isWildcard
  let explored ← patterns.foldlM exploreFor store
  let paths := settings.input.inputs.map (InputSettings.pathsOf explored)
  let inputs := paths.flatMap fun found => found.toOption.getD []
  let loaded ← inputs.foldlM lookAlong explored
  settings.outDirectory.toList.foldlM lookAlong loaded

end FileStore

namespace Invocation

/-- The files that the command line is carried out on. -/
def surroundings (invocation : Invocation) : IO FileStore := do
  let store ← FileStore.atWorkingDirectory
  match invocation.task with
  | .languages => pure store
  | .render settings => store.lookFor settings

end Invocation

/-- Prints and writes what a run leaves behind. The answer is the exit code. -/
def RunResult.publish (result : RunResult) (before : FileStore) : IO UInt32 := do
  IO.print result.session.printed
  IO.eprint result.session.messages
  for (place, text) in result.session.store.changedSince before do
    IO.FS.createDirAll (FileStore.absolutePath place.dropLast)
    IO.FS.writeFile (FileStore.absolutePath place) text
  match result.fault with
  | none => pure 0
  | some fault => do
      IO.eprintln ("error: " ++ fault.message)
      pure 1

end BuildScribe

def main (words : List String) : IO UInt32 := do
  match BuildScribe.Invocation.ofWords words with
  | .error fault =>
      if fault.isAnswer then
        IO.println fault.message
        pure 0
      else
        IO.eprintln fault.message
        pure 2
  | .ok invocation =>
      let before ← invocation.surroundings
      (invocation.run { store := before }).publish before
