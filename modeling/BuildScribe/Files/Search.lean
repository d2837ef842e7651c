import BuildScribe.Files.Pattern
import BuildScribe.Files.Store

/-!
# Searching for files

A pattern with slashes is matched step by step. The matches come in the order of a
walk that takes the names of every directory in ascending order. Names spelled out in
the pattern are looked up without reading the directory, and `.` and `..` are matched
only by patterns that start with a point.
-/

namespace BuildScribe

/-- What is searched for: the steps of a pattern. -/
structure FileSearch where
  store : FileStore
  directoriesOnly : Bool

namespace FileSearch

/-- The path of an entry of a directory. Paths in the working directory are plain
names. -/
def entryPath (directory name : String) : String :=
  if directory == "." then name else joinPath directory name

def matched (search : FileSearch) (path : String) : List String :=
  if search.directoriesOnly && !search.store.isDirectory path then [] else [path]

/-- The special entries of a directory that a pattern may match. -/
def specialNames (pattern : Pattern) : List String :=
  if pattern.head? = some (.char '.') then
    ["..", "."].filter fun name => Pattern.accepts pattern name.toList
  else
    []

mutual

/-- The matches of the patterns inside a directory. -/
def below (search : FileSearch) :
    (steps : Nat) → List Pattern → (directory : String) → List String
  | 0, _, _ => []
  | _ + 1, [], _ => []
  | steps + 1, pattern :: rest, directory =>
      let isDirectory := search.store.isDirectory directory
      match pattern.literal? with
      | some name =>
          let name := String.ofList name
          let path := entryPath directory name
          let special := name == "." || name == ".."
          if special && isDirectory || !special && search.store.pathExists path then
            search.onward steps rest path
          else
            []
      | none =>
          if isDirectory then
            (specialNames pattern).flatMap
                (fun name => search.onward steps rest (joinPath directory name)) ++
              (search.store.children directory).flatMap fun name =>
                search.entry steps (pattern :: rest) (entryPath directory name) name
          else
            []

/-- The matches that go on from a path. -/
def onward (search : FileSearch) :
    (steps : Nat) → List Pattern → (path : String) → List String
  | 0, _, _ => []
  | _ + 1, [], path => search.matched path
  | steps + 1, pattern :: rest, path => search.below steps (pattern :: rest) path

/-- The matches at an entry of a directory and below it. -/
def entry (search : FileSearch) :
    (steps : Nat) → List Pattern → (path name : String) → List String
  | 0, _, _, _ => []
  | _ + 1, [], _, _ => []
  | steps + 1, pattern :: rest, path, name =>
      if pattern.spansDirectories then
        let after := rest.dropWhile Pattern.spansDirectories
        let isDirectory := search.store.isDirectory path
        (match after with
          | [] => if isDirectory then [path] else []
          | next :: others => search.named steps next others path name) ++
          (if isDirectory then search.below steps (pattern :: after) path else [])
      else
        search.named steps pattern rest path name

/-- The matches at an entry whose name has to match the first pattern. -/
def named (search : FileSearch) :
    (steps : Nat) → Pattern → List Pattern → (path name : String) → List String
  | 0, _, _, _, _ => []
  | steps + 1, pattern, rest, path, name =>
      if Pattern.accepts pattern name.toList then search.onward steps rest path else []

end

end FileSearch

namespace FileStore

/-- The steps of a pattern. A slash at its beginning or its end adds none. -/
def patternSteps (pattern : List Char) : List (List Char) :=
  let steps := (if pattern.head? = some '/' then pattern.drop 1 else pattern).splitOn '/'
  if steps.getLast? = some [] then steps.dropLast else steps

/-- The paths that match a pattern, in order. The pattern has to be well-formed as a
whole and in every step. -/
def search (store : FileStore) (pattern : String) :
    Except PatternFault (List String) := do
  let _ ← Pattern.ofChars pattern.toList
  let patterns ← (patternSteps pattern.toList).mapM Pattern.ofChars
  let depth := store.files.size + store.directories.length + patterns.length + 2
  let search : FileSearch := ⟨store, pattern.endsWith "/"⟩
  pure (search.below (4 * depth) patterns (if pattern.startsWith "/" then "/" else "."))

end FileStore

end BuildScribe
