import BuildScribe.OrderedMap

/-!
# Files

A store holds files and directories, and knows the directory that relative paths
start from. Paths are resolved step by step as they stand: every step but the last has
to lead to an existing directory, also where a later `..` leads back out of it. Not
every file can be read, but every file can be written.
-/

namespace BuildScribe

inductive FileFault where
  | notFound
  | occupied
  | notDirectory
  | isDirectory
  | denied
  /-- The bytes of the file are no text. -/
  | notText
deriving DecidableEq

namespace FileFault

def message : FileFault → String
  | notFound => "No such file or directory (os error 2)"
  | occupied => "File exists (os error 17)"
  | notDirectory => "Not a directory (os error 20)"
  | isDirectory => "Is a directory (os error 21)"
  | denied => "Permission denied (os error 13)"
  | notText => "stream did not contain valid UTF-8"

end FileFault

/-- A place, as the names that lead to it from the root. -/
abbrev Place := List String

/-- What reading a file comes to: its text, or a fault. -/
abbrev FileContent := Except FileFault String

structure FileStore where
  home : Place
  files : OrderedMap Place FileContent
  directories : List Place

namespace FileStore

/-- The places on the way to a place, the place itself included. -/
def placesTo (place : Place) : List Place :=
  (List.range place.length).map fun count => place.take (count + 1)

def empty (home : Place) : FileStore :=
  ⟨home, .empty, placesTo home⟩

/-- Whether a place is a directory; the root is one. -/
def hasDirectory (store : FileStore) (place : Place) : Bool :=
  place.isEmpty || store.directories.contains place

def hasFile (store : FileStore) (place : Place) : Bool :=
  store.files.contains place

/-- Goes on from a place along the steps of a path. -/
def walk (store : FileStore) : Place → List String → Except FileFault Place
  | place, [] => .ok place
  | place, step :: rest =>
      if store.hasFile place then .error .notDirectory
      else if !store.hasDirectory place then .error .notFound
      else if step == "" || step == "." then store.walk place rest
      else if step == ".." then store.walk place.dropLast rest
      else store.walk (place ++ [step]) rest

def pathSteps (path : String) : List String :=
  (path.toList.splitOn '/').map String.ofList

/-- The place that a path leads to; nothing needs to be there. -/
def resolve (store : FileStore) (path : String) : Except FileFault Place :=
  match path.toList with
  | [] => .error .notFound
  | '/' :: _ => store.walk [] (pathSteps path)
  | _ => store.walk store.home (pathSteps path)

def isDirectory (store : FileStore) (path : String) : Bool :=
  match store.resolve path with
  | .ok place => store.hasDirectory place
  | .error _ => false

def pathExists (store : FileStore) (path : String) : Bool :=
  match store.resolve path with
  | .ok place => store.hasDirectory place || store.hasFile place
  | .error _ => false

def read (store : FileStore) (path : String) : Except FileFault String := do
  let place ← store.resolve path
  match store.files.get? place with
  | some content => content
  | none => if store.hasDirectory place then .error .isDirectory else .error .notFound

def write (store : FileStore) (path text : String) : Except FileFault FileStore := do
  let place ← store.resolve path
  if store.hasDirectory place then .error .isDirectory
  else .ok { store with files := store.files.insert place (.ok text) }

def withoutSlashes (path : String) : String :=
  String.ofList (path.toList.reverse.dropWhile (· == '/')).reverse

/-- Adds a directory at a path whose other steps lead to a directory. -/
def makeDirectory (store : FileStore) (path : String) : Except FileFault FileStore := do
  let place ← store.resolve (withoutSlashes path)
  if store.hasDirectory place || store.hasFile place then .error .occupied
  else .ok { store with directories := store.directories ++ [place] }

/-- Adds the first of the given directories, and before it those of the others that
are missing; each one lies in the next. A directory that is there already is fine. -/
def makeDirectories (store : FileStore) : List String → Except FileFault FileStore
  | [] => .ok store
  | path :: around =>
      match store.makeDirectory path with
      | .ok made => .ok made
      | .error .notFound => do
          let below ← store.makeDirectories around
          match below.makeDirectory path with
          | .ok made => .ok made
          | .error fault =>
              if below.isDirectory path then .ok below else .error fault
      | .error fault => if store.isDirectory path then .ok store else .error fault

/-- The steps of a path without the ones that go nowhere; a point is kept only at the
beginning. -/
def plainSteps (path : String) : List String :=
  match pathSteps path with
  | [] => []
  | first :: rest =>
      (if first == "" then [] else [first]) ++
        rest.filter fun step => step != "" && step != "."

/-- The paths of the directories around a path, the nearest one first. -/
def pathsAround (path : String) : List String :=
  let start := if path.startsWith "/" then "/" else ""
  (around (plainSteps path).reverse).map (start ++ ·)
where
  around : List String → List String
    | [] => []
    | [_] => []
    | _ :: next :: rest =>
        String.intercalate "/" (next :: rest).reverse :: around (next :: rest)

def ensureDirectory (store : FileStore) (path : String) : Except FileFault FileStore :=
  store.makeDirectories (path :: pathsAround path)

/-- Adds a directory and the directories around it. -/
def addDirectory (store : FileStore) (place : Place) : FileStore :=
  { store with
    directories :=
      store.directories ++
        (placesTo place).filter fun outer => !store.hasDirectory outer }

def addContent (store : FileStore) (place : Place) (content : FileContent) : FileStore :=
  { store.addDirectory place.dropLast with files := store.files.insert place content }

def addFile (store : FileStore) (place : Place) (text : String) : FileStore :=
  store.addContent place (.ok text)

def namesIn (store : FileStore) (place : Place) : List String :=
  ((store.files.keys ++ store.directories).filter fun other =>
    other.length == place.length + 1 && other.dropLast == place).filterMap
      List.getLast?

/-- Puts a name at its place in ascending order. -/
def insertName (name : String) : List String → List String
  | [] => [name]
  | other :: rest =>
      if name < other then name :: other :: rest else other :: insertName name rest

def children (store : FileStore) (path : String) : List String :=
  match store.resolve path with
  | .ok place => (store.namesIn place).foldr insertName []
  | .error _ => []

def textAt? (store : FileStore) (place : Place) : Option String :=
  (store.files.get? place).bind Except.toOption

/-- The files that are new or hold another text than before. -/
def changedSince (store before : FileStore) : List (Place × String) :=
  store.files.keys.filterMap fun place =>
    match store.textAt? place with
    | some text => if before.textAt? place = some text then none else some (place, text)
    | none => none

def pathInHome? (store : FileStore) (place : Place) : Option String :=
  if store.home.isPrefixOf place then
    some (String.intercalate "/" (place.drop store.home.length))
  else
    none

end FileStore

def joinPath (directory name : String) : String :=
  if directory.endsWith "/" then directory ++ name else directory ++ "/" ++ name

end BuildScribe
