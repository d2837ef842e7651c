import BuildScribe.Files.Store
import BuildScribe.Proofs.OrderedMap
import BuildScribe.Proofs.Text.Splitting
import BuildScribe.Proofs.Traversal

/-!
# Stores that grow

Writing files and adding directories leaves every directory where it is, so a path that leads
somewhere goes on leading there. All paths of plain names in one directory lead to places side
by side.
-/

namespace BuildScribe

namespace FileStore

theorem slash_notMem_of_mem_pathSteps {path step : String} (isStep : step ∈ pathSteps path) :
    '/' ∉ step.toList := by
  obtain ⟨piece, isPiece, rfl⟩ := List.mem_map.mp isStep
  rw [String.toList_ofList]
  exact notMem_of_mem_splitOn isPiece

theorem mem_pathSteps_of_mem_plainSteps {path step : String} (isStep : step ∈ plainSteps path) :
    step ∈ pathSteps path := by
  unfold plainSteps at isStep
  split at isStep
  · exact (List.not_mem_nil isStep).elim
  · next first rest split =>
      rw [split]
      rcases List.mem_append.mp isStep with isFirst | isOther
      · split at isFirst
        · exact (List.not_mem_nil isFirst).elim
        · rw [List.mem_singleton.mp isFirst]
          exact List.mem_cons_self
      · exact List.mem_cons_of_mem first (List.mem_filter.mp isOther).1

/-- A name that leads from a directory to what has this name in it. -/
structure IsPlain (name : String) : Prop where
  ne_empty : name ≠ ""
  ne_here : name ≠ "."
  ne_above : name ≠ ".."
  unbroken : '/' ∉ name.toList

/-- The place is a directory and nothing else. -/
def IsOpen (store : FileStore) (place : Place) : Prop :=
  store.hasFile place = false ∧ store.hasDirectory place = true

variable {store before made after : FileStore} {place goal : Place} {path text : String}

/-- The place that a step from an open place leads to. -/
def placeAfter (place : Place) (step : String) : Place :=
  if step == "" || step == "." then place
  else if step == ".." then place.dropLast
  else place ++ [step]

theorem placeAfter_of_isPlain {name : String} (isPlain : IsPlain name) (place : Place) :
    placeAfter place name = place ++ [name] := by
  simp [placeAfter, isPlain.ne_empty, isPlain.ne_here, isPlain.ne_above]

theorem walk_cons_eq_ok_iff {step : String} {rest : List String} :
    store.walk place (step :: rest) = .ok goal ↔
      store.IsOpen place ∧ store.walk (placeAfter place step) rest = .ok goal := by
  unfold IsOpen placeAfter
  rw [walk]
  cases store.hasFile place <;> cases store.hasDirectory place <;> simp
  split
  · rfl
  split <;> rfl

theorem walk_append_eq_ok_iff {first second : List String} :
    store.walk place (first ++ second) = .ok goal ↔
      ∃ middle, store.walk place first = .ok middle ∧ store.walk middle second = .ok goal := by
  induction first generalizing place with
  | nil => simp [walk]
  | cons step rest ih =>
      rw [List.cons_append, walk_cons_eq_ok_iff, ih]
      simp only [walk_cons_eq_ok_iff, and_assoc, exists_and_left]

/-- Every directory stays one, and nothing is put in the place of a directory. -/
structure GrowsTo (before after : FileStore) : Prop where
  home : after.home = before.home
  directory : ∀ place, before.hasDirectory place = true → after.hasDirectory place = true
  file : ∀ place, before.hasDirectory place = true → after.hasFile place = true →
    before.hasFile place = true

namespace GrowsTo

theorem refl (store : FileStore) : store.GrowsTo store :=
  ⟨rfl, fun _ => id, fun _ _ => id⟩

theorem trans (first : before.GrowsTo made) (second : made.GrowsTo after) :
    before.GrowsTo after where
  home := second.home.trans first.home
  directory place known := second.directory place (first.directory place known)
  file place known isFile :=
    first.file place known (second.file place (first.directory place known) isFile)

theorem isOpen (grows : before.GrowsTo after) (isOpen : before.IsOpen place) :
    after.IsOpen place := by
  refine ⟨?_, grows.directory place isOpen.2⟩
  rw [← Bool.not_eq_true]
  intro isFile
  have wasFile := grows.file place isOpen.2 isFile
  rw [isOpen.1] at wasFile
  cases wasFile

theorem walk (grows : before.GrowsTo after) {steps : List String}
    (walked : before.walk place steps = .ok goal) : after.walk place steps = .ok goal := by
  induction steps generalizing place with
  | nil => exact walked
  | cons step rest ih =>
      obtain ⟨isOpen, walked⟩ := walk_cons_eq_ok_iff.mp walked
      exact walk_cons_eq_ok_iff.mpr ⟨grows.isOpen isOpen, ih walked⟩

end GrowsTo

theorem write_eq_ok_iff :
    before.write path text = .ok after ↔
      ∃ place, before.resolve path = .ok place ∧ before.hasDirectory place = false ∧
        after = { before with files := before.files.insert place (.ok text) } := by
  unfold write
  rw [except_bind_eq_ok]
  refine exists_congr fun place => and_congr_right fun _ => ?_
  cases before.hasDirectory place <;> simp [eq_comm]

theorem read_of_resolve (led : store.resolve path = .ok place)
    (stored : store.files.get? place = some (.ok text)) : store.read path = .ok text := by
  unfold read
  rw [led]
  simp only [bind, Except.bind, stored]

theorem growsTo_of_write (written : before.write path text = .ok after) :
    before.GrowsTo after := by
  obtain ⟨place, _, noDirectory, rfl⟩ := write_eq_ok_iff.mp written
  refine ⟨rfl, fun _ => id, fun other isDirectory isFile => ?_⟩
  rcases OrderedMap.contains_insert.mp isFile with rfl | wasFile
  · rw [noDirectory] at isDirectory
    cases isDirectory
  · exact wasFile

/-- Directories are added, and nothing else changes. -/
structure SpreadsTo (before after : FileStore) : Prop extends GrowsTo before after where
  files : after.files = before.files

namespace SpreadsTo

theorem refl (store : FileStore) : store.SpreadsTo store :=
  ⟨.refl store, rfl⟩

theorem trans (first : before.SpreadsTo made) (second : made.SpreadsTo after) :
    before.SpreadsTo after :=
  ⟨first.toGrowsTo.trans second.toGrowsTo, second.files.trans first.files⟩

end SpreadsTo

theorem spreadsTo_of_makeDirectory (created : before.makeDirectory path = .ok after) :
    before.SpreadsTo after := by
  unfold makeDirectory at created
  obtain ⟨place, _, created⟩ := except_bind_eq_ok.mp created
  split at created
  · cases created
  · cases created
    refine ⟨⟨rfl, fun other known => ?_, fun _ _ => id⟩, rfl⟩
    rcases (Bool.or_eq_true ..).mp known with isRoot | listed
    · simp [hasDirectory, isRoot]
    · have listed : other ∈ before.directories := by simpa using listed
      simp [hasDirectory, listed]

theorem spreadsTo_of_makeDirectories {paths : List String}
    (created : before.makeDirectories paths = .ok after) : before.SpreadsTo after := by
  induction paths generalizing after with
  | nil =>
      cases created
      exact .refl before
  | cons path outer ih =>
      rw [makeDirectories] at created
      split at created
      · next direct =>
          cases created
          exact spreadsTo_of_makeDirectory direct
      · obtain ⟨below, prepared, created⟩ := except_bind_eq_ok.mp created
        have onOuter := ih prepared
        split at created
        · next last =>
            cases created
            exact onOuter.trans (spreadsTo_of_makeDirectory last)
        · split at created
          · cases created
            exact onOuter
          · cases created
      · split at created
        · cases created
          exact .refl before
        · cases created

theorem spreadsTo_of_ensureDirectory (created : before.ensureDirectory path = .ok after) :
    before.SpreadsTo after :=
  spreadsTo_of_makeDirectories created

/-- What stands before the last slash of a path into the directory. -/
def trunk (directory : String) : List Char :=
  if directory.endsWith "/" then directory.toList.dropLast else directory.toList

/-- The place that paths into the directory pass through. -/
def outerPlace (store : FileStore) (directory : String) : Except FileFault Place :=
  store.walk (if (trunk directory).head?.getD '/' = '/' then [] else store.home)
    (((trunk directory).splitOn '/').map String.ofList)

theorem GrowsTo.outerPlace (grows : before.GrowsTo after) {directory : String}
    (led : before.outerPlace directory = .ok place) :
    after.outerPlace directory = .ok place := by
  unfold FileStore.outerPlace at led ⊢
  rw [grows.home]
  exact grows.walk led

theorem toList_joinPath (directory name : String) :
    (joinPath directory name).toList = trunk directory ++ '/' :: name.toList := by
  unfold joinPath trunk
  split
  · next ending =>
      rw [String.endsWith_eq_endsWith_toSlice, String.Slice.endsWith_string_iff,
        String.copy_toSlice] at ending
      obtain ⟨front, split⟩ := ending
      have split : directory.toList = front ++ ['/'] := split.symm
      simp [split]
  · simp

theorem resolve_joinPath {name : String} (isPlain : IsPlain name) (directory : String) :
    store.resolve (joinPath directory name) = .ok goal ↔
      ∃ outer, store.outerPlace directory = .ok outer ∧ store.IsOpen outer ∧
        goal = outer ++ [name] := by
  have steps : pathSteps (joinPath directory name) =
      ((trunk directory).splitOn '/').map String.ofList ++ [name] := by
    rw [pathSteps, toList_joinPath, List.splitOn_append_cons_self, List.map_append,
      List.splitOn_eq_singleton isPlain.unbroken, List.map_singleton, String.ofList_toList]
  have resolved : store.resolve (joinPath directory name) =
      store.walk (if (trunk directory).head?.getD '/' = '/' then [] else store.home)
        (((trunk directory).splitOn '/').map String.ofList ++ [name]) := by
    rw [← steps, resolve, toList_joinPath]
    cases trunk directory with
    | nil => rfl
    | cons c rest =>
        by_cases isSlash : c = '/'
        · simp [isSlash]
        · simp [isSlash]
  rw [resolved, walk_append_eq_ok_iff]
  refine exists_congr fun outer => and_congr_right fun _ => ?_
  rw [walk_cons_eq_ok_iff, placeAfter_of_isPlain isPlain]
  simp [walk, eq_comm]

end FileStore

end BuildScribe
