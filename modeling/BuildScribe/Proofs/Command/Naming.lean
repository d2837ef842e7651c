import BuildScribe.Command.Run
import BuildScribe.Proofs.Command.Loading
import BuildScribe.Proofs.Files.Store
import Mathlib.Data.List.Nodup

/-!
# Names of scripts

The script of a single description is named by the stem of its file, and those of several are
numbered behind the stem. So two files give one name to two scripts if they have the same stem
and both yield one description or both yield several, or if the stem of one looks like a
numbered name of the other.
-/

namespace BuildScribe

theorem append_cons_inj_of_notMem {separator : Char} {front other back rest : List Char}
    (notInBack : separator ∉ back) (notInRest : separator ∉ rest)
    (same : front ++ separator :: back = other ++ separator :: rest) :
    front = other ∧ back = rest := by
  rcases List.append_eq_append_iff.mp same with ⟨between, rfl, ends⟩ | ⟨between, rfl, ends⟩
  · cases between with
    | nil => simpa using ends
    | cons c more =>
        have inBack : separator ∈ back := by simp [(List.cons.inj ends).2]
        exact (notInBack inBack).elim
  · cases between with
    | nil => simpa [eq_comm] using ends
    | cons c more =>
        have inRest : separator ∈ rest := by simp [(List.cons.inj ends).2]
        exact (notInRest inRest).elim

theorem isDigit_of_mem_toString {number : Nat} {c : Char}
    (isPart : c ∈ (toString number).toList) : c.isDigit = true := by
  rw [Nat.toString_eq_ofList_toDigits, String.toList_ofList] at isPart
  exact Nat.isDigit_of_mem_toDigits (by decide) (by decide) isPart

/-- A number behind the last hyphen can be told from what stands before it. -/
theorem numbered_inj {front other : String} {number index : Nat}
    (same : front ++ "-" ++ toString number = other ++ "-" ++ toString index) :
    front = other ∧ number = index := by
  have noHyphen (number : Nat) : '-' ∉ (toString number).toList := fun isPart => by
    cases isDigit_of_mem_toString isPart
  have same : front.toList ++ '-' :: (toString number).toList =
      other.toList ++ '-' :: (toString index).toList := by
    simpa using congrArg String.toList same
  obtain ⟨fronts, numbers⟩ :=
    append_cons_inj_of_notMem (noHyphen number) (noHyphen index) same
  refine ⟨String.toList_injective fronts, ?_⟩
  rw [Nat.toString_eq_ofList_toDigits, Nat.toString_eq_ofList_toDigits,
    String.toList_ofList, String.toList_ofList] at numbers
  calc
    number = Nat.ofDigitChars 10 (Nat.toDigits 10 number) 0 :=
      Nat.ofDigitChars_ten_toDigits.symm
    _ = Nat.ofDigitChars 10 (Nat.toDigits 10 index) 0 := by rw [numbers]
    _ = index := Nat.ofDigitChars_ten_toDigits

namespace Document

/-- The stem of the name of a file. -/
def fileStem (path : String) : String :=
  stem ⟨path, none, .null⟩

/-- The names of the scripts of a file, without extension. -/
def scriptNames (path : String) (count : Nat) : List String :=
  if count ≤ 1 then
    List.replicate count (fileStem path)
  else
    (List.range count).map fun index => fileStem path ++ "-" ++ toString index

theorem outputName_of_single (path extension : String) (value : Json) :
    outputName ⟨path, none, value⟩ extension = fileStem path ++ "." ++ extension := by
  change fileStem path ++ "" ++ "." ++ extension = _
  rw [String.append_empty]

theorem outputName_of_numbered (path extension : String) (value : Json) (index : Nat) :
    outputName ⟨path, some index, value⟩ extension =
      fileStem path ++ "-" ++ toString index ++ "." ++ extension := by
  change fileStem path ++ ("-" ++ toString index) ++ "." ++ extension = _
  rw [← String.append_assoc]

theorem map_outputName_ofValues (path extension : String) (values : List Json) :
    (ofValues path values).map (·.outputName extension) =
      (scriptNames path values.length).map (· ++ "." ++ extension) := by
  unfold ofValues scriptNames
  split
  · simp only [List.map_map, Function.comp_def, outputName_of_single, List.map_replicate,
      List.map_const']
  · rw [List.range_eq_range', ← List.zipIdx_map_snd 0 values]
    simp only [List.map_map, Function.comp_def, outputName_of_numbered]

theorem mem_scriptNames {path name : String} {count : Nat} :
    name ∈ scriptNames path count ↔
      count = 1 ∧ name = fileStem path ∨
      2 ≤ count ∧ ∃ index < count, name = fileStem path ++ "-" ++ toString index := by
  unfold scriptNames
  split
  · rw [List.mem_replicate]
    constructor
    · rintro ⟨some, rfl⟩
      exact .inl ⟨by omega, rfl⟩
    · rintro (⟨rfl, rfl⟩ | ⟨many, _⟩)
      · exact ⟨by decide, rfl⟩
      · omega
  · rw [List.mem_map]
    constructor
    · rintro ⟨index, inside, rfl⟩
      exact .inr ⟨by omega, index, List.mem_range.mp inside, rfl⟩
    · rintro (⟨one, _⟩ | ⟨_, index, inside, rfl⟩)
      · omega
      · exact ⟨index, List.mem_range.mpr inside, rfl⟩

theorem nodup_scriptNames (path : String) (count : Nat) : (scriptNames path count).Nodup := by
  unfold scriptNames
  split
  · next few => exact List.nodup_replicate.mpr few
  · exact List.nodup_range.map fun _ _ same => (numbered_inj same).2

/-- Two files, each with its descriptions, that give one name to two scripts. -/
inductive Clash (first second : String × List Json) : Prop where
  | single : first.2.length = 1 → second.2.length = 1 →
      fileStem first.1 = fileStem second.1 → Clash first second
  | several : 2 ≤ first.2.length → 2 ≤ second.2.length →
      fileStem first.1 = fileStem second.1 → Clash first second
  | before {index : Nat} : first.2.length = 1 → index < second.2.length →
      2 ≤ second.2.length → fileStem first.1 = fileStem second.1 ++ "-" ++ toString index →
      Clash first second
  | behind {index : Nat} : second.2.length = 1 → index < first.2.length →
      2 ≤ first.2.length → fileStem second.1 = fileStem first.1 ++ "-" ++ toString index →
      Clash first second

theorem clash_iff {first second : String × List Json} :
    Clash first second ↔
      ∃ name, name ∈ scriptNames first.1 first.2.length ∧
        name ∈ scriptNames second.1 second.2.length := by
  simp only [mem_scriptNames]
  constructor
  · rintro (⟨one, another, same⟩ | ⟨many, others, same⟩ | ⟨one, inside, many, same⟩ |
      ⟨one, inside, many, same⟩)
    · exact ⟨_, .inl ⟨one, rfl⟩, .inl ⟨another, same⟩⟩
    · exact ⟨_, .inr ⟨many, 0, by omega, rfl⟩, .inr ⟨others, 0, by omega, by rw [same]⟩⟩
    · exact ⟨_, .inl ⟨one, rfl⟩, .inr ⟨many, _, inside, same⟩⟩
    · exact ⟨_, .inr ⟨many, _, inside, rfl⟩, .inl ⟨one, same.symm⟩⟩
  · rintro ⟨name, ⟨one, rfl⟩ | ⟨many, index, inside, rfl⟩,
      ⟨another, same⟩ | ⟨others, other, within, same⟩⟩
    · exact .single one another same
    · exact .before one within others same
    · exact .behind another inside many same.symm
    · exact .several many others (numbered_inj same).1

theorem nodup_outputNames (files : List (String × List Json)) (extension : String) :
    ((InputSettings.documentsOf files).map (·.outputName extension)).Nodup ↔
      files.Pairwise fun first second => ¬Clash first second := by
  have extended : Function.Injective fun name => name ++ "." ++ extension := by
    intro first second same
    simpa using same
  have named : (InputSettings.documentsOf files).map (·.outputName extension) =
      (files.flatMap fun file => scriptNames file.1 file.2.length).map
        (· ++ "." ++ extension) := by
    simp only [InputSettings.documentsOf, List.map_flatMap, map_outputName_ofValues]
  rw [named, List.nodup_map_iff extended, List.nodup_flatMap]
  simp only [nodup_scriptNames, implies_true, true_and]
  refine List.Pairwise.iff fun first second => ?_
  rw [clash_iff]
  simp [Function.onFun, List.Disjoint]

theorem mem_of_mem_stemOf {name : List Char} {c : Char} (isPart : c ∈ stemOf name) :
    c ∈ name := by
  unfold stemOf at isPart
  dsimp only at isPart
  split at isPart
  · exact isPart
  · have inRest := List.mem_of_mem_drop (List.mem_reverse.mp isPart)
    exact List.mem_reverse.mp ((List.dropWhile_sublist _).subset inRest)

theorem slash_notMem_stem (document : Document) : '/' ∉ document.stem.toList := by
  unfold stem
  split
  · decide
  · next name isLast =>
      rw [String.toList_ofList]
      intro inStem
      have isStep : name ∈ FileStore.pathSteps document.origin :=
        FileStore.mem_pathSteps_of_mem_plainSteps (List.mem_of_getLast? isLast)
      exact FileStore.slash_notMem_of_mem_pathSteps isStep (mem_of_mem_stemOf inStem)

/-- The name of a script leads nowhere but to a file beside the others. -/
theorem isPlain_outputName (document : Document) (language : Language) :
    FileStore.IsPlain (document.outputName language.fileExtension) := by
  obtain ⟨number, named, unbroken⟩ : ∃ number : String,
      document.outputName language.fileExtension =
        document.stem ++ number ++ "." ++ language.fileExtension ∧
      '/' ∉ number.toList := by
    refine ⟨_, rfl, ?_⟩
    split
    · next index _ =>
        rw [String.toList_append, List.mem_append, not_or]
        refine ⟨by decide, fun isPart => ?_⟩
        cases isDigit_of_mem_toString isPart
    · decide
  have long : 3 ≤ (document.outputName language.fileExtension).length := by
    have point : ".".length = 1 := by decide
    have extension : 2 ≤ language.fileExtension.length := by cases language <;> decide
    simp only [named, String.length_append, point]
    omega
  have differs (other : String) (short : other.length < 3) :
      document.outputName language.fileExtension ≠ other := by
    rintro rfl
    omega
  refine ⟨differs _ (by decide), differs _ (by decide), differs _ (by decide), ?_⟩
  rw [named]
  cases language <;>
    simp [Language.fileExtension, slash_notMem_stem document, unbroken]

end Document

end BuildScribe
