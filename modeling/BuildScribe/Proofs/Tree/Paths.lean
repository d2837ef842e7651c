import BuildScribe.Context.Handle
import BuildScribe.Proofs.Text.Splitting

/-!
# Paths and references

The names of a path are what stands between its points. A reference made of them has the
path as its dotted path, whether every name has to be there, a malformed path is kept as one
name, or empty names are let through. The way back needs names that are not empty and hold
no point.
-/

namespace BuildScribe

theorem eq_pathSegments_iff {names : List String} {path : String} :
    names = pathSegments path ↔
      names ≠ [] ∧ (∀ name ∈ names, '.' ∉ name.toList) ∧ ".".intercalate names = path := by
  have asTexts : names = pathSegments path ↔
      names.map String.toList = path.toList.splitOn '.' := by
    have textsOfPath : (pathSegments path).map String.toList = path.toList.splitOn '.' := by
      simp [pathSegments, Function.comp_def]
    rw [← textsOfPath]
    exact (List.map_inj_right fun _ _ => String.toList_injective).symm
  have joined : ['.'].intercalate (names.map String.toList) = path.toList ↔
      ".".intercalate names = path := by
    rw [← String.toList_inj, String.toList_intercalate]
    rfl
  rw [asTexts, eq_splitOn_iff, joined, List.forall_mem_map, ne_eq, List.map_eq_nil_iff]

theorem pathSegments_ne_nil (path : String) : pathSegments path ≠ [] :=
  (eq_pathSegments_iff.mp rfl).1

theorem intercalate_pathSegments (path : String) :
    ".".intercalate (pathSegments path) = path :=
  (eq_pathSegments_iff.mp rfl).2.2

theorem pathSegments_point (first second : String) :
    pathSegments (first ++ "." ++ second) = pathSegments first ++ pathSegments second := by
  have split : (first ++ "." ++ second).toList = first.toList ++ '.' :: second.toList := by
    simp
  rw [pathSegments, split, List.splitOn_append_cons_self, List.map_append]
  rfl

namespace Reference

theorem segments_ne_nil (reference : Reference) : reference.segments ≠ [] := by
  cases reference <;> simp [segments]

theorem segments_through (start : Reference) (names : List String) :
    (start.through names).segments = start.segments ++ names := by
  induction names generalizing start with
  | nil => simp [through]
  | cons name rest ih =>
      have step : start.through (name :: rest) =
          Reference.through (.member ⟨.reference, none, .empty⟩ start name) rest := rfl
      rw [step, ih, Reference.segments, List.append_assoc, List.singleton_append]

theorem segments_ofSegments {names : List String} (nonempty : names ≠ []) :
    (ofSegments names).segments = names := by
  cases names with
  | nil => exact absurd rfl nonempty
  | cons first rest => rw [ofSegments, segments_through, single, segments, List.singleton_append]

theorem dottedPath_ofSegments (path : String) :
    (ofSegments (pathSegments path)).dottedPath = path := by
  rw [dottedPath, segments_ofSegments (pathSegments_ne_nil path), intercalate_pathSegments]

theorem ofPath?_eq_some_iff {path : String} {reference : Reference} :
    ofPath? path = some reference ↔
      "" ∉ pathSegments path ∧ ofSegments (pathSegments path) = reference := by
  unfold ofPath?
  dsimp only
  by_cases malformed : "" ∈ pathSegments path
  · simp [malformed]
  · simp [malformed]

/-- The dotted path of the reference that a path becomes is the path. -/
theorem dottedPath_ofPath (path : String) : (ofPath path).dottedPath = path := by
  unfold ofPath
  cases read : ofPath? path with
  | none => simp [dottedPath, single, segments]
  | some reference =>
      obtain ⟨_, rfl⟩ := ofPath?_eq_some_iff.mp read
      exact dottedPath_ofSegments path

theorem isSome_ofPath?_iff {path : String} :
    (ofPath? path).isSome = true ↔ "" ∉ pathSegments path := by
  simp [Option.isSome_iff_exists, ofPath?_eq_some_iff]

/-- Names that are not empty and hold no point are read back from their dotted path. -/
theorem ofPath?_dottedPath {reference : Reference}
    (plain : ∀ name ∈ reference.segments, name ≠ "" ∧ '.' ∉ name.toList) :
    ofPath? reference.dottedPath = some (ofSegments reference.segments) := by
  have names : reference.segments = pathSegments reference.dottedPath :=
    eq_pathSegments_iff.mpr
      ⟨reference.segments_ne_nil, fun name isName => (plain name isName).2, rfl⟩
  rw [ofPath?_eq_some_iff, ← names]
  exact ⟨fun isName => (plain "" isName).1 rfl, rfl⟩

end Reference

namespace Handle

theorem segments_toReference (handle : Handle) :
    handle.toReference.segments = pathSegments handle.name :=
  Reference.segments_ofSegments (pathSegments_ne_nil handle.name)

theorem segments_toReference_child (handle : Handle) (property : String) :
    (handle.child property).toReference.segments =
      handle.toReference.segments ++ pathSegments property := by
  rw [segments_toReference, segments_toReference, child, pathSegments_point]

theorem segments_toReference_children (handle : Handle) (properties : List String) :
    (properties.foldl child handle).toReference.segments =
      handle.toReference.segments ++ properties.flatMap pathSegments := by
  induction properties generalizing handle with
  | nil => simp
  | cons property rest ih =>
      rw [List.foldl_cons, ih, segments_toReference_child, List.append_assoc,
        List.flatMap_cons]

end Handle

/-- The names of a path are the only texts without a point that join to it. A path is read
strictly if none of its names is empty, and then the reference has these names and the path
again, and the lenient readings give the same reference. These keep any other path as well.
Names that are not empty and hold no point are read back from the dotted path, and what is
added to a handle adds its names behind those of the handle. -/
theorem Reference.paths_tell_references :
    (∀ (names : List String) (path : String), names = pathSegments path ↔
      names ≠ [] ∧ (∀ name ∈ names, '.' ∉ name.toList) ∧ ".".intercalate names = path) ∧
    (∀ path : String, (ofPath? path).isSome = true ↔ "" ∉ pathSegments path) ∧
    (∀ (path : String) (reference : Reference), ofPath? path = some reference →
      reference.segments = pathSegments path ∧ reference.dottedPath = path ∧
      Node.ofPath path = .reference reference ∧
      ∀ typeName : String, (Handle.mk path typeName).toReference = reference) ∧
    (∀ path : String,
      (∃ reference, Node.ofPath path = .reference reference ∧ reference.dottedPath = path) ∧
      ∀ typeName : String, (Handle.mk path typeName).toReference.dottedPath = path) ∧
    (∀ reference : Reference,
      (∀ name ∈ reference.segments, name ≠ "" ∧ '.' ∉ name.toList) →
      ∃ read, ofPath? reference.dottedPath = some read ∧
        read.segments = reference.segments) ∧
    ∀ (handle : Handle) (properties : List String),
      (properties.foldl Handle.child handle).toReference.segments =
        pathSegments handle.name ++ properties.flatMap pathSegments := by
  refine ⟨fun _ _ => eq_pathSegments_iff, fun _ => isSome_ofPath?_iff, ?_, ?_, ?_, ?_⟩
  · intro path reference read
    obtain ⟨_, rfl⟩ := ofPath?_eq_some_iff.mp read
    have lenient : ofPath path = ofSegments (pathSegments path) := by
      rw [ofPath, read, Option.getD_some]
    exact ⟨segments_ofSegments (pathSegments_ne_nil path), dottedPath_ofSegments path,
      congrArg Node.reference lenient, fun _ => rfl⟩
  · intro path
    exact ⟨⟨ofPath path, rfl, dottedPath_ofPath path⟩, fun _ => dottedPath_ofSegments path⟩
  · intro reference plain
    exact ⟨_, ofPath?_dottedPath plain, segments_ofSegments reference.segments_ne_nil⟩
  · intro handle properties
    rw [Handle.segments_toReference_children, Handle.segments_toReference]

/-- A name may be no identifier, and the points of a property separate empty names. -/
theorem Reference.paths_of_odd_names :
    (∃ read, ofPath? "a b.c-d" = some read ∧ read.segments = ["a b", "c-d"] ∧
      Node.ofPath "a b.c-d" = .reference read) ∧
    ([".", "e"].foldl Handle.child ⟨"h", "Any"⟩).toReference.segments = ["h", "", "", "e"] := by
  obtain ⟨_, _, strict, _, back, followed⟩ := Reference.paths_tell_references
  obtain ⟨read, known, names⟩ := back (ofSegments ["a b", "c-d"]) (by decide)
  have path : (ofSegments ["a b", "c-d"]).dottedPath = "a b.c-d" := by decide
  rw [path] at known
  exact ⟨⟨read, known, names, (strict _ read known).2.2.1⟩, followed ⟨"h", "Any"⟩ [".", "e"]⟩

end BuildScribe
