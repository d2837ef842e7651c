import BuildScribe.Proofs.Target.Unescaped

/-!
# Declared and referenced names

A declaration spells its name as a whole, Kotlin between backticks if need be and Groovy
always as it is. A reference to the name is a path, whose names are spelled one by one. The
two come out alike for some names only.
-/

namespace BuildScribe

theorem isIdentifierPart_of_mem {name : String} (plain : isIdentifier name = true) {c : Char}
    (member : c ∈ name.toList) : isIdentifierPart c = true := by
  unfold isIdentifier at plain
  cases known : name.toList with
  | nil => simp [known] at member
  | cons first rest =>
      rw [known] at plain member
      simp only [isIdentifierChars, Bool.and_eq_true, List.all_eq_true] at plain
      rcases List.mem_cons.mp member with rfl | onRest
      · simp [isIdentifierPart, plain.1]
      · exact plain.2 c onRest

theorem isIdentifier_eq_false {name : String} {c : Char} (member : c ∈ name.toList)
    (odd : isIdentifierPart c = false) : isIdentifier name = false := by
  cases plain : isIdentifier name with
  | false => rfl
  | true =>
      rw [isIdentifierPart_of_mem plain member] at odd
      cases odd

theorem notMem_of_isIdentifier {name : String} (plain : isIdentifier name = true) {c : Char}
    (odd : isIdentifierPart c = false) : c ∉ name.toList := by
  intro member
  rw [isIdentifier_eq_false member odd] at plain
  cases plain

/-- An identifier does not begin with a quote of any kind. -/
theorem isIdentifier_append_ne {name : String} (plain : isIdentifier name = true) {c : Char}
    (odd : isIdentifierPart c = false) (x y : List Char) : name.toList ++ x ≠ c :: y := by
  intro same
  cases known : name.toList with
  | nil => simp [isIdentifier, known, isIdentifierChars] at plain
  | cons first rest =>
      rw [known] at same
      obtain ⟨rfl, _⟩ := List.cons.inj same
      exact notMem_of_isIdentifier plain odd (by simp [known])

/-- A path begins with an identifier or a point. -/
theorem Reference.dottedPath_ne_empty {reference : Reference}
    (plain : ∀ name ∈ reference.segments, isIdentifier name = true) :
    reference.dottedPath ≠ "" := by
  intro nothing
  cases known : reference.segments with
  | nil => exact reference.segments_ne_nil known
  | cons first rest =>
      have firstPlain : isIdentifier first = true := plain first (by simp [known])
      rw [dottedPath, known] at nothing
      cases rest with
      | nil =>
          rw [String.intercalate_singleton] at nothing
          rw [nothing] at firstPlain
          contradiction
      | cons second others => simp [String.intercalate_cons_cons] at nothing

namespace Language

/-- Identifiers are quoted in neither language. -/
theorem referenceText_of_identifiers (language : Language) {reference : Reference}
    (plain : ∀ name ∈ reference.segments, isIdentifier name = true) :
    language.referenceText reference = reference.dottedPath := by
  have parts : language.referenceParts reference.segments = reference.segments := by
    cases language with
    | kotlin =>
        have own : ∀ name ∈ reference.segments, backtickedName name = id name :=
          fun name isName => if_pos (plain name isName)
        rw [referenceParts, List.map_congr_left own, List.map_id]
    | groovy =>
        have own : ∀ name ∈ reference.segments, propertyName name = id name :=
          fun name isName => if_pos (plain name isName)
        unfold referenceParts
        dsimp only
        rw [List.map_congr_left own, List.map_id]
        cases known : reference.segments with
        | nil => rfl
        | cons first rest => exact if_pos (plain first (by simp [known]))
  rw [referenceText, parts, Reference.dottedPath]

/-- How a declaration spells the name that it declares. -/
def declaredName : Language → String → String
  | kotlin, name => backtickedName name
  | groovy, name => name

/-- Whether a name is spelled in its declaration as it is in a reference. A Kotlin reference
has to consist of the whole name, a Groovy reference of plain identifiers. -/
def RefersAsDeclared : Language → String → Prop
  | kotlin, name => (Reference.ofPath name).segments = [name]
  | groovy, name => ∀ part ∈ (Reference.ofPath name).segments, isIdentifier part = true

instance (language : Language) (name : String) : Decidable (language.RefersAsDeclared name) :=
  match language with
  | kotlin => inferInstanceAs (Decidable ((Reference.ofPath name).segments = [name]))
  | groovy => inferInstanceAs
      (Decidable (∀ part ∈ (Reference.ofPath name).segments, isIdentifier part = true))

/-- A name with a point goes between backticks as a whole, but in the path that it becomes
no backticks enclose a point. -/
theorem backtickedName_ne_joined (first second : String) (rest : List String) :
    backtickedName (".".intercalate (first :: second :: rest)) ≠
      ".".intercalate ((first :: second :: rest).map backtickedName) := by
  intro same
  have odd : isIdentifier (".".intercalate (first :: second :: rest)) = false := by
    apply isIdentifier_eq_false _ (show isIdentifierPart '.' = false by decide)
    simp [String.intercalate_cons_cons]
  rw [backtickedName, odd, List.map_cons, List.map_cons, String.intercalate_cons_cons,
    String.intercalate_cons_cons, backtickedName] at same
  replace same := congrArg String.toList same
  cases plain : isIdentifier first with
  | true =>
      simp only [plain, if_true, Bool.false_eq_true, if_false, String.toList_append] at same
      exact isIdentifier_append_ne plain (show isIdentifierPart '`' = false by decide) _ _
        (by simpa using same.symm)
  | false =>
      -- Behind the first name stands a point in the one text and a backtick in the other.
      simp [plain] at same

theorem kotlin_declaredName_eq_iff (name : String) :
    kotlin.declaredName name = kotlin.referenceText (.ofPath name) ↔
      kotlin.RefersAsDeclared name := by
  have joined : ".".intercalate (Reference.ofPath name).segments = name :=
    Reference.dottedPath_ofPath name
  unfold declaredName referenceText referenceParts RefersAsDeclared
  dsimp only
  cases parts : (Reference.ofPath name).segments with
  | nil => exact (Reference.segments_ne_nil _ parts).elim
  | cons first rest =>
      rw [parts] at joined
      cases rest with
      | nil =>
          rw [String.intercalate_singleton] at joined
          simp [joined]
      | cons second others =>
          have differ := backtickedName_ne_joined first second others
          rw [joined] at differ
          exact iff_of_false differ (by simp)

theorem length_literalChars (language : Language) (value : List Char) :
    value.length + 2 ≤ (language.literalChars value).length := by
  have grows : value.length ≤ (value.flatMap language.literalChar).length := by
    induction value with
    | nil => exact Nat.le_refl 0
    | cons c rest ih =>
        have something : 1 ≤ (language.literalChar c).length := by
          unfold literalChar
          repeat' split
          all_goals simp
        rw [List.flatMap_cons, List.length_append, List.length_cons]
        omega
  simp only [literalChars, List.length_cons, List.length_append, List.length_nil]
  omega

/-- A quoted name is longer than the name. -/
theorem length_propertyName (name : String) :
    name.length ≤ (propertyName name).length ∧
      (isIdentifier name = false → name.length < (propertyName name).length) := by
  have quoted := groovy.length_literalChars name.toList
  unfold propertyName
  cases isIdentifier name with
  | true => simp
  | false =>
      have literal : (groovy.stringLiteral name).length =
          (groovy.literalChars name.toList).length := by
        rw [stringLiteral, ← String.length_toList, String.toList_ofList]
      rw [String.length_toList] at quoted
      simp only [Bool.false_eq_true, if_false, literal]
      omega

theorem length_joined_le (names : List String) :
    (".".intercalate names).length ≤ (".".intercalate (names.map propertyName)).length ∧
      ((∃ name ∈ names, isIdentifier name = false) →
        (".".intercalate names).length <
          (".".intercalate (names.map propertyName)).length) := by
  induction names with
  | nil => simp
  | cons first rest ih =>
      obtain ⟨grows, growsIfOdd⟩ := length_propertyName first
      cases rest with
      | nil => simpa using ⟨grows, growsIfOdd⟩
      | cons second others =>
          obtain ⟨othersGrow, othersGrowIfOdd⟩ := ih
          simp only [List.map_cons, String.intercalate_cons_cons, String.length_append]
            at othersGrow othersGrowIfOdd ⊢
          refine ⟨by omega, ?_⟩
          rintro ⟨name, isName, odd⟩
          rcases List.mem_cons.mp isName with rfl | isOther
          · have longer := growsIfOdd odd
            omega
          · have longer := othersGrowIfOdd ⟨name, isOther, odd⟩
            omega

/-- Quoting makes a reference longer than the name, and so does a receiver. -/
theorem length_groovyReferenceText {reference : Reference}
    (odd : ∃ part ∈ reference.segments, isIdentifier part = false) :
    reference.dottedPath.length < (groovy.referenceText reference).length := by
  obtain ⟨grows, growsIfOdd⟩ := length_joined_le reference.segments
  have longer := growsIfOdd odd
  unfold Reference.dottedPath referenceText referenceParts
  cases parts : reference.segments with
  | nil => exact (reference.segments_ne_nil parts).elim
  | cons first rest =>
      rw [parts] at grows longer
      dsimp only
      split
      · exact longer
      · rw [List.map_cons, String.intercalate_cons_cons, String.length_append]
        rw [List.map_cons] at longer
        omega

theorem groovy_declaredName_eq_iff (name : String) :
    groovy.declaredName name = groovy.referenceText (.ofPath name) ↔
      groovy.RefersAsDeclared name := by
  have joined : (Reference.ofPath name).dottedPath = name := Reference.dottedPath_ofPath name
  constructor
  · intro same part isPart
    cases plain : isIdentifier part with
    | true => rfl
    | false =>
        have longer := length_groovyReferenceText ⟨part, isPart, plain⟩
        rw [joined, ← same] at longer
        exact (Nat.lt_irrefl _ longer).elim
  · intro plain
    rw [groovy.referenceText_of_identifiers plain, joined]
    rfl

/-- A name is spelled alike in its declaration and in a reference exactly if the reference
is a single name in Kotlin, and consists of plain identifiers in Groovy. -/
theorem declaredName_eq_iff (language : Language) (name : String) :
    language.declaredName name = language.referenceText (.ofPath name) ↔
      language.RefersAsDeclared name := by
  cases language with
  | kotlin => exact kotlin_declaredName_eq_iff name
  | groovy => exact groovy_declaredName_eq_iff name

end Language

end BuildScribe
