import BuildScribe.Typing.ScriptType

/-!
# Assignability is a partial order

Two types are the same when nothing but their short names and declared parameters
tells them apart. Assignability does not see that difference either, and up to it
the relation is reflexive, transitive and antisymmetric on all types, those with
several levels of nullability included.
-/

namespace BuildScribe

namespace ScriptType

mutual

/-- The type with its qualified names only. -/
def nominal : ScriptType → ScriptType
  | simple _ qualifiedName _ => named qualifiedName
  | generic base arguments => generic base.nominal (nominalList arguments)
  | nullable inner => nullable inner.nominal

def nominalList : List ScriptType → List ScriptType
  | [] => []
  | type :: rest => type.nominal :: nominalList rest

end

mutual

theorem same_iff_nominal_eq (left right : ScriptType) :
    left.same right = true ↔ left.nominal = right.nominal := by
  cases left with
  | simple name qualifiedName parameters =>
      cases right <;> simp [same, nominal, named]
  | generic base arguments =>
      cases right with
      | generic otherBase otherArguments =>
          simp [same, nominal, same_iff_nominal_eq base otherBase,
            sameList_iff_nominalList_eq arguments otherArguments]
      | _ => simp [same, nominal, named]
  | nullable inner =>
      cases right with
      | nullable otherInner =>
          simp [same, nominal, same_iff_nominal_eq inner otherInner]
      | _ => simp [same, nominal, named]

theorem sameList_iff_nominalList_eq (lefts rights : List ScriptType) :
    sameList lefts rights = true ↔ nominalList lefts = nominalList rights := by
  cases lefts with
  | nil => cases rights <;> simp [sameList, nominalList]
  | cons left lefts =>
      cases rights with
      | nil => simp [sameList, nominalList]
      | cons right rights =>
          simp [sameList, nominalList, same_iff_nominal_eq left right,
            sameList_iff_nominalList_eq lefts rights]

end

theorem nonNull_nominal (type : ScriptType) :
    type.nominal.nonNull = type.nonNull.nominal := by
  cases type <;> rfl

mutual

theorem nominal_nominal (type : ScriptType) : type.nominal.nominal = type.nominal := by
  cases type with
  | simple name qualifiedName parameters => rfl
  | generic base arguments =>
      simp [nominal, nominal_nominal base, nominalList_nominalList arguments]
  | nullable inner => simp [nominal, nominal_nominal inner]

theorem nominalList_nominalList (types : List ScriptType) :
    nominalList (nominalList types) = nominalList types := by
  cases types with
  | nil => rfl
  | cons type rest =>
      simp [nominalList, nominal_nominal type, nominalList_nominalList rest]

end

theorem same_nominal (left right : ScriptType) :
    left.nominal.same right.nominal = left.same right := by
  rw [Bool.eq_iff_iff, same_iff_nominal_eq, same_iff_nominal_eq, nominal_nominal,
    nominal_nominal]

mutual

theorem accepts_nominal (target source : ScriptType) :
    target.nominal.accepts source.nominal = target.accepts source := by
  cases target with
  | simple name qualifiedName parameters =>
      cases source <;> simp [accepts, nominal, named]
  | generic base arguments =>
      cases source with
      | generic otherBase otherArguments =>
          simp [accepts, nominal, same_nominal,
            acceptsList_nominalList arguments otherArguments]
      | _ => simp [accepts, nominal, named]
  | nullable inner =>
      simp [accepts, nominal, nonNull_nominal, accepts_nominal inner]

theorem acceptsList_nominalList (targets sources : List ScriptType) :
    acceptsList (nominalList targets) (nominalList sources) =
      acceptsList targets sources := by
  cases targets with
  | nil => cases sources <;> simp [acceptsList, nominalList]
  | cons target targets =>
      cases sources with
      | nil => simp [acceptsList, nominalList]
      | cons source sources =>
          simp [acceptsList, nominalList, accepts_nominal target source,
            acceptsList_nominalList targets sources]

end

/-- Types that are the same are interchangeable on both sides. -/
theorem accepts_congr {target otherTarget source otherSource : ScriptType}
    (sameTarget : target.same otherTarget = true)
    (sameSource : source.same otherSource = true) :
    target.accepts source = otherTarget.accepts otherSource := by
  rw [← accepts_nominal target, ← accepts_nominal otherTarget,
    (same_iff_nominal_eq _ _).mp sameTarget, (same_iff_nominal_eq _ _).mp sameSource]

theorem same_equivalence : Equivalence fun left right : ScriptType =>
    left.same right = true := by
  constructor
  · intro type
    exact (same_iff_nominal_eq type type).mpr rfl
  · intro left right areSame
    rw [same_iff_nominal_eq] at areSame ⊢
    exact areSame.symm
  · intro first second third firstSame secondSame
    rw [same_iff_nominal_eq] at firstSame secondSame ⊢
    exact firstSame.trans secondSame

theorem same_refl (type : ScriptType) : type.same type = true :=
  same_equivalence.refl type

mutual

theorem accepts_refl (type : ScriptType) : type.accepts type = true := by
  cases type with
  | simple name qualifiedName parameters => simp [accepts]
  | generic base arguments => simp [accepts, same_refl, acceptsList_refl arguments]
  | nullable inner => simpa [accepts, nonNull] using accepts_refl inner

theorem acceptsList_refl (types : List ScriptType) :
    acceptsList types types = true := by
  cases types with
  | nil => rfl
  | cons type rest => simp [acceptsList, accepts_refl type, acceptsList_refl rest]

end

/-- Only nullable types accept nullable types. -/
theorem isNullable_of_accepts {target source : ScriptType}
    (accepted : target.accepts source = true)
    (nullableSource : source.isNullable = true) :
    target.isNullable = true := by
  cases source with
  | nullable inner => cases target <;> simp_all [accepts, isNullable]
  | _ => simp [isNullable] at nullableSource

theorem accepts_nonNull {target source : ScriptType}
    (accepted : target.accepts source = true) :
    target.nonNull.accepts source.nonNull = true := by
  cases target with
  | nullable inner => simpa [accepts, nonNull] using accepted
  | _ =>
      cases source with
      | nullable inner => simp [accepts] at accepted
      | _ => exact accepted

theorem accepts_of_anyName {name : String} {parameters : List TypeParameter}
    {source : ScriptType} (notNullable : source.isNullable = false) :
    (simple name anyName parameters).accepts source = true := by
  cases source with
  | nullable inner => simp [isNullable] at notNullable
  | _ => simp [accepts]

theorem accepts_trans_of_simple {name qualifiedName : String}
    {parameters : List TypeParameter} {second third : ScriptType}
    (firstAccepts : (simple name qualifiedName parameters).accepts second = true)
    (secondAccepts : second.accepts third = true) :
    (simple name qualifiedName parameters).accepts third = true := by
  have secondPlain : second.isNullable = false := by
    cases second with
    | nullable inner => simp [accepts] at firstAccepts
    | _ => rfl
  have thirdPlain : third.isNullable = false := by
    cases known : third.isNullable with
    | false => rfl
    | true =>
        have secondNullable := isNullable_of_accepts secondAccepts known
        rw [secondPlain] at secondNullable
        cases secondNullable
  by_cases isTop : qualifiedName = anyName
  · subst isTop
    exact accepts_of_anyName thirdPlain
  · cases second with
    | simple secondName secondQualified secondParameters =>
        have equality : qualifiedName = secondQualified := by
          simpa [accepts, isTop] using firstAccepts
        subst equality
        exact secondAccepts
    | generic base arguments => simp [accepts, isTop] at firstAccepts
    | nullable inner => simp [accepts] at firstAccepts

mutual

theorem accepts_trans {first second third : ScriptType}
    (firstAccepts : first.accepts second = true)
    (secondAccepts : second.accepts third = true) :
    first.accepts third = true := by
  cases first with
  | simple name qualifiedName parameters =>
      exact accepts_trans_of_simple firstAccepts secondAccepts
  | generic base arguments =>
      cases second with
      | generic secondBase secondArguments =>
          cases third with
          | generic thirdBase thirdArguments =>
              simp only [accepts, Bool.and_eq_true]
                at firstAccepts secondAccepts ⊢
              exact ⟨same_equivalence.trans firstAccepts.1 secondAccepts.1,
                acceptsList_trans firstAccepts.2 secondAccepts.2⟩
          | _ => simp [accepts] at secondAccepts
      | _ => simp [accepts] at firstAccepts
  | nullable inner =>
      rw [accepts] at firstAccepts ⊢
      exact accepts_trans firstAccepts (accepts_nonNull secondAccepts)

theorem acceptsList_trans {first second third : List ScriptType}
    (firstAccepts : acceptsList first second = true)
    (secondAccepts : acceptsList second third = true) :
    acceptsList first third = true := by
  cases first with
  | nil =>
      cases second with
      | nil => exact secondAccepts
      | cons type rest => simp [acceptsList] at firstAccepts
  | cons target targets =>
      cases second with
      | nil => simp [acceptsList] at firstAccepts
      | cons middle middles =>
          cases third with
          | nil => simp [acceptsList] at secondAccepts
          | cons source sources =>
              simp only [acceptsList, Bool.and_eq_true]
                at firstAccepts secondAccepts ⊢
              exact ⟨accepts_trans firstAccepts.1 secondAccepts.1,
                acceptsList_trans firstAccepts.2 secondAccepts.2⟩

end

/-- A simple type and a type accept each other only if they have the same name: the
top type is accepted by itself alone. -/
theorem same_of_accepts_simple {name qualifiedName : String}
    {parameters : List TypeParameter} {other : ScriptType}
    (forward : (simple name qualifiedName parameters).accepts other = true)
    (backward : other.accepts (simple name qualifiedName parameters) = true) :
    (simple name qualifiedName parameters).same other = true := by
  cases other with
  | simple otherName otherQualified otherParameters =>
      simp only [accepts, Bool.or_eq_true, beq_iff_eq] at forward backward
      simp only [same, beq_iff_eq]
      rcases forward with isTop | equality
      · rcases backward with otherTop | equality
        · exact isTop.trans otherTop.symm
        · exact equality.symm
      · exact equality
  | generic base arguments => simp [accepts] at backward
  | nullable inner => simp [accepts] at forward

mutual

theorem same_of_accepts_of_accepts {left right : ScriptType}
    (forward : left.accepts right = true) (backward : right.accepts left = true) :
    left.same right = true := by
  cases left with
  | simple name qualifiedName parameters =>
      exact same_of_accepts_simple forward backward
  | generic base arguments =>
      cases right with
      | generic otherBase otherArguments =>
          simp only [accepts, Bool.and_eq_true] at forward backward
          simp only [same, Bool.and_eq_true]
          exact ⟨forward.1,
            sameList_of_acceptsList_of_acceptsList forward.2 backward.2⟩
      | _ => simp [accepts] at forward
  | nullable inner =>
      have rightNullable := isNullable_of_accepts backward rfl
      cases right with
      | nullable otherInner =>
          rw [accepts] at forward backward
          rw [same]
          exact same_of_accepts_of_accepts forward backward
      | _ => simp [isNullable] at rightNullable

theorem sameList_of_acceptsList_of_acceptsList {lefts rights : List ScriptType}
    (forward : acceptsList lefts rights = true)
    (backward : acceptsList rights lefts = true) :
    sameList lefts rights = true := by
  cases lefts with
  | nil =>
      cases rights with
      | nil => rfl
      | cons right rights => simp [acceptsList] at forward
  | cons left lefts =>
      cases rights with
      | nil => simp [acceptsList] at forward
      | cons right rights =>
          simp only [acceptsList, Bool.and_eq_true] at forward backward
          simp only [sameList, Bool.and_eq_true]
          exact ⟨same_of_accepts_of_accepts forward.1 backward.1,
            sameList_of_acceptsList_of_acceptsList forward.2 backward.2⟩

end

/-- Assignability is a partial order on all types up to equality, which looks at
qualified names only, and equal types are interchangeable in it. -/
theorem accepts_partialOrder :
    (Equivalence fun left right : ScriptType => left.same right = true) ∧
    (∀ left right : ScriptType,
      left.same right = true ↔ left.nominal = right.nominal) ∧
    (∀ type : ScriptType, type.accepts type = true) ∧
    (∀ first second third : ScriptType, first.accepts second = true →
      second.accepts third = true → first.accepts third = true) ∧
    (∀ left right : ScriptType, left.accepts right = true →
      right.accepts left = true → left.same right = true) ∧
    (∀ target otherTarget source otherSource : ScriptType,
      target.same otherTarget = true → source.same otherSource = true →
        target.accepts source = otherTarget.accepts otherSource) :=
  ⟨same_equivalence, same_iff_nominal_eq, accepts_refl,
    fun _ _ _ => accepts_trans, fun _ _ => same_of_accepts_of_accepts,
    fun _ _ _ _ => accepts_congr⟩

/-- The top type as an argument takes in a generic one below two levels of
nullability, but not a nullable one. -/
theorem accepts_through_nullable_generic :
    (nullable (nullable (generic (named "List") [named anyName]))).accepts
        (generic (named "List") [generic (named "Set") [named "Int"]]) = true ∧
      (nullable (nullable (generic (named "List") [named anyName]))).accepts
        (generic (named "List") [nullable (named "Int")]) = false :=
  ⟨accepts_partialOrder.2.2.2.1 _
      (nullable (generic (named "List") [generic (named "Set") [named "Int"]])) _
      (by decide) (by decide),
    by decide⟩

end ScriptType

end BuildScribe
