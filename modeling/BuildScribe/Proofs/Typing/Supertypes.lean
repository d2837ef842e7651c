import BuildScribe.Proofs.Typing.Assignability
import BuildScribe.Proofs.Typing.Registrations

/-!
# Common supertypes

The common supertype of several types is looked up by the short name of the top type. As long
as no registration takes that name for another type, all of the types are assignable to it:
it is the top type, made nullable if one of them is.
-/

namespace BuildScribe

/-- Whether a type is equal to the top type. -/
def ScriptType.IsTop (type : ScriptType) : Prop :=
  type.same (.named ScriptType.anyName) = true

instance : DecidablePred ScriptType.IsTop :=
  fun type => inferInstanceAs (Decidable (type.same _ = true))

namespace ScriptType

theorem IsTop.exists_eq_simple {type : ScriptType} (isTop : type.IsTop) :
    ∃ name parameters, type = simple name anyName parameters := by
  cases type with
  | simple name qualifiedName parameters =>
      obtain rfl : qualifiedName = anyName := by simpa [IsTop, same, named] using isTop
      exact ⟨name, parameters, rfl⟩
  | _ => simp [IsTop, same, named] at isTop

theorem IsTop.isNullable_eq {top : ScriptType} (isTop : top.IsTop) : top.isNullable = false := by
  obtain ⟨name, parameters, rfl⟩ := isTop.exists_eq_simple
  rfl

theorem IsTop.isNullable_orNull {top : ScriptType} (isTop : top.IsTop) :
    top.orNull.isNullable = true := by
  obtain ⟨name, parameters, rfl⟩ := isTop.exists_eq_simple
  rfl

theorem IsTop.accepts {top type : ScriptType} (isTop : top.IsTop)
    (notNullable : type.isNullable = false) : top.accepts type = true := by
  obtain ⟨name, parameters, rfl⟩ := isTop.exists_eq_simple
  exact accepts_of_anyName notNullable

/-- The nullable top type accepts all types that are not nullable below one level. -/
theorem IsTop.orNull_accepts {top type : ScriptType} (isTop : top.IsTop)
    (flat : type.nonNull.isNullable = false) : top.orNull.accepts type = true := by
  obtain ⟨name, parameters, rfl⟩ := isTop.exists_eq_simple
  rw [orNull, ScriptType.accepts]
  · exact accepts_of_anyName flat
  · rintro _ ⟨⟩

end ScriptType

namespace TypeRegistry

/-- Whether the short name of the top type leads to no other type. -/
def KeepsTop (registry : TypeRegistry) : Prop :=
  ∀ type, registry.resolve? "Any" = some type → type.IsTop

namespace KeepsTop

variable {registry : TypeRegistry} {type : ScriptType} {types : List ScriptType}

theorem empty : TypeRegistry.empty.KeepsTop := by
  intro type found
  cases found

theorem register (keepsTop : registry.KeepsTop) (top : type.GoesBy "Any" → type.IsTop) :
    (registry.register type).KeepsTop := by
  intro known found
  rw [resolve?_register] at found
  split at found
  · next goesBy =>
      cases found
      exact top goesBy
  · exact keepsTop known found

theorem registerAll (keepsTop : registry.KeepsTop)
    (tops : ∀ type ∈ types, type.GoesBy "Any" → type.IsTop) :
    (registry.registerAll types).KeepsTop :=
  List.foldlRecOn types _ keepsTop fun _ before type isType => before.register (tops type isType)

theorem standard : TypeRegistry.standard.KeepsTop :=
  empty.registerAll (by decide)

theorem language (language : Language) : language.types.KeepsTop := by
  cases language with
  | kotlin => exact standard
  | groovy => exact standard.register (by decide)

theorem isTop_wellKnown (keepsTop : registry.KeepsTop) :
    (registry.wellKnown "Any" ScriptType.anyName).IsTop := by
  rw [wellKnown]
  cases found : registry.resolve? "Any" with
  | none => decide
  | some type => exact keepsTop type found

end KeepsTop

variable {registry : TypeRegistry} {types : List ScriptType}

theorem commonSupertype_cons_cons (registry : TypeRegistry) (first second : ScriptType)
    (rest : List ScriptType) :
    registry.commonSupertype (first :: second :: rest) =
      if (first :: second :: rest).any ScriptType.isNullable then
        (registry.wellKnown "Any" ScriptType.anyName).orNull
      else registry.wellKnown "Any" ScriptType.anyName := rfl

theorem KeepsTop.isSubtype_commonSupertype (keepsTop : registry.KeepsTop)
    (flat : ∀ type ∈ types, type.nonNull.isNullable = false) {type : ScriptType}
    (isListed : type ∈ types) :
    registry.isSubtype type (registry.commonSupertype types) = true := by
  have isTop := keepsTop.isTop_wellKnown
  match types with
  | [only] =>
      rw [List.mem_singleton.mp isListed]
      exact only.accepts_refl
  | first :: second :: rest =>
      rw [isSubtype, commonSupertype_cons_cons]
      split
      · exact isTop.orNull_accepts (flat type isListed)
      · next noneNullable =>
          rw [List.any_eq_true] at noneNullable
          apply isTop.accepts
          rw [Bool.eq_false_iff]
          exact fun isNullable => noneNullable ⟨type, isListed, isNullable⟩

theorem KeepsTop.isNullable_commonSupertype (keepsTop : registry.KeepsTop)
    (several : 2 ≤ types.length) :
    (registry.commonSupertype types).isNullable = types.any ScriptType.isNullable := by
  have isTop := keepsTop.isTop_wellKnown
  match types with
  | [only] => simp at several
  | first :: second :: rest =>
      rw [commonSupertype_cons_cons]
      split
      · next someNullable => rw [isTop.isNullable_orNull, someNullable]
      · next noneNullable => rw [isTop.isNullable_eq, Bool.eq_false_iff.mpr noneNullable]

/-- In every registry that is made by registrations, of which none takes the short name of the
top type for another type, the common supertype of types that are nullable at most once is
above all of them. That of several types is nullable if and only if one of them is. -/
theorem commonSupertype_isUpperBound {start : TypeRegistry}
    (begun : start = empty ∨ start = standard ∨ ∃ language : Language, start = language.types)
    {registered : List ScriptType}
    (tops : ∀ type ∈ registered, type.GoesBy "Any" → type.IsTop) {types : List ScriptType}
    (flat : ∀ type ∈ types, type.nonNull.isNullable = false) :
    (∀ type ∈ types, (start.registerAll registered).isSubtype type
      ((start.registerAll registered).commonSupertype types) = true) ∧
    (2 ≤ types.length →
      (((start.registerAll registered).commonSupertype types).isNullable = true ↔
        ∃ type ∈ types, type.isNullable = true)) := by
  have begins : start.KeepsTop := by
    rcases begun with rfl | rfl | ⟨language, rfl⟩
    · exact .empty
    · exact .standard
    · exact .language language
  have keepsTop := begins.registerAll tops
  constructor
  · exact fun type isListed => keepsTop.isSubtype_commonSupertype flat isListed
  · intro several
    rw [keepsTop.isNullable_commonSupertype several, List.any_eq_true]

/-- The top type may be registered anew, and arguments may be nullable in any case. -/
theorem commonSupertype_of_nullable_and_generic :
    let registered : List ScriptType := [.simple "Any" "kotlin.Any" [.mk "T" []], .named "Task"]
    let registry := Language.groovy.types.registerAll registered
    let listed : ScriptType := .generic (.named "List") [.nullable (.nullable (.named "Int"))]
    let types : List ScriptType := [listed, .nullable (.named "Task")]
    registry.isSubtype listed (registry.commonSupertype types) = true ∧
      (registry.commonSupertype types).isNullable = true := by
  intro registered registry listed types
  have tops : ∀ type ∈ registered, type.GoesBy "Any" → type.IsTop := by decide
  have flat : ∀ type ∈ types, type.nonNull.isNullable = false := by decide
  obtain ⟨above, nullable⟩ :=
    commonSupertype_isUpperBound (.inr (.inr ⟨.groovy, rfl⟩)) tops flat
  exact ⟨above listed List.mem_cons_self,
    (nullable (by decide)).mpr ⟨.nullable (.named "Task"), by simp [types], rfl⟩⟩

/-- Not even the nullable top type accepts a type that is nullable twice. -/
example : TypeRegistry.standard.isSubtype (.nullable (.nullable (.named "Int")))
    (TypeRegistry.standard.commonSupertype
      [.nullable (.nullable (.named "Int")), .named "Int"]) = false := by decide

end TypeRegistry

end BuildScribe
