import BuildScribe.Proofs.OrderedMap
import BuildScribe.Target.Language
import Mathlib.Data.Finset.Card

/-!
# What a registry answers

A registration enters a type under both of its names, wherever they were taken before. So a
name leads to the last type that was registered with it, short or qualified, and a registry
has as many entries as there are names.
-/

namespace BuildScribe

/-- Whether a type is found under a name once it is registered. -/
def ScriptType.GoesBy (type : ScriptType) (name : String) : Prop :=
  type.name = name ∨ type.qualifiedName = name

instance (type : ScriptType) : DecidablePred type.GoesBy :=
  fun _ => inferInstanceAs (Decidable (_ ∨ _))

namespace TypeRegistry

variable {registry : TypeRegistry} {types : List ScriptType} {name : String}

theorem resolve?_register (registry : TypeRegistry) (type : ScriptType) (name : String) :
    (registry.register type).resolve? name =
      if type.GoesBy name then some type else registry.resolve? name := by
  unfold register resolve?
  dsimp only
  by_cases short : type.name = name
  · have goesBy : type.GoesBy name := .inl short
    rw [if_pos goesBy, ← short, OrderedMap.get?_insert_self]
  · rw [OrderedMap.get?_insert_of_ne (Ne.symm short)]
    by_cases qualified : type.qualifiedName = name
    · have goesBy : type.GoesBy name := .inr qualified
      have apart : type.name ≠ type.qualifiedName := fun same => short (same.trans qualified)
      rw [if_pos goesBy, if_neg apart, ← qualified, OrderedMap.get?_insert_self]
    · have other : ¬type.GoesBy name := not_or.mpr ⟨short, qualified⟩
      rw [if_neg other]
      split
      · rfl
      · rw [OrderedMap.get?_insert_of_ne (Ne.symm qualified)]

/-- A name leads to the last type that was registered with it, or else to what it led to
before. -/
theorem resolve?_registerAll (registry : TypeRegistry) (types : List ScriptType)
    (name : String) :
    (registry.registerAll types).resolve? name =
      (types.reverse.find? fun type => type.GoesBy name).or (registry.resolve? name) := by
  induction types generalizing registry with
  | nil => rfl
  | cons type rest ih =>
      have step : registry.registerAll (type :: rest) =
          (registry.register type).registerAll rest := rfl
      rw [step, ih, resolve?_register, List.reverse_cons, List.find?_append, Option.or_assoc]
      by_cases goesBy : type.GoesBy name
      · simp [goesBy]
      · simp [goesBy]

theorem resolve?_registerAll_empty (types : List ScriptType) (name : String) :
    (empty.registerAll types).resolve? name =
      types.reverse.find? fun type => type.GoesBy name := by
  rw [resolve?_registerAll]
  exact Option.or_none

theorem nodup_keys_register (distinct : registry.types.keys.Nodup) (type : ScriptType) :
    (registry.register type).types.keys.Nodup := by
  apply OrderedMap.nodup_keys_insert
  split
  · exact distinct
  · exact OrderedMap.nodup_keys_insert distinct _ _

theorem nodup_keys_registerAll_empty (types : List ScriptType) :
    (empty.registerAll types).types.keys.Nodup :=
  List.foldlRecOn types _ (motive := fun registry : TypeRegistry => registry.types.keys.Nodup)
    List.nodup_nil fun _ distinct type _ => nodup_keys_register distinct type

theorem mem_keys_iff : name ∈ registry.types.keys ↔ registry.resolve? name ≠ none := by
  rw [resolve?, ne_eq, OrderedMap.get?_eq_none_iff, not_not]

theorem mem_keys_registerAll_empty :
    name ∈ (empty.registerAll types).types.keys ↔
      name ∈ types.flatMap fun type => [type.name, type.qualifiedName] := by
  rw [mem_keys_iff, resolve?_registerAll_empty, ne_eq, List.find?_eq_none, List.mem_flatMap]
  simp only [List.mem_reverse, decide_eq_true_eq, not_forall, not_not, exists_prop]
  refine exists_congr fun type => and_congr_right fun _ => ?_
  rw [List.mem_pair, ScriptType.GoesBy, eq_comm, eq_comm (a := type.qualifiedName)]

theorem size_registerAll_empty (types : List ScriptType) :
    (empty.registerAll types).size =
      (types.flatMap fun type => [type.name, type.qualifiedName]).toFinset.card := by
  have distinct := nodup_keys_registerAll_empty types
  have names : (empty.registerAll types).types.keys.toFinset =
      (types.flatMap fun type => [type.name, type.qualifiedName]).toFinset := by
    ext name
    rw [List.mem_toFinset, List.mem_toFinset, mem_keys_registerAll_empty]
  rw [← names, List.toFinset_card_of_nodup distinct, OrderedMap.keys, List.length_map]
  rfl

/-- A language starts with the registered standard types, and may add some. -/
theorem exists_registered (language : Language) :
    ∃ added, language.types = empty.registerAll (builtins ++ added) := by
  cases language with
  | kotlin => exact ⟨[], rfl⟩
  | groovy => exact ⟨[.simple "Object" "java.lang.Object" []], rfl⟩

/-- A name leads to the last type that was registered with it as its short or its qualified
name, and nowhere if there is none. There are as many entries as names. The registries that a
language starts with are made by registrations, too. -/
theorem answers_last_registration :
    (∀ (types : List ScriptType) (name : String) (type : ScriptType),
      (empty.registerAll types).resolve? name = some type ↔
        ∃ before later, types = before ++ type :: later ∧ type.GoesBy name ∧
          ∀ other ∈ later, ¬other.GoesBy name) ∧
    (∀ (types : List ScriptType) (name : String),
      (empty.registerAll types).resolve? name = none ↔ ∀ type ∈ types, ¬type.GoesBy name) ∧
    (∀ types : List ScriptType, (empty.registerAll types).size =
      (types.flatMap fun type => [type.name, type.qualifiedName]).toFinset.card) ∧
    standard = empty.registerAll builtins ∧
    ∀ language : Language,
      ∃ added, language.types = empty.registerAll (builtins ++ added) := by
  refine ⟨?_, ?_, size_registerAll_empty, rfl, exists_registered⟩
  · intro types name type
    rw [resolve?_registerAll_empty, List.find?_eq_some_iff_append]
    constructor
    · rintro ⟨goesBy, later, before, split, others⟩
      refine ⟨before.reverse, later.reverse, ?_, of_decide_eq_true goesBy, ?_⟩
      · simpa using congrArg List.reverse split
      · intro other isLater
        simpa using others other (List.mem_reverse.mp isLater)
    · rintro ⟨before, later, rfl, goesBy, others⟩
      refine ⟨decide_eq_true goesBy, later.reverse, before.reverse, by simp, ?_⟩
      intro other isLater
      simpa using others other (List.mem_reverse.mp isLater)
  · intro types name
    rw [resolve?_registerAll_empty, List.find?_eq_none]
    simp only [List.mem_reverse, decide_eq_true_eq]

/-- The second type takes one of the two names of the first one, and the first is still found
under the other. -/
theorem answers_of_shared_name :
    (empty.registerAll [.simple "A" "x.A" [], .simple "B" "A" []]).resolve? "A" =
        some (.simple "B" "A" []) ∧
      (empty.registerAll [.simple "A" "x.A" [], .simple "B" "A" []]).resolve? "x.A" =
        some (.simple "A" "x.A" []) ∧
      (empty.registerAll [.simple "A" "x.A" [], .simple "B" "A" []]).size = 3 := by
  obtain ⟨found, _, size, _⟩ := answers_last_registration
  refine ⟨?_, ?_, ?_⟩
  · exact (found _ "A" _).mpr ⟨[.simple "A" "x.A" []], [], rfl, by decide, by simp⟩
  · exact (found _ "x.A" _).mpr ⟨[], [.simple "B" "A" []], rfl, by decide, by decide⟩
  · exact (size _).trans (by decide)

end TypeRegistry

end BuildScribe
