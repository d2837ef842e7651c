import BuildScribe.Proofs.Target.Spelling

/-!
# Nullability in the two languages

Kotlin marks a nullable type with a question mark, Groovy leaves the mark out at every level.
As long as no name in a type contains a question mark, the Groovy text is the Kotlin text
without its question marks. Only an empty name that is made nullable has a text in Kotlin and
none in Groovy.
-/

namespace BuildScribe

def withoutQuestionMarks (text : String) : String :=
  String.ofList (text.toList.filter (· != '?'))

theorem withoutQuestionMarks_append (first second : String) :
    withoutQuestionMarks (first ++ second) =
      withoutQuestionMarks first ++ withoutQuestionMarks second := by
  simp [withoutQuestionMarks]

theorem withoutQuestionMarks_eq_self {text : String} (unmarked : '?' ∉ text.toList) :
    withoutQuestionMarks text = text := by
  have kept : text.toList.filter (· != '?') = text.toList := by
    rw [List.filter_eq_self]
    intro c member
    rw [bne_iff_ne]
    rintro rfl
    exact unmarked member
  rw [withoutQuestionMarks, kept, String.ofList_toList]

theorem withoutQuestionMarks_intercalate {separator : String}
    (unmarked : '?' ∉ separator.toList) (texts : List String) :
    withoutQuestionMarks (separator.intercalate texts) =
      separator.intercalate (texts.map withoutQuestionMarks) := by
  induction texts with
  | nil => rfl
  | cons first rest ih =>
      cases rest with
      | nil => simp
      | cons second others =>
          rw [List.map_cons] at ih
          rw [List.map_cons, List.map_cons, String.intercalate_cons_cons,
            String.intercalate_cons_cons, withoutQuestionMarks_append,
            withoutQuestionMarks_append, withoutQuestionMarks_eq_self unmarked, ih]

namespace ScriptType

mutual

/-- The short names that the text of a type is made of. -/
def shortNames : ScriptType → List String
  | simple name _ _ => [name]
  | generic base arguments => base.shortNames ++ shortNamesList arguments
  | nullable inner => inner.shortNames

def shortNamesList : List ScriptType → List String
  | [] => []
  | type :: rest => type.shortNames ++ shortNamesList rest

end

/-- Whether the type is an empty name, however many times it is made nullable. -/
def isNameless : ScriptType → Bool
  | simple name _ _ => name.isEmpty
  | generic _ _ => false
  | nullable inner => inner.isNameless

mutual

/-- Leaving the marks out of the text is the same as never writing them. -/
theorem textBy_unmarked : (type : ScriptType) →
    (∀ name ∈ type.shortNames, '?' ∉ name.toList) →
      type.textBy (fun short _ => short) "" =
        withoutQuestionMarks (type.textBy (fun short _ => short) "?")
  | simple name _ _, unmarked => by
      rw [shortNames, List.forall_mem_singleton] at unmarked
      rw [textBy, textBy, withoutQuestionMarks_eq_self unmarked]
  | generic base arguments, unmarked => by
      rw [shortNames, List.forall_mem_append] at unmarked
      rw [textBy, textBy, joinArguments, joinArguments, textBy_unmarked base unmarked.1,
        textByList_unmarked arguments unmarked.2]
      simp only [withoutQuestionMarks_append]
      rw [withoutQuestionMarks_intercalate (by decide),
        withoutQuestionMarks_eq_self (show '?' ∉ "<".toList by decide),
        withoutQuestionMarks_eq_self (show '?' ∉ ">".toList by decide)]
  | nullable inner, unmarked => by
      have onMark : withoutQuestionMarks "?" = "" := by decide
      rw [shortNames] at unmarked
      rw [textBy, textBy, textBy_unmarked inner unmarked, withoutQuestionMarks_append, onMark]

theorem textByList_unmarked : (types : List ScriptType) →
    (∀ name ∈ shortNamesList types, '?' ∉ name.toList) →
      textByList (fun short _ => short) "" types =
        (textByList (fun short _ => short) "?" types).map withoutQuestionMarks
  | [], _ => rfl
  | type :: rest, unmarked => by
      rw [shortNamesList, List.forall_mem_append] at unmarked
      rw [textByList, textByList, List.map_cons, textBy_unmarked type unmarked.1,
        textByList_unmarked rest unmarked.2]

end

end ScriptType

namespace Language

theorem groovy_typeText_eq {type : ScriptType}
    (unmarked : ∀ name ∈ type.shortNames, '?' ∉ name.toList) :
    groovy.typeText type = withoutQuestionMarks (kotlin.typeText type) :=
  type.textBy_unmarked unmarked

theorem groovy_typeText_eq_empty_iff :
    (type : ScriptType) → (groovy.typeText type = "" ↔ type.isNameless = true)
  | .simple _ _ _ => String.isEmpty_iff.symm
  | .generic base arguments => by
      simp [typeText, ScriptType.textBy, ScriptType.isNameless]
  | .nullable inner => by
      have onInner := groovy_typeText_eq_empty_iff inner
      rw [typeText] at onInner ⊢
      rw [ScriptType.textBy, String.append_empty, onInner, ScriptType.isNameless]

/-- Kotlin writes at least the mark for a type that is nullable. -/
theorem kotlin_typeText_eq_empty_iff (type : ScriptType) :
    kotlin.typeText type = "" ↔ type.isNameless = true ∧ type.isNullable = false := by
  rw [typeText, ScriptType.name]
  cases type with
  | simple name qualifiedName parameters =>
      simp [ScriptType.textBy, ScriptType.isNameless, ScriptType.isNullable]
  | generic base arguments => simp [ScriptType.textBy, ScriptType.isNameless]
  | nullable inner => simp [ScriptType.textBy, ScriptType.isNullable]

end Language

end BuildScribe
