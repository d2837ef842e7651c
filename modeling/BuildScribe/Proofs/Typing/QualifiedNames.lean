import BuildScribe.Proofs.Typing.Assignability

/-!
# Reading qualified names

A qualified name is read from left to right. A simple name goes on to the next character
that types are put together with, a question mark or a list of arguments belongs to all of
the type in front of it, and a list of arguments ends where the types in it do. So the text
tells the type, as far as equality of types looks at it.
-/

namespace BuildScribe

/-- The characters that types are put together with. -/
def typeMarks : List Char := ['<', '>', ',', '?']

/-- Whether a name can be told from what types are put together with. -/
def IsPlainName (name : String) : Prop :=
  name ≠ "" ∧ ∀ c ∈ name.toList, c ∉ typeMarks

instance : DecidablePred IsPlainName := fun name =>
  decidable_of_iff (name ≠ "" ∧ name.toList.all (· ∉ typeMarks) = true)
    (by simp [IsPlainName])

/-- Generic types whose arguments are being read, the innermost first: their bases and the
arguments so far. -/
abbrev OpenTypes := List (ScriptType × List ScriptType)

/-- How far a qualified name has been read. -/
inductive NameReading where
  /-- A type is to begin. -/
  | opened (around : OpenTypes)
  /-- A type has been read, which may go on. -/
  | upTo (type : ScriptType) (around : OpenTypes)
  /-- The blank behind a comma is due. -/
  | behindComma (around : OpenTypes)

namespace NameReading

open ScriptType

/-- What a character that types are put together with ends, opens or goes on with. -/
def mark? : NameReading → Char → Option NameReading
  | opened ((base, []) :: around), '>' => some (upTo (generic base []) around)
  | upTo type around, '?' => some (upTo (nullable type) around)
  | upTo type around, '<' => some (opened ((type, []) :: around))
  | upTo type ((base, before) :: around), ',' =>
      some (behindComma ((base, before ++ [type]) :: around))
  | upTo type ((base, before) :: around), '>' =>
      some (upTo (generic base (before ++ [type])) around)
  | _, _ => none

/-- What any other character begins or goes on with. -/
def letter? : NameReading → Char → Option NameReading
  | opened around, c => some (upTo (named (.singleton c)) around)
  | upTo (simple name _ _) around, c => some (upTo (named (name.push c)) around)
  | behindComma around, ' ' => some (opened around)
  | _, _ => none

/-- Reads one more character, if it may stand there. -/
def next? (state : NameReading) (c : Char) : Option NameReading :=
  if c ∈ typeMarks then state.mark? c else state.letter? c

def read? (state : NameReading) (text : List Char) : Option NameReading :=
  text.foldlM next? state

theorem read?_append (state : NameReading) (first second : List Char) :
    state.read? (first ++ second) = (state.read? first).bind (·.read? second) :=
  List.foldlM_append

theorem read?_cons (state : NameReading) (c : Char) (rest : List Char) :
    state.read? (c :: rest) = (state.next? c).bind (·.read? rest) := by
  rw [read?, List.foldlM_cons]
  rfl

theorem read?_rest {rest : List Char} (unmarked : ∀ c ∈ rest, c ∉ typeMarks) (name : String)
    (around : OpenTypes) :
    (upTo (named name) around).read? rest =
      some (upTo (named (name ++ .ofList rest)) around) := by
  induction rest generalizing name with
  | nil => simp [read?]
  | cons c rest ih =>
      rw [List.forall_mem_cons] at unmarked
      have goesOn : (upTo (named name) around).next? c =
          some (upTo (named (name.push c)) around) := if_neg unmarked.1
      have joined : name.push c ++ .ofList rest = name ++ .ofList (c :: rest) :=
        String.toList_injective (by simp)
      rw [read?_cons, goesOn, Option.bind_some, ih unmarked.2, joined]

/-- A simple name is read up to its end. -/
theorem read?_name {name : String} (plain : IsPlainName name) (around : OpenTypes) :
    (opened around).read? name.toList = some (upTo (named name) around) := by
  obtain ⟨nonempty, unmarked⟩ := plain
  cases letters : name.toList with
  | nil => exact absurd (String.toList_eq_nil_iff.mp letters) nonempty
  | cons c rest =>
      rw [letters, List.forall_mem_cons] at unmarked
      have begun : (opened around).next? c = some (upTo (named (.singleton c)) around) :=
        if_neg unmarked.1
      have whole : String.singleton c ++ .ofList rest = name :=
        String.toList_injective (by simp [letters])
      rw [read?_cons, begun, Option.bind_some, read?_rest unmarked.2, whole]

end NameReading

namespace ScriptType

mutual

/-- The qualified names of the simple types in a type. -/
def simpleNames : ScriptType → List String
  | simple _ qualifiedName _ => [qualifiedName]
  | generic base arguments => base.simpleNames ++ simpleNamesList arguments
  | nullable inner => inner.simpleNames

def simpleNamesList : List ScriptType → List String
  | [] => []
  | type :: rest => type.simpleNames ++ simpleNamesList rest

end

/-- The qualified names of the arguments of a type, with commas between them. -/
def argumentsText (arguments : List ScriptType) : String :=
  joinArguments (textByList (fun _ qualified => qualified) "?" arguments)

theorem qualifiedName_generic (base : ScriptType) (arguments : List ScriptType) :
    (generic base arguments).qualifiedName =
      base.qualifiedName ++ "<" ++ argumentsText arguments ++ ">" := by
  rw [qualifiedName, textBy]
  rfl

theorem qualifiedName_nullable (inner : ScriptType) :
    (nullable inner).qualifiedName = inner.qualifiedName ++ "?" := by
  rw [qualifiedName, textBy]
  rfl

theorem argumentsText_single (type : ScriptType) :
    argumentsText [type] = type.qualifiedName := by
  simp [argumentsText, joinArguments, textByList, qualifiedName]

theorem argumentsText_cons_cons (first second : ScriptType) (rest : List ScriptType) :
    argumentsText (first :: second :: rest) =
      first.qualifiedName ++ ", " ++ argumentsText (second :: rest) := by
  simp [argumentsText, joinArguments, textByList, qualifiedName]

open NameReading

mutual

/-- A type is read up to its end, wherever it begins. -/
theorem read?_qualifiedName : (type : ScriptType) →
    (∀ name ∈ type.simpleNames, IsPlainName name) → (around : OpenTypes) →
      (opened around).read? type.qualifiedName.toList = some (upTo type.nominal around)
  | simple name qualified parameters, plain, around => by
      rw [simpleNames, List.forall_mem_singleton] at plain
      exact read?_name plain around
  | generic base arguments, plain, around => by
      rw [simpleNames, List.forall_mem_append] at plain
      have text : (generic base arguments).qualifiedName.toList =
          base.qualifiedName.toList ++ '<' :: ((argumentsText arguments).toList ++ ['>']) := by
        simp [qualifiedName_generic]
      rw [text, read?_append, read?_qualifiedName base plain.1, Option.bind_some, read?_cons]
      exact read?_arguments arguments plain.2 base.nominal [] around (.inr rfl)
  | nullable inner, plain, around => by
      have text : (nullable inner).qualifiedName.toList = inner.qualifiedName.toList ++ ['?'] := by
        simp [qualifiedName_nullable]
      rw [text, read?_append, read?_qualifiedName inner plain]
      rfl

/-- The rest of a list of arguments is read up to the end of the list. Behind a comma there is
at least one more. -/
theorem read?_arguments : (types : List ScriptType) →
    (∀ name ∈ simpleNamesList types, IsPlainName name) →
    (base : ScriptType) → (before : List ScriptType) → (around : OpenTypes) →
    types ≠ [] ∨ before = [] →
      (opened ((base, before) :: around)).read? ((argumentsText types).toList ++ ['>']) =
        some (upTo (generic base (before ++ nominalList types)) around)
  | [], _, base, before, around, more => by
      obtain rfl := more.resolve_left (absurd rfl)
      rfl
  | [type], plain, base, before, around, _ => by
      rw [simpleNamesList, List.forall_mem_append] at plain
      rw [argumentsText_single, read?_append, read?_qualifiedName type plain.1]
      rfl
  | first :: second :: rest, plain, base, before, around, _ => by
      rw [simpleNamesList, List.forall_mem_append] at plain
      have text : (argumentsText (first :: second :: rest)).toList ++ ['>'] =
          first.qualifiedName.toList ++
            ',' :: ' ' :: ((argumentsText (second :: rest)).toList ++ ['>']) := by
        simp [argumentsText_cons_cons]
      have onRest := read?_arguments (second :: rest) plain.2 base
        (before ++ [first.nominal]) around (.inl (List.cons_ne_nil second rest))
      rw [List.append_assoc] at onRest
      rw [text, read?_append, read?_qualifiedName first plain.1, Option.bind_some, read?_cons,
        nominalList]
      exact onRest

end

mutual

theorem qualifiedName_nominal (type : ScriptType) :
    type.nominal.qualifiedName = type.qualifiedName := by
  cases type with
  | simple name qualified parameters => rfl
  | generic base arguments =>
      rw [nominal, qualifiedName_generic, qualifiedName_generic, qualifiedName_nominal base,
        argumentsText, argumentsText, textByList_nominalList arguments]
  | nullable inner =>
      rw [nominal, qualifiedName_nullable, qualifiedName_nullable,
        qualifiedName_nominal inner]

theorem textByList_nominalList (types : List ScriptType) :
    textByList (fun _ qualified => qualified) "?" (nominalList types) =
      textByList (fun _ qualified => qualified) "?" types := by
  cases types with
  | nil => rfl
  | cons type rest =>
      rw [nominalList, textByList, textByList, textByList_nominalList rest]
      exact congrArg (· :: _) (qualifiedName_nominal type)

end

/-- Types whose simple types are plainly named are equal if and only if their qualified
names are. -/
theorem same_iff_qualifiedName_eq {left right : ScriptType}
    (plain : ∀ name ∈ left.simpleNames, IsPlainName name)
    (otherPlain : ∀ name ∈ right.simpleNames, IsPlainName name) :
    left.same right = true ↔ left.qualifiedName = right.qualifiedName := by
  rw [same_iff_nominal_eq]
  constructor
  · intro sameNominal
    rw [← qualifiedName_nominal left, sameNominal, qualifiedName_nominal]
  · intro sameText
    have onLeft := read?_qualifiedName left plain []
    have onRight := read?_qualifiedName right otherPlain []
    rw [sameText, onRight] at onLeft
    exact (NameReading.upTo.inj (Option.some.inj onLeft)).1.symm

/-- Short names make no difference, but it does whether a base or the generic type itself is
nullable. -/
theorem same_of_nested_types :
    (generic (nullable (named "A")) [simple "I" "k.Int" [], generic (named "B") []]).same
        (generic (nullable (named "A")) [simple "J" "k.Int" [], generic (named "B") []]) =
      true ∧
    (generic (named "A") [nullable (generic (named "B") [])]).same
        (generic (named "A") [generic (nullable (named "B")) []]) = false := by
  constructor
  · exact (same_iff_qualifiedName_eq (by decide) (by decide)).mpr (by decide)
  · rw [Bool.eq_false_iff]
    intro same
    exact absurd ((same_iff_qualifiedName_eq (by decide) (by decide)).mp same) (by decide)

/-- A list of arguments reads the same without arguments and with an empty name. -/
example : (generic (named "A") [named ""]).qualifiedName =
    (generic (named "A") []).qualifiedName := by decide

end ScriptType

end BuildScribe
