import BuildScribe.Proofs.OrderedMap
import BuildScribe.Proofs.Scoping.Growth
import BuildScribe.Scoping.Scope
import Mathlib.Data.List.Nodup

/-!
# Lexical scoping

Scopes are opened and names are defined in them in any order. Every scope holds the symbols
of its successful definitions, in their order and each under a name of its own, so the first
symbol of a name stays for good. A lookup finds the symbol of the nearest scope that holds the
name; a definition can change only the lookups that reach its scope and find nothing nearer.
-/

namespace BuildScribe

/-- What happens to scopes. A definition comes with the name that it is for, which need not
be the name of the symbol. -/
inductive ScopeEvent where
  | root (name : String)
  | child (outer : Nat) (name : String)
  | defined (number : Nat) (key : String) (symbol : Symbol)
  | refused (number : Nat) (key : String) (symbol : Symbol)

namespace ScopeEvent

/-- What is around a new scope, and its name. -/
def creation? : ScopeEvent → Option (Option Nat × String)
  | root name => some (none, name)
  | child outer name => some (some outer, name)
  | defined .. | refused .. => none

/-- The name that is defined in a scope, with its symbol. -/
def definitionIn? (number : Nat) : ScopeEvent → Option (String × Symbol)
  | defined other key symbol => if other = number then some (key, symbol) else none
  | root .. | child .. | refused .. => none

/-- The symbol that a name gets in a scope. -/
def symbolOf? (number : Nat) (key : String) (event : ScopeEvent) : Option Symbol :=
  (event.definitionIn? number).bind (OrderedMap.valueFor? key)

def isRefused : ScopeEvent → Bool
  | refused .. => true
  | root .. | child .. | defined .. => false

/-- The part of an event that changes the forest of scopes. -/
def growth? : ScopeEvent → Option (Growth String (String × Symbol))
  | root name => some (.made none name)
  | child outer name => some (.made (some outer) name)
  | defined number key symbol => some (.changed number (key, symbol))
  | refused .. => none

theorem makings_growth (past : List ScopeEvent) :
    Growth.makings (past.filterMap growth?) = past.filterMap creation? := by
  rw [Growth.makings, List.filterMap_filterMap]
  congr 1
  funext event
  cases event <;> rfl

theorem mem_names_iff {past : List ScopeEvent} {number : Nat} {key : String} :
    key ∈ (past.filterMap (definitionIn? number)).map (·.1) ↔
      ∃ symbol, .defined number key symbol ∈ past := by
  rw [List.mem_map]
  constructor
  · intro named
    obtain ⟨⟨name, symbol⟩, isDefined, sameName⟩ := named
    obtain ⟨event, happened, defines⟩ := List.mem_filterMap.mp isDefined
    cases event with
    | defined other name symbol =>
        obtain ⟨sameScope, sameEntry⟩ := Option.ite_none_right_eq_some.mp defines
        cases sameEntry
        cases sameName
        exact ⟨symbol, sameScope ▸ happened⟩
    | _ => cases defines
  · intro defined
    obtain ⟨symbol, happened⟩ := defined
    exact ⟨(key, symbol), List.mem_filterMap.mpr ⟨_, happened, if_pos rfl⟩, rfl⟩

theorem changes_growth (past : List ScopeEvent) (number : Nat) :
    Growth.changes (past.filterMap growth?) number =
      past.filterMap (definitionIn? number) := by
  rw [Growth.changes, List.filterMap_filterMap]
  congr 1
  funext event
  cases event <;> rfl

end ScopeEvent

namespace Scope

/-- The scope with one more symbol. -/
def enter (scope : Scope) (entry : String × Symbol) : Scope :=
  { scope with symbols := scope.symbols.insert entry.1 entry.2 }

theorem foldl_enter (scope : Scope) (entries : List (String × Symbol)) :
    entries.foldl enter scope =
      { scope with symbols := scope.symbols.insertAll entries } :=
  List.foldl_hom (fun symbols => { scope with symbols := symbols }) fun _ _ => rfl

theorem define_of_new {scope : Scope} {key : String} (new : key ∉ scope.symbols.keys)
    (symbol : Symbol) : scope.define key symbol = .ok (scope.enter (key, symbol)) := by
  rw [← OrderedMap.contains_iff] at new
  rw [define, if_neg new]
  rfl

theorem define_of_known {scope : Scope} {key : String} (known : key ∈ scope.symbols.keys)
    (symbol : Symbol) :
    scope.define key symbol = .error (.duplicateSymbol key scope.name) := by
  rw [define, if_pos (OrderedMap.contains_iff.mpr known)]

end Scope

namespace ScopeForest

variable {scopes changed : ScopeForest} {number other : Nat} {key : String}
  {symbol : Symbol} {past : List ScopeEvent}

/-- The operations on scopes. Handles on scopes come from creating them, so every operation
is on scopes that are there. -/
inductive Next : ScopeForest → ScopeEvent → ScopeForest → Prop where
  | root {scopes : ScopeForest} (name : String) :
      Next scopes (.root name) (scopes.root name)
  | child {scopes : ScopeForest} {outer : Nat} (name : String) :
      outer < scopes.size → Next scopes (.child outer name) (scopes.child outer name)
  | defined {scopes changed : ScopeForest} {number : Nat} {key : String}
      {symbol : Symbol} :
      number < scopes.size → scopes.define number key symbol = .ok changed →
        Next scopes (.defined number key symbol) changed
  | refused {scopes : ScopeForest} {number : Nat} {key : String} {symbol : Symbol}
      {failure : Failure} :
      number < scopes.size → scopes.define number key symbol = .error failure →
        Next scopes (.refused number key symbol) scopes

/-- What a definition comes to, by whether its scope holds the name. -/
theorem define_eq {scope : Scope} (held : scopes.get? number = some scope) :
    scopes.define number key symbol =
      if key ∈ scope.symbols.keys then .error (.duplicateSymbol key scope.name)
      else .ok (scopes.modify number (·.enter (key, symbol))) := by
  rw [define, held]
  by_cases known : key ∈ scope.symbols.keys
  · rw [if_pos known]
    simp only [Scope.define_of_known known]
    rfl
  · rw [if_neg known]
    simp only [Scope.define_of_new known]
    refine congrArg Except.ok (Forest.modify_congr fun value isValue => ?_)
    rw [held] at isValue
    rw [← Option.some.inj isValue]

/-- Scopes that hold what their history says, and no name twice. -/
structure Recorded (past : List ScopeEvent) (scopes : ScopeForest) : Prop where
  records : Forest.Records Scope.fresh Scope.enter (past.filterMap ScopeEvent.growth?) scopes
  distinct : ∀ number,
    ((past.filterMap (ScopeEvent.definitionIn? number)).map (·.1)).Nodup

namespace Recorded

variable (recorded : Recorded past scopes)
include recorded

theorem get?_eq (number : Nat) :
    scopes.get? number = ((past.filterMap ScopeEvent.creation?)[number]?).map fun creation =>
      ⟨creation.2, ⟨past.filterMap (ScopeEvent.definitionIn? number)⟩⟩ := by
  rw [recorded.records.get?, ScopeEvent.makings_growth, ScopeEvent.changes_growth]
  congr 1
  funext creation
  rw [Scope.foldl_enter]
  have entries := OrderedMap.entries_ofList (recorded.distinct number)
  exact congrArg (Scope.mk creation.2) (congrArg OrderedMap.mk entries)

theorem definitions_of_le (beyond : scopes.size ≤ number) :
    past.filterMap (ScopeEvent.definitionIn? number) = [] := by
  rw [← ScopeEvent.changes_growth]
  exact recorded.records.unchanged number beyond

theorem symbols_eq {scope : Scope} (held : scopes.get? number = some scope) :
    scope.symbols = ⟨past.filterMap (ScopeEvent.definitionIn? number)⟩ := by
  rw [recorded.get?_eq] at held
  obtain ⟨creation, _, rfl⟩ := Option.map_eq_some_iff.mp held
  rfl

theorem localNames_eq (number : Nat) :
    scopes.localNames number =
      (past.filterMap (ScopeEvent.definitionIn? number)).map (·.1) := by
  cases held : scopes.get? number with
  | none =>
      have beyond : scopes.size ≤ number := Forest.get?_eq_none_iff.mp held
      rw [localNames, held, recorded.definitions_of_le beyond]
      rfl
  | some scope =>
      rw [localNames, held, Option.map_some, Option.getD_some, Scope.localNames,
        recorded.symbols_eq held]
      rfl

/-- A definition succeeds exactly if its scope has not had one of the same name. -/
theorem define_eq_ok_iff (known : number < scopes.size) :
    scopes.define number key symbol = .ok changed ↔
      key ∉ (past.filterMap (ScopeEvent.definitionIn? number)).map (·.1) ∧
        changed = scopes.modify number (·.enter (key, symbol)) := by
  obtain ⟨scope, held⟩ := Forest.exists_get?_of_lt known
  have names : scope.symbols.keys =
      (past.filterMap (ScopeEvent.definitionIn? number)).map (·.1) := by
    rw [recorded.symbols_eq held]
    rfl
  rw [define_eq held, ← names]
  by_cases repeated : key ∈ scope.symbols.keys
  · simp [repeated]
  · rw [if_neg repeated]
    constructor
    · intro defines
      exact ⟨repeated, (Except.ok.inj defines).symm⟩
    · intro defines
      rw [defines.2]

theorem resolveLocal?_eq_get? (number : Nat) (key : String) :
    scopes.resolveLocal? number key =
      (OrderedMap.mk (past.filterMap (ScopeEvent.definitionIn? number))).get? key := by
  cases held : scopes.get? number with
  | none =>
      have beyond : scopes.size ≤ number := Forest.get?_eq_none_iff.mp held
      rw [resolveLocal?, held, recorded.definitions_of_le beyond]
      rfl
  | some scope =>
      rw [resolveLocal?, held, Option.bind_some, Scope.resolveLocal?,
        recorded.symbols_eq held]

theorem resolveLocal?_eq (number : Nat) (key : String) :
    scopes.resolveLocal? number key =
      past.findSome? (ScopeEvent.symbolOf? number key) := by
  rw [recorded.resolveLocal?_eq_get?, OrderedMap.get?_eq_findSome?, findSome?_filterMap]
  rfl

/-- A definition finds its scope without the name and leaves it with its symbol. -/
theorem resolveLocal?_define (known : number < scopes.size)
    (defines : scopes.define number key symbol = .ok changed) :
    scopes.resolveLocal? number key = none ∧ changed.resolveLocal? number key = some symbol ∧
      ∀ other name, other ≠ number ∨ name ≠ key →
        changed.resolveLocal? other name = scopes.resolveLocal? other name := by
  obtain ⟨new, rfl⟩ := (recorded.define_eq_ok_iff known).mp defines
  obtain ⟨scope, held⟩ := Forest.exists_get?_of_lt known
  refine ⟨?_, ?_, fun other name apart => ?_⟩
  · rw [recorded.resolveLocal?_eq_get?]
    exact OrderedMap.get?_eq_none_iff.mpr new
  · rw [resolveLocal?, Forest.get?_modify, if_pos rfl, held]
    exact OrderedMap.get?_insert_self _ _ _
  · rw [resolveLocal?, Forest.get?_modify, resolveLocal?]
    by_cases same : other = number
    · have otherName : name ≠ key := apart.resolve_left (not_not_intro same)
      rw [if_pos same, same, held]
      exact OrderedMap.get?_insert_of_ne otherName _ _
    · rw [if_neg same]

end Recorded

theorem Recorded.next {event : ScopeEvent} {after : ScopeForest}
    (recorded : Recorded past scopes) (next : Next scopes event after) :
    Recorded (past ++ [event]) after := by
  have undisturbed (plain : ∀ number, event.definitionIn? number = none) (number : Nat) :
      (((past ++ [event]).filterMap (ScopeEvent.definitionIn? number)).map (·.1)).Nodup := by
    rw [filterMap_concat_of_none (plain number)]
    exact recorded.distinct number
  cases next with
  | root name =>
      refine ⟨?_, undisturbed fun _ => rfl⟩
      rw [filterMap_concat]
      exact recorded.records.made (by simp) name
  | child name known =>
      refine ⟨?_, undisturbed fun _ => rfl⟩
      rw [filterMap_concat]
      exact recorded.records.made (fun _ isOuter => Option.some.inj isOuter ▸ known) name
  | @defined _ number key symbol known defines =>
      obtain ⟨new, rfl⟩ := (recorded.define_eq_ok_iff known).mp defines
      refine ⟨?_, fun other => ?_⟩
      · rw [filterMap_concat]
        exact recorded.records.changed known (key, symbol)
      · by_cases same : number = other
        · have adds : ScopeEvent.definitionIn? other (.defined number key symbol) =
              some (key, symbol) := if_pos same
          rw [same] at new
          rw [filterMap_concat, adds, Option.toList_some, List.map_append,
            List.map_singleton, ← List.concat_eq_append]
          exact (recorded.distinct other).concat new
        · have keeps : ScopeEvent.definitionIn? other (.defined number key symbol) =
              none := if_neg same
          rw [filterMap_concat_of_none keeps]
          exact recorded.distinct other
  | refused known refuses =>
      refine ⟨?_, undisturbed fun _ => rfl⟩
      rw [filterMap_concat_of_none rfl]
      exact recorded.records

theorem recorded_of_run (run : Run Next .empty past scopes) : Recorded past scopes := by
  have begun : Recorded [] .empty :=
    ⟨Forest.records_of_run (.done _), fun _ => List.nodup_nil⟩
  exact run.invariant begun fun recorded next => recorded.next next

/-- A lookup goes from the scope outwards. -/
theorem resolve?_eq (scopes : ScopeForest) (number : Nat) (key : String) :
    scopes.resolve? number key =
      (scopes.outward number).findSome? (scopes.resolveLocal? · key) :=
  Forest.findSome?_lineage _ scopes number

/-- A new symbol is found where the way outwards comes to its scope and to no nearer symbol. -/
theorem Recorded.resolve?_define (recorded : Recorded past scopes)
    (known : number < scopes.size) (defines : scopes.define number key symbol = .ok changed)
    (inner : Nat) (name : String) :
    changed.resolve? inner name = scopes.resolve? inner name ∨
      name = key ∧ number ∈ scopes.outward inner ∧
        (∀ nearer ∈ (scopes.outward inner).takeWhile (· ≠ number),
          scopes.resolveLocal? nearer key = none) ∧
        changed.resolve? inner name = some symbol := by
  have sameWay : changed.outward = scopes.outward := by
    obtain ⟨_, rfl⟩ := (recorded.define_eq_ok_iff known).mp defines
    exact Forest.outward_modify _ _ _
  obtain ⟨_, here, elsewhere⟩ := recorded.resolveLocal?_define known defines
  rw [resolve?_eq, resolve?_eq, sameWay]
  by_cases same : name = key
  · rw [same]
    have found := Forest.findSome?_of_found (scopes.resolveLocal? · key)
      (changed.resolveLocal? · key) here (fun step apart => elsewhere step key (.inl apart))
      (scopes.outward inner)
    exact found.imp_right fun found => ⟨rfl, found⟩
  · exact .inl (Forest.findSome?_congr fun step _ => elsewhere step name (.inr same))

theorem Next.eq_of_refused {event : ScopeEvent} (next : Next scopes event changed)
    (refused : event.isRefused = true) : changed = scopes := by
  cases next with
  | refused => rfl
  | _ => cases refused

/-- After every run of openings and definitions, a definition succeeds exactly if its scope has
not had one of that name, the names of a scope are those of its successful definitions, and
lookups find the first symbol of the nearest scope that has one. Refused definitions change
nothing, symbols stay, and a new symbol is found only by lookups of its name from inside its
scope that find nothing nearer. -/
theorem lexical_scoping (run : Run Next .empty past scopes) :
    (∀ number outer name,
      (past.filterMap ScopeEvent.creation?)[number]? = some (outer, name) →
        scopes.outward number = number :: (outer.map scopes.outward).getD [] ∧
        (∀ key symbol,
          ((∃ changed, scopes.define number key symbol = .ok changed) ↔
            ∀ earlier, .defined number key earlier ∉ past) ∧
          ∀ failure, scopes.define number key symbol = .error failure →
            failure = .duplicateSymbol key name) ∧
        scopes.localNames number =
          (past.filterMap (ScopeEvent.definitionIn? number)).map (·.1) ∧
        (scopes.localNames number).Nodup ∧
        ∀ key,
          scopes.resolveLocal? number key =
            past.findSome? (ScopeEvent.symbolOf? number key) ∧
          scopes.resolve? number key =
            (scopes.outward number).findSome? fun nearest =>
              past.findSome? (ScopeEvent.symbolOf? nearest key)) ∧
      Run Next .empty (past.filter (!·.isRefused)) scopes ∧
      (∀ later after, Run Next scopes later after → ∀ number key symbol,
        scopes.resolveLocal? number key = some symbol →
          after.resolveLocal? number key = some symbol) ∧
      ∀ number key symbol changed, Next scopes (.defined number key symbol) changed →
        ∀ inner name,
          changed.resolve? inner name = scopes.resolve? inner name ∨
            name = key ∧ number ∈ scopes.outward inner ∧
              (∀ nearer ∈ (scopes.outward inner).takeWhile (· ≠ number),
                scopes.resolveLocal? nearer key = none) ∧
              changed.resolve? inner name = some symbol := by
  have recorded := recorded_of_run run
  refine ⟨?_, run.without ScopeEvent.isRefused Next.eq_of_refused, ?_, ?_⟩
  · intro number outer name created
    have held : scopes.get? number =
        some ⟨name, ⟨past.filterMap (ScopeEvent.definitionIn? number)⟩⟩ := by
      rw [recorded.get?_eq, created]
      rfl
    have known := Forest.lt_size_of_get? held
    have around : scopes.outer? number = outer := by
      rw [recorded.records.outer?, ScopeEvent.makings_growth, created]
      rfl
    have locally := recorded.localNames_eq number
    refine ⟨?_, fun key symbol => ⟨?_, ?_⟩, locally, ?_, fun key => ⟨?_, ?_⟩⟩
    · rw [recorded.records.grounded.outward_eq known, around]
    · rw [← not_exists, ← ScopeEvent.mem_names_iff]
      constructor
      · intro defines
        obtain ⟨changed, defines⟩ := defines
        exact ((recorded.define_eq_ok_iff known).mp defines).1
      · intro new
        exact ⟨_, (recorded.define_eq_ok_iff known).mpr ⟨new, rfl⟩⟩
    · intro failure refuses
      rw [define_eq held] at refuses
      split at refuses
      · exact (Except.error.inj refuses).symm
      · cases refuses
    · rw [locally]
      exact recorded.distinct number
    · exact recorded.resolveLocal?_eq number key
    · rw [resolve?_eq]
      exact Forest.findSome?_congr fun nearest _ => recorded.resolveLocal?_eq nearest key
  · intro later after runOn number key symbol found
    have stillRecorded : Recorded (past ++ later) after :=
      runOn.keeps (fun before next => before.next next) recorded
    rw [recorded.resolveLocal?_eq] at found
    rw [stillRecorded.resolveLocal?_eq, List.findSome?_append, found, Option.some_or]
  · intro number key symbol changed next inner name
    cases next with
    | defined known defines => exact recorded.resolve?_define known defines inner name

/-- A name is defined in the outer scope, refused there the second time, and defined again in
the inner scope. Each scope sees its own symbol. -/
theorem lexical_scoping_with_shadowing :
    let first : Symbol := ⟨"group", .named "String", .property, .ofList [], some (.string "a")⟩
    let second : Symbol := ⟨"name", .named "String", .property, .ofList [], some (.string "b")⟩
    ∃ scopes,
      Run Next .empty
        [.root "build", .child 0 "subprojects", .defined 0 "group" first,
          .refused 0 "group" second, .defined 1 "group" second] scopes ∧
        scopes.resolve? 0 "group" = some first ∧
        scopes.resolve? 1 "group" = some second ∧
        ∀ symbol failure, scopes.define 1 "group" symbol = .error failure →
          failure = .duplicateSymbol "group" "subprojects" := by
  intro first second
  have run : Run Next .empty
      [.root "build", .child 0 "subprojects", .defined 0 "group" first,
        .refused 0 "group" second, .defined 1 "group" second] _ :=
    .step (.root _) (.step (.child _ (by decide)) (.step (.defined (by decide) rfl)
      (.step (.refused (by decide) rfl) (.step (.defined (by decide) rfl) (.done _)))))
  obtain ⟨outside, _, _, _, lookups⟩ := (lexical_scoping run).1 0 none "build" rfl
  obtain ⟨inside, failures, _, _, innerLookups⟩ :=
    (lexical_scoping run).1 1 (some 0) "subprojects" rfl
  refine ⟨_, run, ?_, ?_, fun symbol => (failures "group" symbol).2⟩
  · rw [(lookups "group").2, outside]
    rfl
  · rw [(innerLookups "group").2, inside]
    rfl

end ScopeForest

end BuildScribe
