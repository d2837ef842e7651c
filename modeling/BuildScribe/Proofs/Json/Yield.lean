import BuildScribe.Json.Codec
import BuildScribe.Proofs.Json.Distinct

/-!
# What is read

A property of what a reading yields follows from properties of what its parts yield.
Dictionaries that are read have distinct keys, and a record that is read has every
property that its blank has and its fields preserve.
-/

namespace BuildScribe

/-- Whatever the reading yields has the property. -/
def Reading.Yields {α : Type} (property : α → Prop) (reading : Reading α) : Prop :=
  ∀ cursor value next, reading cursor = .ok value next → property value

namespace Reading.Yields

variable {α β : Type} {property : α → Prop} {result : β → Prop}

theorem anything (reading : Reading α) : reading.Yields fun _ => True :=
  fun _ _ _ _ => trivial

theorem pure {value : α} (holds : property value) :
    (Pure.pure value : Reading α).Yields property := by
  intro cursor yielded next equality
  cases equality
  exact holds

theorem bind {first : Reading α} {second : α → Reading β}
    (onFirst : first.Yields property)
    (onSecond : ∀ value, property value → (second value).Yields result) :
    (first >>= second).Yields result := by
  intro cursor yielded next equality
  change EStateM.bind first second cursor = _ at equality
  unfold EStateM.bind at equality
  cases begun : first cursor with
  | ok value middle =>
      rw [begun] at equality
      exact onSecond value (onFirst cursor value middle begun) middle yielded next equality
  | error fault middle =>
      rw [begun] at equality
      cases equality

/-- What is read first does not matter. -/
theorem behind {first : Reading α} {second : α → Reading β}
    (onSecond : ∀ value, (second value).Yields result) :
    (first >>= second).Yields result :=
  bind (anything first) fun value _ => onSecond value

theorem map {change : α → β} {reading : Reading α} (onReading : reading.Yields property)
    (preserved : ∀ value, property value → result (change value)) :
    (change <$> reading).Yields result := by
  rw [← bind_pure_comp]
  exact onReading.bind fun value holds => .pure (preserved value holds)

theorem refuse (cause : ReadCause) : (Reading.refuse cause : Reading α).Yields property := by
  intro cursor value next equality
  cases equality

theorem refuseHere (cause : ReadCause) :
    (Reading.refuseHere cause : Reading α).Yields property := by
  intro cursor value next equality
  cases equality

theorem failNext (fault : TextFault) :
    (Reading.failNext fault : Reading α).Yields property := by
  intro cursor value next equality
  cases equality

theorem under {reading : Reading α} (onReading : reading.Yields property)
    (step : PathStep) : (Reading.under step reading).Yields property := by
  intro cursor value next equality
  unfold Reading.under at equality
  cases read : reading cursor with
  | ok inner after =>
      rw [read] at equality
      cases equality
      exact onReading cursor value next read
  | error fault after =>
      rw [read] at equality
      cases equality

theorem enclosed {inside : Reading α} (onInside : inside.Yields property)
    (finish : Reading Unit) : (Reading.enclosed inside finish).Yields property := by
  intro cursor value next equality
  unfold Reading.enclosed at equality
  cases read : inside cursor with
  | ok inner after =>
      rw [read] at equality
      dsimp only at equality
      cases ended : finish after with
      | ok done last =>
          rw [ended] at equality
          cases equality
          exact onInside cursor value after read
      | error fault last =>
          rw [ended] at equality
          cases equality
  | error fault after =>
      rw [read] at equality
      cases equality

theorem descend {inside : Nat → Reading α}
    (onInside : ∀ room, (inside room).Yields property) (room : Nat) :
    (Reading.descend room inside).Yields property := by
  cases room with
  | zero => exact failNext _
  | succ room => exact behind fun _ => onInside room

/-- A value that is refused whatever it is yields nothing. -/
theorem refuseValue (expected : String) :
    (Reading.refuseValue expected : Reading α).Yields property := by
  apply behind
  intro _
  apply behind
  intro next
  cases next with
  | none => exact failNext _
  | some c =>
      dsimp only
      cases scalar? c with
      | some scalar => exact behind fun _ => refuseHere _
      | none =>
          dsimp only
          split
          · exact refuseHere _
          · split
            · exact refuseHere _
            · exact failNext _

end Reading.Yields

/-- Whatever the codec reads, from a text or from a value, has the property. -/
structure Codec.Yields {α : Type} (property : α → Prop) (codec : Codec α) : Prop where
  text : ∀ room, (codec.fromText room).Yields property
  json : ∀ json value, codec.fromJson json = .ok value → property value

theorem Codec.Yields.anything {α : Type} (codec : Codec α) :
    codec.Yields fun _ => True :=
  ⟨fun _ => .anything _, fun _ _ _ => trivial⟩

/-- The keys of a dictionary are distinct, whatever is repeated in the document. -/
theorem Codec.dictionary_yields_distinct_keys {α : Type} (codec : Codec α) :
    (Codec.dictionary codec).Yields fun map => map.keys.Nodup := by
  constructor
  · intro room
    apply Reading.Yields.behind
    intro _
    apply Reading.Yields.behind
    intro next
    split
    · apply Reading.Yields.descend
      intro room
      apply Reading.Yields.behind
      intro members
      exact .pure (OrderedMap.nodup_keys_ofList members)
    · exact .refuseValue "a map"
  · intro json map accepted
    cases json with
    | object members =>
        cases read : codec.membersFromJson members with
        | ok entries =>
            simp only [Codec.dictionary, read] at accepted
            cases accepted
            exact OrderedMap.nodup_keys_ofList entries
        | error fault =>
            simp only [Codec.dictionary, read] at accepted
            cases accepted
    | _ => cases accepted

/-- What is read for the field from the value changes no record with the property into
one without it. -/
def Field.KeepsFrom {σ : Type} (property : σ → Prop) (json : Json) (field : Field σ) :
    Prop :=
  ∀ update, field.fromJson json = .ok update →
    ∀ record, property record → property (update record)

/-- Whatever is read for the field, it changes no record with the property into one
without it. -/
structure Field.Keeps {σ : Type} (property : σ → Prop) (field : Field σ) : Prop where
  text : ∀ room, (field.fromText room).Yields fun update =>
    ∀ record, property record → property (update record)
  json : ∀ json, field.KeepsFrom property json

theorem Field.KeepsFrom.of {α σ : Type} {property : σ → Prop} {codec : Codec α}
    {json : Json} {get : σ → α} {set : α → σ → σ}
    (kept : ∀ value, codec.fromJson json = .ok value →
      ∀ record, property record → property (set value record))
    (name : String) (required : Bool) :
    (Field.of name required codec get set).KeepsFrom property json := by
  intro update accepted
  cases known : codec.fromJson json with
  | ok value =>
      simp only [Field.of, known] at accepted
      cases accepted
      exact kept value known
  | error fault =>
      simp only [Field.of, known] at accepted
      cases accepted

theorem Field.Keeps.of {α σ : Type} {read : α → Prop} {property : σ → Prop}
    {codec : Codec α} (yields : codec.Yields read) {get : σ → α} {set : α → σ → σ}
    (kept : ∀ value, read value → ∀ record, property record →
      property (set value record))
    (name : String) (required : Bool) :
    (Field.of name required codec get set).Keeps property := by
  constructor
  · intro room
    exact (yields.text room).map kept
  · intro json
    apply Field.KeepsFrom.of
    intro value known
    exact kept value (yields.json json value known)

/-- A field that has nothing to do with the property. -/
theorem Field.Keeps.other {α σ : Type} {property : σ → Prop} (codec : Codec α)
    {get : σ → α} {set : α → σ → σ}
    (kept : ∀ value record, property record → property (set value record))
    (name : String) (required : Bool) :
    (Field.of name required codec get set).Keeps property :=
  .of (.anything codec) (fun value _ => kept value) name required

namespace Record

variable {σ : Type} {property : σ → Prop} {record : Record σ}

theorem textMembers_yields (keeps : ∀ field ∈ record.fields, field.Keeps property)
    (room steps : Nat) (first : Bool) (seen : List String) {current : σ}
    (holds : property current) :
    (record.textMembers room steps first seen current).Yields property := by
  -- Every member costs a step. The record read so far keeps the property, and a member
  -- that no field knows leaves it as it is.
  induction steps generalizing first seen current with
  | zero => exact .failNext _
  | succ steps ih =>
      apply Reading.Yields.behind
      intro next
      cases next with
      | none =>
          dsimp only
          cases record.missing? seen with
          | some name => exact .refuse _
          | none => exact .pure holds
      | some key =>
          dsimp only
          cases known : record.field? key with
          | none =>
              dsimp only
              split
              · exact .under (.refuse _) _
              · exact .behind fun _ => .behind fun _ => ih false seen holds
          | some field =>
              dsimp only
              split
              · exact .refuse _
              · have isField := List.mem_of_find?_eq_some known
                apply Reading.Yields.behind
                intro _
                exact (((keeps field isField).text room).under _).bind fun update kept =>
                  ih false (key :: seen) (kept current holds)

theorem textElements_yields (record : Record σ) (room index : Nat)
    {fields : List (Field σ)} (keeps : ∀ field ∈ fields, field.Keeps property)
    {current : σ} (holds : property current) :
    (record.textElements room index fields current).Yields property := by
  induction fields generalizing index current with
  | nil => exact .pure holds
  | cons field rest ih =>
      rw [List.forall_mem_cons] at keeps
      apply Reading.Yields.behind
      intro more
      split
      · exact ((keeps.1.text room).under _).bind fun update kept =>
          ih (index + 1) keeps.2 (kept current holds)
      · split
        · exact .refuse _
        · exact ih (index + 1) keeps.2 holds

theorem jsonMembers_yields {members : List (String × Json)}
    (keeps : ∀ member ∈ members, ∀ field ∈ record.fields,
      field.KeepsFrom property member.2)
    (seen : List String) {current result : σ} (holds : property current)
    (accepted : record.jsonMembers seen members current = .ok result) :
    property result := by
  induction members generalizing seen current with
  | nil =>
      unfold jsonMembers at accepted
      cases missing : record.missing? seen with
      | some name =>
          rw [missing] at accepted
          cases accepted
      | none =>
          rw [missing] at accepted
          cases accepted
          exact holds
  | cons member rest ih =>
      obtain ⟨key, json⟩ := member
      rw [List.forall_mem_cons] at keeps
      unfold jsonMembers at accepted
      cases known : record.field? key with
      | none =>
          rw [known] at accepted
          dsimp only at accepted
          split at accepted
          · cases accepted
          · exact ih keeps.2 seen holds accepted
      | some field =>
          rw [known] at accepted
          have isField := List.mem_of_find?_eq_some known
          cases read : field.fromJson json with
          | ok update =>
              have kept := keeps.1 field isField update read
              simp only [read] at accepted
              exact ih keeps.2 (key :: seen) (kept current holds) accepted
          | error fault =>
              simp only [read] at accepted
              cases accepted

theorem jsonElements_yields (record : Record σ) (count index : Nat)
    {fields : List (Field σ)} {items : List Json}
    (keeps : ∀ json ∈ items, ∀ field ∈ fields, field.KeepsFrom property json)
    {current result : σ} (holds : property current)
    (accepted : record.jsonElements count index fields items current = .ok result) :
    property result := by
  -- The fields are used up in order; the items may end before them, but not after.
  induction fields generalizing index items current with
  | nil =>
      cases items with
      | nil =>
          cases accepted
          exact holds
      | cons item rest => cases accepted
  | cons field rest ih =>
      have below : ∀ json ∈ items, ∀ other ∈ rest, other.KeepsFrom property json :=
        fun json isItem other isOther =>
          keeps json isItem other (List.mem_cons_of_mem field isOther)
      cases items with
      | nil =>
          unfold jsonElements at accepted
          split at accepted
          · cases accepted
          · exact ih (index + 1) below holds accepted
      | cons json others =>
          unfold jsonElements at accepted
          cases read : field.fromJson json with
          | ok update =>
              have kept :=
                keeps json List.mem_cons_self field List.mem_cons_self update read
              simp only [read] at accepted
              exact ih (index + 1) (List.forall_mem_cons.mp below).2 (kept current holds)
                accepted
          | error fault =>
              simp only [read] at accepted
              cases accepted

/-- A record that is read from a value has what its blank has and every field keeps that
is read from a part of the value. -/
theorem fromJson_yields (blank : property record.blank) {json : Json}
    (keeps : ∀ part ∈ json.inner, ∀ field ∈ record.fields,
      field.KeepsFrom property part)
    {result : σ} (accepted : record.fromJson json = .ok result) : property result := by
  cases json with
  | object members =>
      exact jsonMembers_yields (List.forall_mem_map.mp keeps) [] blank accepted
  | array items => exact jsonElements_yields record _ 0 keeps blank accepted
  | _ => cases accepted

/-- A record that is read has what its blank has and every field keeps. -/
theorem codec_yields (blank : property record.blank)
    (keeps : ∀ field ∈ record.fields, field.Keeps property) :
    record.codec.Yields property := by
  constructor
  · intro room
    apply Reading.Yields.behind
    intro _
    apply Reading.Yields.behind
    intro next
    split
    · apply Reading.Yields.descend
      intro room
      exact .enclosed (.behind fun steps => textMembers_yields keeps room steps true []
        blank) _
    · apply Reading.Yields.descend
      intro room
      exact .enclosed (textElements_yields record room 0 keeps blank) _
    · exact .refuseValue record.title
  · intro json result accepted
    exact fromJson_yields blank (fun part _ field isField => (keeps field isField).json part)
      accepted

end Record

end BuildScribe
