import BuildScribe.Proofs.Json.RoundTrip

/-!
# Values that are accepted

A codec accepts a value if it reads something from it. A value is accepted only if its parts
are: the elements of a list, what an option holds and the parts of a record that belong to
its fields.
-/

namespace BuildScribe

/-- Something is read from the value. -/
def Codec.Accepts {α : Type} (codec : Codec α) (json : Json) : Prop :=
  ∃ value, codec.fromJson json = .ok value

def Field.Accepts {σ : Type} (field : Field σ) (json : Json) : Prop :=
  ∃ update, field.fromJson json = .ok update

theorem Field.accepts_of {α σ : Type} {codec : Codec α} {name : String} {required : Bool}
    {get : σ → α} {set : α → σ → σ} {json : Json}
    (accepts : (Field.of name required codec get set).Accepts json) : codec.Accepts json := by
  obtain ⟨update, read⟩ := accepts
  change set <$> codec.fromJson json = .ok update at read
  cases known : codec.fromJson json with
  | ok value => exact ⟨value, known⟩
  | error fault =>
      rw [known] at read
      cases read

namespace Codec

variable {α : Type} {codec : Codec α}

theorem accepts_of_optional {json : Json} (accepts : codec.optional.Accepts json)
    (present : json ≠ .null) : codec.Accepts json := by
  obtain ⟨content, read⟩ := accepts
  have inner : some <$> codec.fromJson json = .ok content := by
    cases json <;> first | exact read | exact (present rfl).elim
  cases known : codec.fromJson json with
  | ok value => exact ⟨value, known⟩
  | error fault =>
      rw [known] at inner
      cases inner

theorem accepts_of_itemsFromJson {index : Nat} {items : List Json} {values : List α}
    (read : codec.itemsFromJson index items = .ok values) :
    ∀ item ∈ items, codec.Accepts item := by
  induction items generalizing index values with
  | nil => exact fun _ isItem => (List.not_mem_nil isItem).elim
  | cons item rest ih =>
      rw [itemsFromJson] at read
      cases first : codec.fromJson item with
      | error fault =>
          rw [first] at read
          cases read
      | ok value =>
          cases others : codec.itemsFromJson (index + 1) rest with
          | error fault =>
              rw [first, others] at read
              cases read
          | ok values => exact List.forall_mem_cons.mpr ⟨⟨value, first⟩, ih others⟩

theorem accepts_of_list {items : List Json} (accepts : codec.list.Accepts (.array items)) :
    ∀ item ∈ items, codec.Accepts item := by
  obtain ⟨values, read⟩ := accepts
  exact accepts_of_itemsFromJson read

end Codec

namespace Record

variable {σ : Type} {record : Record σ}

/-- The parts of a value under the names of the fields that they stand for. -/
def parts (record : Record σ) : Json → List (String × Json)
  | .object members => members
  | .array items => record.names.zip items
  | _ => []

/-- The fields of a list with the elements that stand for them. -/
theorem mem_parts_of_zip {items : List Json} {pair : Field σ × Json}
    (isPair : pair ∈ record.fields.zip items) :
    (pair.1.name, pair.2) ∈ record.parts (.array items) := by
  change _ ∈ (record.fields.map (·.name)).zip items
  rw [List.zip_map_left]
  exact List.mem_map_of_mem isPair

theorem accepts_of_jsonMembers {seen : List String} {members : List (String × Json)}
    {current result : σ} (read : record.jsonMembers seen members current = .ok result) :
    ∀ member ∈ members, ∀ field, record.field? member.1 = some field →
      field.Accepts member.2 := by
  induction members generalizing seen current with
  | nil => exact fun _ isMember => (List.not_mem_nil isMember).elim
  | cons member rest ih =>
      obtain ⟨key, json⟩ := member
      unfold jsonMembers at read
      rw [List.forall_mem_cons]
      cases known : record.field? key with
      | none =>
          rw [known] at read
          dsimp only at read
          split at read
          · cases read
          · refine ⟨fun field isField => ?_, ih read⟩
            cases isField
      | some field =>
          rw [known] at read
          cases accepted : field.fromJson json with
          | error fault =>
              simp only [accepted] at read
              cases read
          | ok update =>
              simp only [accepted] at read
              refine ⟨fun other isField => ?_, ih read⟩
              cases isField
              exact ⟨update, accepted⟩

theorem accepts_of_jsonElements {count index : Nat} {fields : List (Field σ)}
    {items : List Json} {current result : σ}
    (read : record.jsonElements count index fields items current = .ok result) :
    ∀ pair ∈ fields.zip items, pair.1.Accepts pair.2 := by
  induction fields generalizing index items current with
  | nil => exact fun _ isPair => (List.not_mem_nil isPair).elim
  | cons field rest ih =>
      cases items with
      | nil => exact fun _ isPair => (List.not_mem_nil isPair).elim
      | cons json others =>
          unfold jsonElements at read
          cases accepted : field.fromJson json with
          | error fault =>
              simp only [accepted] at read
              cases read
          | ok update =>
              simp only [accepted] at read
              rw [List.zip_cons_cons, List.forall_mem_cons]
              exact ⟨⟨update, accepted⟩, ih read⟩

theorem accepts_parts (names : record.names.Nodup) {json : Json}
    (accepts : record.codec.Accepts json) :
    ∀ part ∈ record.parts json, ∀ field, record.field? part.1 = some field →
      field.Accepts part.2 := by
  obtain ⟨value, read⟩ := accepts
  cases json with
  | object members => exact accepts_of_jsonMembers read
  | array items =>
      intro part isPart field isField
      change part ∈ (record.fields.map (·.name)).zip items at isPart
      rw [List.zip_map_left] at isPart
      obtain ⟨pair, isPair, rfl⟩ := List.mem_map.mp isPart
      have known := field?_of_mem names (List.of_mem_zip isPair).1
      cases known.symm.trans isField
      exact accepts_of_jsonElements read pair isPair
  | _ => exact fun _ isPart => (List.not_mem_nil isPart).elim

end Record

end BuildScribe
