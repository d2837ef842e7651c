import BuildScribe.Proofs.Json.Yield

/-!
# Reading back what was written

A value is stable when its codec reads it back from what it writes for it. The data of
some forms is always stable; a form restores data when at least everything is stable that
it reads itself. Both pass from the parts to lists, dictionaries, options and records.
-/

namespace BuildScribe

namespace Codec

variable {α σ : Type}

/-- What the codec writes for the value is read back as the value. -/
def Stable (codec : Codec α) (value : α) : Prop :=
  codec.fromJson (codec.toJson value) = .ok value

/-- Whatever the codec reads from a value without repeated keys is stable. -/
def Restores (codec : Codec α) : Prop :=
  ∀ json value, json.DistinctKeys → codec.fromJson json = .ok value → codec.Stable value

theorem text_stable (value : String) : text.Stable value := rfl

theorem flag_stable (value : Bool) : flag.Stable value := rfl

theorem optional_stable {codec : Codec α} (written : ∀ value, codec.toJson value ≠ .null)
    {content : Option α} (stable : ∀ value ∈ content, codec.Stable value) :
    codec.optional.Stable content := by
  cases content with
  | none => rfl
  | some value =>
      have inner : codec.fromJson (codec.toJson value) = .ok value := stable value rfl
      have present : codec.optional.fromJson (codec.toJson value) =
          some <$> codec.fromJson (codec.toJson value) := by
        unfold optional
        cases known : codec.toJson value with
        | null => exact (written value known).elim
        | _ => rfl
      unfold Stable
      change codec.optional.fromJson (codec.toJson value) = .ok (some value)
      rw [present, inner]
      rfl

theorem optional_restores {codec : Codec α} (written : ∀ value, codec.toJson value ≠ .null)
    (restores : codec.Restores) : codec.optional.Restores := by
  intro json content distinct accepted
  apply optional_stable written
  rintro value rfl
  cases json with
  | null => cases accepted
  | _ =>
      rw [optional] at accepted
      dsimp only at accepted
      cases known : codec.fromJson _ with
      | ok inner =>
          rw [known] at accepted
          cases accepted
          exact restores _ value distinct known
      | error fault =>
          rw [known] at accepted
          cases accepted

theorem text_optional_stable (content : Option String) :
    (optional text).Stable content :=
  optional_stable (fun _ isNull => by cases isNull) fun value _ => text_stable value

theorem itemsFromJson_map {codec : Codec α} {values : List α}
    (stable : ∀ value ∈ values, codec.Stable value) (index : Nat) :
    codec.itemsFromJson index (values.map codec.toJson) = .ok values := by
  induction values generalizing index with
  | nil => rfl
  | cons value rest ih =>
      rw [List.forall_mem_cons] at stable
      have read : codec.fromJson (codec.toJson value) = .ok value := stable.1
      rw [List.map_cons, itemsFromJson, read, ih stable.2]
      rfl

theorem list_stable {codec : Codec α} {values : List α}
    (stable : ∀ value ∈ values, codec.Stable value) : codec.list.Stable values :=
  itemsFromJson_map stable 0

theorem membersFromJson_map {codec : Codec α} {entries : List (String × α)}
    (stable : ∀ entry ∈ entries, codec.Stable entry.2) :
    codec.membersFromJson (entries.map fun (key, value) => (key, codec.toJson value)) =
      .ok entries := by
  induction entries with
  | nil => rfl
  | cons entry rest ih =>
      rw [List.forall_mem_cons] at stable
      have read : codec.fromJson (codec.toJson entry.2) = .ok entry.2 := stable.1
      rw [List.map_cons, membersFromJson, read, ih stable.2]
      rfl

/-- The values of what is read come from the members. -/
theorem exists_of_membersFromJson {codec : Codec α} {members : List (String × Json)}
    {entries : List (String × α)} (accepted : codec.membersFromJson members = .ok entries) :
    ∀ entry ∈ entries, ∃ member ∈ members, codec.fromJson member.2 = .ok entry.2 := by
  induction members generalizing entries with
  | nil =>
      cases accepted
      exact fun entry isEntry => (List.not_mem_nil isEntry).elim
  | cons member rest ih =>
      rw [membersFromJson] at accepted
      cases first : codec.fromJson member.2 with
      | error fault =>
          rw [first] at accepted
          cases accepted
      | ok value =>
          cases others : codec.membersFromJson rest with
          | error fault =>
              rw [first, others] at accepted
              cases accepted
          | ok values =>
              rw [first, others] at accepted
              cases accepted
              rw [List.forall_mem_cons]
              refine ⟨⟨member, List.mem_cons_self, first⟩, ?_⟩
              intro entry isEntry
              obtain ⟨source, isSource, read⟩ := ih others entry isEntry
              exact ⟨source, List.mem_cons_of_mem member isSource, read⟩

theorem dictionary_stable {codec : Codec α} {map : OrderedMap String α}
    (distinct : map.keys.Nodup) (stable : ∀ entry ∈ map.entries, codec.Stable entry.2) :
    codec.dictionary.Stable map := by
  have rebuilt : OrderedMap.ofList map.entries = map :=
    congrArg OrderedMap.mk (OrderedMap.entries_ofList distinct)
  change OrderedMap.ofList <$>
    codec.membersFromJson (map.entries.map fun (key, value) => (key, codec.toJson value)) =
      .ok map
  rw [membersFromJson_map stable]
  exact congrArg Except.ok rebuilt

theorem dictionary_restores {codec : Codec α} (restores : codec.Restores) :
    codec.dictionary.Restores := by
  intro json map distinct accepted
  have keys := (dictionary_yields_distinct_keys codec).json json map accepted
  cases json with
  | object members =>
      cases read : codec.membersFromJson members with
      | error fault =>
          rw [dictionary] at accepted
          simp only [read] at accepted
          cases accepted
      | ok entries =>
          rw [dictionary] at accepted
          simp only [read] at accepted
          cases accepted
          apply dictionary_stable keys
          intro entry isEntry
          obtain ⟨member, isMember, known⟩ :=
            exists_of_membersFromJson read entry (OrderedMap.mem_of_mem_ofList isEntry)
          exact restores member.2 entry.2
            (distinct.inner member.2 (List.mem_map_of_mem isMember)) known
  | _ => cases accepted

end Codec

/-- A field that reads back its own part of a record sets it again. -/
theorem Field.of_rewrites {α σ : Type} {codec : Codec α} {get : σ → α}
    {set : α → σ → σ} {record : σ} (stable : codec.Stable (get record)) (name : String)
    (required : Bool) :
    (Field.of name required codec get set).fromJson
        ((Field.of name required codec get set).toJson record) =
      .ok (set (get record)) := by
  have read : codec.fromJson (codec.toJson (get record)) = .ok (get record) := stable
  change set <$> codec.fromJson (codec.toJson (get record)) = .ok (set (get record))
  rw [read]
  rfl

namespace Record

variable {σ : Type} {record : Record σ}

/-- What each of the fields changes when it is read back from what is written for the
record. -/
inductive Rewrites (value : σ) : List (Field σ) → List (σ → σ) → Prop where
  | nil : Rewrites value [] []
  | cons {field : Field σ} {update : σ → σ} {fields : List (Field σ)}
      {updates : List (σ → σ)} :
      field.fromJson (field.toJson value) = .ok update → Rewrites value fields updates →
      Rewrites value (field :: fields) (update :: updates)

theorem field?_of_mem (distinct : record.names.Nodup) {field : Field σ}
    (isField : field ∈ record.fields) : record.field? field.name = some field := by
  obtain ⟨title, strict, blank, fields⟩ := record
  unfold names at distinct
  unfold field?
  dsimp only at distinct isField ⊢
  induction fields with
  | nil => exact (List.not_mem_nil isField).elim
  | cons first rest ih =>
      rw [List.map_cons, List.nodup_cons] at distinct
      rcases List.mem_cons.mp isField with rfl | inRest
      · simp
      · have other : first.name ≠ field.name := by
          intro same
          exact distinct.1 (same ▸ List.mem_map_of_mem inRest)
        rw [List.find?_cons_of_neg (by simpa using other)]
        exact ih distinct.2 inRest

theorem missing?_eq_none {seen : List String}
    (complete : ∀ field ∈ record.fields, field.name ∈ seen) :
    record.missing? seen = none := by
  rw [missing?, Option.map_eq_none_iff, List.find?_eq_none]
  intro field isField
  simp [complete field isField]

/-- The members that are written for the fields are read back one after the other. -/
theorem jsonMembers_of_rewrites (distinct : record.names.Nodup) {value : σ}
    {fields : List (Field σ)} {updates : List (σ → σ)}
    (rewrites : Rewrites value fields updates)
    (known : ∀ field ∈ fields, field ∈ record.fields) (seen : List String)
    (complete : ∀ field ∈ record.fields, field.name ∈ seen ∨ field ∈ fields)
    (current : σ) :
    record.jsonMembers seen (fields.map fun field => (field.name, field.toJson value))
        current =
      .ok (updates.foldl (fun reached update => update reached) current) := by
  induction rewrites generalizing seen current with
  | nil =>
      have all : ∀ field ∈ record.fields, field.name ∈ seen := by simpa using complete
      rw [List.map_nil, jsonMembers, missing?_eq_none all]
      rfl
  | @cons field update rest updates read _ ih =>
      rw [List.forall_mem_cons] at known
      have remaining : ∀ other ∈ record.fields,
          other.name ∈ field.name :: seen ∨ other ∈ rest := by
        intro other isField
        rcases complete other isField with isSeen | isLeft
        · exact .inl (List.mem_cons_of_mem _ isSeen)
        · rcases List.mem_cons.mp isLeft with rfl | inRest
          · exact .inl List.mem_cons_self
          · exact .inr inRest
      rw [List.map_cons, jsonMembers, field?_of_mem distinct known.1]
      simp only [read]
      exact ih known.2 _ remaining (update current)

/-- A record is stable if its fields, each read back, make it out of the blank. -/
theorem codec_stable (distinct : record.names.Nodup) {value : σ} {updates : List (σ → σ)}
    (rewrites : Rewrites value record.fields updates)
    (rebuilt : updates.foldl (fun reached update => update reached) record.blank = value) :
    record.codec.Stable value := by
  have read := jsonMembers_of_rewrites distinct rewrites (fun _ isField => isField)
    [] (fun _ isField => .inr isField) record.blank
  rw [rebuilt] at read
  exact read

/-- A record restores what it reads if its blank and all that its fields read have a
property that makes records stable. -/
theorem codec_restores (property : σ → Prop) (blank : property record.blank)
    (keeps : ∀ json : Json, json.DistinctKeys → ∀ field ∈ record.fields,
      field.KeepsFrom property json)
    (stable : ∀ value, property value → record.codec.Stable value) :
    record.codec.Restores := by
  intro json value distinct accepted
  apply stable
  refine fromJson_yields blank ?_ accepted
  intro part isPart
  exact keeps part (distinct.inner part isPart)

end Record

end BuildScribe
