import BuildScribe.Proofs.Json.Accepted

/-!
# Values with one more member

What a reader answers when an object in an accepted value gets one more member: a strict
record refuses a member that is none of its fields, and any other record ignores it. Lists,
options, records and choices pass on the answer for the part that was changed, because all
other parts are accepted as before.
-/

namespace BuildScribe

/-- The answer to a changed value: a refusal for the given cause, or else the answer as it
was before the change. -/
inductive Reanswers {α : Type} (answer : Except ReadFault α) :
    (refusal : Option ReadCause) → Except ReadFault α → Prop where
  | refused {cause : ReadCause} (path : List PathStep) :
      Reanswers answer (some cause) (.error { cause := cause, path := path })
  | ignored : Reanswers answer none answer

namespace Reanswers

variable {α β : Type} {answer changed : Except ReadFault α} {refusal : Option ReadCause}

theorem bind (reanswers : Reanswers answer refusal changed)
    (next : α → Except ReadFault β) :
    Reanswers (answer >>= next) refusal (changed >>= next) := by
  cases reanswers with
  | refused path => exact .refused path
  | ignored => exact .ignored

theorem map (reanswers : Reanswers answer refusal changed) (change : α → β) :
    Reanswers (change <$> answer) refusal (change <$> changed) := by
  cases reanswers with
  | refused path => exact .refused path
  | ignored => exact .ignored

theorem underStep (reanswers : Reanswers answer refusal changed) (step : PathStep) :
    Reanswers (underStep step answer) refusal (BuildScribe.underStep step changed) := by
  cases reanswers with
  | refused path => exact .refused (step :: path)
  | ignored => exact .ignored

end Reanswers

/-- How the reader answers when an accepted value is changed in the given way. -/
def Codec.Handles {α : Type} (codec : Codec α) (change : Json → Json → Prop)
    (refusal : Option ReadCause) : Prop :=
  ∀ json changed, change json changed → codec.Accepts json →
    Reanswers (codec.fromJson json) refusal (codec.fromJson changed)

def Field.Handles {σ : Type} (field : Field σ) (change : Json → Json → Prop)
    (refusal : Option ReadCause) : Prop :=
  ∀ json changed, change json changed → field.Accepts json →
    Reanswers (field.fromJson json) refusal (field.fromJson changed)

namespace Json

/-- An object gets one more member, anywhere among the others. -/
inductive Gains (key : String) (value : Json) : Json → Json → Prop where
  | member (before after : List (String × Json)) :
      Gains key value (.object (before ++ after)) (.object (before ++ (key, value) :: after))

/-- One element of a list is changed. -/
inductive AtItem (change : Json → Json → Prop) : Json → Json → Prop where
  | item (before after : List Json) {json changed : Json} :
      change json changed →
      AtItem change (.array (before ++ json :: after)) (.array (before ++ changed :: after))

/-- The only member of an object, which names its variant, is changed. -/
inductive AtBody (name : String) (change : Json → Json → Prop) : Json → Json → Prop where
  | body {json changed : Json} :
      change json changed → AtBody name change (.object [(name, json)]) (.object [(name, changed)])

/-- Neither the value nor what becomes of it is `null`. -/
def ChangesPresent (change : Json → Json → Prop) : Prop :=
  ∀ json changed, change json changed → json ≠ .null ∧ changed ≠ .null

theorem Gains.changesPresent (key : String) (value : Json) :
    ChangesPresent (Gains key value) := by
  rintro json changed ⟨⟩
  exact ⟨nofun, nofun⟩

end Json

open Json

/-- The part of a record under the name of a field is changed, in either form of the
record. -/
inductive Record.AtField {σ : Type} (record : Record σ) (name : String)
    (change : Json → Json → Prop) : Json → Json → Prop where
  | member (before after : List (String × Json)) {json changed : Json} :
      change json changed →
      AtField record name change (.object (before ++ (name, json) :: after))
        (.object (before ++ (name, changed) :: after))
  | element (before after : List Json) {json changed : Json} :
      record.names[before.length]? = some name → change json changed →
      AtField record name change (.array (before ++ json :: after))
        (.array (before ++ changed :: after))

theorem Record.AtField.changesPresent {σ : Type} (record : Record σ) (name : String)
    (change : Json → Json → Prop) : ChangesPresent (record.AtField name change) := by
  rintro json changed (_ | _)
  · exact ⟨nofun, nofun⟩
  · exact ⟨nofun, nofun⟩

variable {α σ : Type} {change : Json → Json → Prop} {refusal : Option ReadCause}

theorem Field.of_handles {codec : Codec α} (handles : codec.Handles change refusal)
    (name : String) (required : Bool) (get : σ → α) (set : α → σ → σ) :
    (Field.of name required codec get set).Handles change refusal := by
  intro json changed isChanged accepts
  exact (handles json changed isChanged (Field.accepts_of accepts)).map set

namespace Codec

variable {codec : Codec α}

theorem optional_handles (handles : codec.Handles change refusal)
    (present : ChangesPresent change) : codec.optional.Handles change refusal := by
  have read {json : Json} (isPresent : json ≠ .null) :
      codec.optional.fromJson json = some <$> codec.fromJson json := by
    cases json <;> first | rfl | exact (isPresent rfl).elim
  intro json changed isChanged accepts
  obtain ⟨before, after⟩ := present json changed isChanged
  rw [read before, read after]
  exact (handles json changed isChanged (accepts_of_optional accepts before)).map some

theorem itemsFromJson_handles (handles : codec.Handles change refusal)
    {json changed : Json} (isChanged : change json changed) (index : Nat)
    (before after : List Json)
    (accepts : ∀ item ∈ before ++ json :: after, codec.Accepts item) :
    Reanswers (codec.itemsFromJson index (before ++ json :: after)) refusal
      (codec.itemsFromJson index (before ++ changed :: after)) := by
  -- The elements before the changed one are read as they were.
  induction before generalizing index with
  | nil =>
      have onItem := handles json changed isChanged (accepts json List.mem_cons_self)
      exact (onItem.underStep (.index index)).bind _
  | cons first rest ih =>
      rw [List.cons_append, List.forall_mem_cons] at accepts
      obtain ⟨value, read⟩ := accepts.1
      simp only [List.cons_append, itemsFromJson, read]
      exact (ih (index + 1) accepts.2).bind _

theorem list_handles (handles : codec.Handles change refusal) :
    codec.list.Handles (AtItem change) refusal := by
  rintro json changed ⟨before, after, isChanged⟩ accepts
  exact itemsFromJson_handles handles isChanged 0 before after (accepts_of_list accepts)

end Codec

namespace Record

variable {record : Record σ}

/-- What a record makes of a member that is none of its fields. -/
def strangerRefusal (record : Record σ) (key : String) : Option ReadCause :=
  if record.strict then some (.unknownField key record.names) else none

theorem field?_eq_none {key : String} (unknown : key ∉ record.names) :
    record.field? key = none := by
  rw [field?, List.find?_eq_none]
  intro field isField same
  exact unknown (beq_iff_eq.mp same ▸ List.mem_map_of_mem isField)

theorem jsonMembers_gain {key : String} (unknown : key ∉ record.names) (value : Json)
    (before after : List (String × Json)) (seen : List String) {current result : σ}
    (accepted : record.jsonMembers seen (before ++ after) current = .ok result) :
    Reanswers (record.jsonMembers seen (before ++ after) current)
      (record.strangerRefusal key)
      (record.jsonMembers seen (before ++ (key, value) :: after) current) := by
  -- The members before the new one are read as they were, and with them the fields seen.
  induction before generalizing seen current with
  | nil =>
      unfold strangerRefusal
      rw [List.nil_append, List.nil_append, jsonMembers.eq_def record seen (_ :: _)]
      simp only [field?_eq_none unknown]
      split
      · exact .refused [.key key]
      · exact .ignored
  | cons member rest ih =>
      obtain ⟨name, json⟩ := member
      simp only [List.cons_append, jsonMembers] at accepted ⊢
      cases known : record.field? name with
      | none =>
          simp only [known] at accepted ⊢
          split at accepted
          · cases accepted
          · next lenient =>
            rw [if_neg lenient, if_neg lenient]
            exact ih seen accepted
      | some field =>
          simp only [known] at accepted ⊢
          cases read : field.fromJson json with
          | error fault =>
              simp only [read] at accepted
              cases accepted
          | ok update =>
              simp only [read] at accepted ⊢
              exact ih (name :: seen) accepted

/-- A member that is none of its fields is refused by a strict record and ignored by any
other. -/
theorem codec_handles_gain {key : String} (unknown : key ∉ record.names) (value : Json) :
    record.codec.Handles (Gains key value) (record.strangerRefusal key) := by
  rintro json changed ⟨before, after⟩ ⟨result, accepted⟩
  exact jsonMembers_gain unknown value before after [] accepted

theorem jsonMembers_atMember {name : String} {field : Field σ}
    (isField : record.field? name = some field) (handles : field.Handles change refusal)
    {json changed : Json} (isChanged : change json changed)
    (before after : List (String × Json)) (seen : List String) {current result : σ}
    (accepted : record.jsonMembers seen (before ++ (name, json) :: after) current =
      .ok result) :
    Reanswers (record.jsonMembers seen (before ++ (name, json) :: after) current) refusal
      (record.jsonMembers seen (before ++ (name, changed) :: after) current) := by
  induction before generalizing seen current with
  | nil =>
      have accepts : field.Accepts json :=
        accepts_of_jsonMembers accepted (name, json) List.mem_cons_self field isField
      simp only [List.nil_append, jsonMembers, isField]
      exact ((handles json changed isChanged accepts).underStep (.key name)).bind _
  | cons member rest ih =>
      obtain ⟨other, part⟩ := member
      simp only [List.cons_append, jsonMembers] at accepted ⊢
      cases known : record.field? other with
      | none =>
          simp only [known] at accepted ⊢
          split at accepted
          · cases accepted
          · next lenient =>
            rw [if_neg lenient, if_neg lenient]
            exact ih seen accepted
      | some found =>
          simp only [known] at accepted ⊢
          cases read : found.fromJson part with
          | error fault =>
              simp only [read] at accepted
              cases accepted
          | ok update =>
              simp only [read] at accepted ⊢
              exact ih (other :: seen) accepted

theorem jsonElements_atElement {fields : List (Field σ)} {field : Field σ}
    {before : List Json} (isField : fields[before.length]? = some field)
    (handles : field.Handles change refusal) {json changed : Json}
    (isChanged : change json changed) (after : List Json) (count index : Nat)
    {current result : σ}
    (accepted : record.jsonElements count index fields (before ++ json :: after) current =
      .ok result) :
    Reanswers (record.jsonElements count index fields (before ++ json :: after) current)
      refusal
      (record.jsonElements count index fields (before ++ changed :: after) current) := by
  induction before generalizing fields index current with
  | nil =>
      cases fields with
      | nil => cases isField
      | cons first rest =>
          cases isField
          have accepts : field.Accepts json :=
            accepts_of_jsonElements accepted (field, json) List.mem_cons_self
          simp only [List.nil_append, jsonElements]
          exact ((handles json changed isChanged accepts).underStep (.index index)).bind _
  | cons item others ih =>
      cases fields with
      | nil => cases isField
      | cons first rest =>
          simp only [List.cons_append, jsonElements] at accepted ⊢
          cases read : first.fromJson item with
          | error fault =>
              simp only [read] at accepted
              cases accepted
          | ok update =>
              simp only [read] at accepted ⊢
              exact ih isField (index + 1) accepted

/-- A record answers to a change in one of its fields as the field does. -/
theorem codec_handles_atField (names : record.names.Nodup) {name : String}
    {field : Field σ} (isField : record.field? name = some field)
    (handles : field.Handles change refusal) :
    record.codec.Handles (record.AtField name change) refusal := by
  rintro _ _ isChanged ⟨result, accepted⟩
  cases isChanged with
  | member before after isChanged =>
      exact jsonMembers_atMember isField handles isChanged before after [] accepted
  | @element before after json changed named isChanged =>
      have inPlace : record.fields[before.length]? = some field := by
        obtain ⟨found, there, rfl⟩ : ∃ found, record.fields[before.length]? = some found ∧
            found.name = name := by simpa [Record.names] using named
        have known := field?_of_mem names (List.mem_of_getElem? there)
        rw [there, ← isField, known]
      have length :
          (before ++ changed :: after).length = (before ++ json :: after).length := by
        simp
      change Reanswers (record.jsonElements _ 0 record.fields _ record.blank) refusal
        (record.jsonElements _ 0 record.fields _ record.blank)
      rw [length]
      exact jsonElements_atElement inPlace handles isChanged after _ 0 accepted

end Record

namespace Variant

/-- A choice has one member, so that any second one is refused. -/
theorem codec_handles_gain (variants : List (Variant α)) (toJson : α → Json)
    (key : String) (value : Json) :
    (codec variants toJson).Handles (Gains key value)
      (some (.wrongValue .object "map with a single key")) := by
  rintro json changed ⟨before, after⟩ ⟨result, accepted⟩
  match before, after with
  | [], [only] => exact .refused []
  | [only], [] => exact .refused []
  | [], [] => cases accepted
  | [], _ :: _ :: _ => cases accepted
  | [_], _ :: _ => cases accepted
  | _ :: _ :: _, _ => cases accepted

theorem codec_handles_atBody {variants : List (Variant α)} {toJson : α → Json}
    {name : String} {variant : Variant α} (selected : select variants name = .ok variant)
    (handles : ∀ json changed, change json changed →
      (∃ value, variant.fromJson json = .ok value) →
      Reanswers (variant.fromJson json) refusal (variant.fromJson changed)) :
    (codec variants toJson).Handles (AtBody name change) refusal := by
  rintro json changed ⟨isChanged⟩ ⟨result, accepted⟩
  have read (body : Json) : (codec variants toJson).fromJson (.object [(name, body)]) =
      underStep (.key name) (variant.fromJson body) := by
    change choiceFromJson variants (.object [(name, body)]) = _
    rw [choiceFromJson, selected]
    rfl
  rw [read] at accepted
  rw [read, read]
  refine (handles _ _ isChanged ?_).underStep (.key name)
  cases known : variant.fromJson _ with
  | ok value => exact ⟨value, rfl⟩
  | error fault =>
      rw [known] at accepted
      cases accepted

/-- An object that stands for the body of a variant is handled as the record is. -/
theorem withBody_handles_gain {record : Record σ} {key : String}
    (unknown : key ∉ record.names) (value : Json) (name : String) (make : σ → α)
    (json changed : Json) (gains : Gains key value json changed)
    (accepts : ∃ result, (withBody name record make).fromJson json = .ok result) :
    Reanswers ((withBody name record make).fromJson json) (record.strangerRefusal key)
      ((withBody name record make).fromJson changed) := by
  obtain ⟨before, after⟩ := gains
  obtain ⟨result, accepted⟩ := accepts
  have inner : record.codec.Accepts (.object (before ++ after)) := by
    change make <$> record.fromJson _ = _ at accepted
    cases read : record.fromJson (.object (before ++ after)) with
    | ok value => exact ⟨value, read⟩
    | error fault =>
        rw [read] at accepted
        cases accepted
  have onRecord := Record.codec_handles_gain unknown value _ _ (.member before after) inner
  exact onRecord.map make

end Variant

end BuildScribe
