import BuildScribe.Description.Script
import BuildScribe.Proofs.Json.Records

/-!
# The text and the value of a description

A description that is given as a text is the one that is given as the value of the text. A
text is accepted that holds the body of a repository as a list; its value is not.
-/

namespace BuildScribe

open Codec

/-- The text holds the value, blanks around it and nothing else. Repeated keys of the text
are kept. -/
def Json.IsTextOf (text : String) (json : Json) : Prop :=
  Reading.run
    (do
      let read ← Reading.value nestingLimit
      Reading.endOfText
      pure read)
    text.toList = .ok json

theorem Json.IsTextOf.read {text : String} {json : Json} (isText : IsTextOf text json) :
    ∃ next, Reading.value nestingLimit (.start text.toList) = .ok json next ∧
      ∃ stop, Reading.endOfText next = .ok () stop := by
  unfold IsTextOf Reading.run at isText
  split at isText
  · next read =>
    cases isText
    obtain ⟨raw, middle, begun, read⟩ := Reading.bind_eq_ok.mp read
    obtain ⟨_, stop, ended, read⟩ := Reading.bind_eq_ok.mp read
    obtain ⟨rfl, rfl⟩ := Reading.pure_eq_ok.mp read
    exact ⟨middle, begun, _, ended⟩
  · cases isText

/-- A text without repeated keys is parsed as the value that it holds. -/
theorem Json.IsTextOf.parse {text : String} {json : Json} (isText : IsTextOf text json)
    (distinct : json.DistinctKeys) : Json.parse text = .ok json := by
  obtain ⟨middle, begun, stop, ended⟩ := isText.read
  unfold Json.parse Reading.run Reading.document
  rw [Reading.bind_of_ok begun, Reading.bind_of_ok ended, distinct.merged_eq]
  rfl

theorem Repository.mavenRecord_agreesOn {json : Json} {exempt : Prop} :
    mavenRecord.codec.AgreesOn exempt json := by
  apply Record.codec_agreesOn_of_fields (by decide)
  simp only [mavenRecord, List.forall_mem_cons]
  exact ⟨fun _ => Field.of_agreesOn text_agreesOn _ _ _ _, by simp⟩

namespace Repository

/-- The body of the repository is a list. -/
def IsListedMaven (json : Json) : Prop :=
  ∃ body, json = .object [("maven", .array body)]

/-- The readers of a repository differ only in the body of `maven`. -/
theorem codec_agreesOn {json : Json} : codec.AgreesOn (IsListedMaven json) json := by
  apply Variant.codec_agreesOn
  rintro name body rest rfl variant selected
  have isVariant := Variant.mem_of_select selected
  have named := Variant.name_of_select selected
  simp only [List.mem_cons, List.not_mem_nil, or_false] at isVariant
  rcases isVariant with rfl | rfl | rfl | rfl | rfl
  · exact Variant.plain_agreesOn _ _
  · exact Variant.plain_agreesOn _ _
  · exact Variant.plain_agreesOn _ _
  · exact Variant.plain_agreesOn _ _
  · subst named
    apply (Variant.withBody_agreesOn mavenRecord_agreesOn _ _).mono
    rintro ⟨items, rfl⟩ rfl
    exact ⟨items, rfl⟩

theorem IsListedMaven.refused {json : Json} (listed : IsListedMaven json) :
    ¬codec.Accepts json := by
  obtain ⟨body, rfl⟩ := listed
  rintro ⟨repository, read⟩
  cases read

/-- Among the repositories of a record there is one whose body is a list. -/
def ListedMavenIn {σ : Type} (record : Record σ) (json : Json) : Prop :=
  ∃ items, ("repositories", .array items) ∈ record.parts json ∧
    ∃ item ∈ items, IsListedMaven item

variable {σ : Type} {record : Record σ} {json part : Json}

theorem list_agreesOn (isPart : ("repositories", part) ∈ record.parts json) :
    codec.list.AgreesOn (ListedMavenIn record json) part := by
  apply Codec.list_agreesOn
  rintro items rfl item isItem
  exact codec_agreesOn.mono fun listed => ⟨items, isPart, item, isItem, listed⟩

/-- Such a value is no value of the record. -/
theorem ListedMavenIn.refused (listed : ListedMavenIn record json)
    (names : record.names.Nodup) {required : Bool} {get : σ → List Repository}
    {set : List Repository → σ → σ}
    (isField : record.field? "repositories" =
      some (.of "repositories" required codec.list get set)) :
    ¬record.codec.Accepts json := by
  intro accepts
  obtain ⟨items, isPart, item, isItem, isListed⟩ := listed
  have onField := Record.accepts_parts names accepts _ isPart _ isField
  exact isListed.refused (accepts_of_list (Field.accepts_of onField) item isItem)

end Repository

theorem PublicationDescription.codec_agreesOn {json : Json} {exempt : Prop} :
    record.codec.AgreesOn exempt json := by
  apply Record.codec_agreesOn_of_fields (by decide)
  simp only [record, List.forall_mem_cons]
  exact ⟨fun _ => Field.of_agreesOn text_agreesOn _ _ _ _,
    fun _ => Field.of_agreesOn text_agreesOn _ _ _ _,
    fun _ => Field.of_agreesOn (optional_agreesOn text_agreesOn) _ _ _ _,
    fun _ => Field.of_agreesOn (optional_agreesOn text_agreesOn) _ _ _ _,
    fun _ => Field.of_agreesOn (optional_agreesOn text_agreesOn) _ _ _ _,
    fun _ => Field.of_agreesOn (optional_agreesOn text_agreesOn) _ _ _ _, by simp⟩

theorem SigningDescription.codec_agreesOn {json : Json} {exempt : Prop} :
    record.codec.AgreesOn exempt json := by
  apply Record.codec_agreesOn_of_fields (by decide)
  simp only [record, List.forall_mem_cons]
  exact ⟨fun _ => Field.of_agreesOn (oneOf_agreesOn _ _ _) _ _ _ _,
    fun _ => Field.of_agreesOn (oneOf_agreesOn _ _ _) _ _ _ _,
    fun _ => Field.of_agreesOn flag_agreesOn _ _ _ _, by simp⟩

theorem PublishingDescription.codec_agreesOn {json : Json} :
    record.codec.AgreesOn (Repository.ListedMavenIn record json) json := by
  apply Record.codec_agreesOn (by decide)
  rintro ⟨name, part⟩ isPart field isField
  have known := List.mem_of_find?_eq_some isField
  have named : field.name = name := by simpa using List.find?_some isField
  subst named
  simp only [record, List.mem_cons, List.not_mem_nil, or_false] at known
  rcases known with rfl | rfl
  · exact Field.of_agreesOn (Repository.list_agreesOn isPart) _ _ _ _
  · apply Field.of_agreesOn
    exact Codec.list_agreesOn fun _ _ _ _ => PublicationDescription.codec_agreesOn

namespace ScriptDescription

/-- Among the repositories of the description, or among those it publishes to, there is one
whose body is a list. -/
inductive HasListedMaven (json : Json) : Prop where
  | ofScript : Repository.ListedMavenIn record json → HasListedMaven json
  | ofPublishing {publishing : Json} : ("publishing", publishing) ∈ record.parts json →
      Repository.ListedMavenIn PublishingDescription.record publishing →
      HasListedMaven json

variable {json : Json}

theorem codec_agreesOn : codec.AgreesOn (HasListedMaven json) json := by
  apply Record.codec_agreesOn (by decide)
  rintro ⟨name, part⟩ isPart field isField
  have known := List.mem_of_find?_eq_some isField
  have named : field.name = name := by simpa using List.find?_some isField
  subst named
  have optionalText : (optional text).AgreesOn (HasListedMaven json) part :=
    optional_agreesOn text_agreesOn
  have values : (dictionary DescribedValue.codec).AgreesOn (HasListedMaven json) part :=
    dictionary_agreesOn fun _ _ _ _ => oneOf_agreesOn _ _ _
  simp only [record, List.mem_cons, List.not_mem_nil, or_false] at known
  rcases known with rfl | rfl | rfl | rfl | rfl | rfl | rfl | rfl | rfl | rfl
  · exact Field.of_agreesOn (Codec.list_agreesOn fun _ _ _ _ => text_agreesOn) _ _ _ _
  · exact Field.of_agreesOn optionalText _ _ _ _
  · exact Field.of_agreesOn (Codec.list_agreesOn fun _ _ _ _ => oneOf_agreesOn _ _ _) _ _ _ _
  · exact Field.of_agreesOn optionalText _ _ _ _
  · exact Field.of_agreesOn optionalText _ _ _ _
  · exact Field.of_agreesOn values _ _ _ _
  · exact Field.of_agreesOn values _ _ _ _
  · exact Field.of_agreesOn ((Repository.list_agreesOn isPart).mono .ofScript) _ _ _ _
  · have published := PublishingDescription.codec_agreesOn.mono
      (HasListedMaven.ofPublishing isPart)
    exact Field.of_agreesOn (optional_agreesOn published) _ _ _ _
  · exact Field.of_agreesOn (optional_agreesOn SigningDescription.codec_agreesOn) _ _ _ _

theorem HasListedMaven.refused (listed : HasListedMaven json) : ¬codec.Accepts json := by
  intro accepts
  cases listed with
  | ofScript listed => exact listed.refused (by decide) rfl accepts
  | @ofPublishing publishing isPart listed =>
      have onField := Record.accepts_parts (by decide) accepts _ isPart _ rfl
      have present : publishing ≠ .null := by
        rintro rfl
        obtain ⟨items, isPart, _⟩ := listed
        cases isPart
      have published := accepts_of_optional (Field.accepts_of onField) present
      exact listed.refused (by decide) rfl published

theorem ofJson_eq_ok {script : ScriptDescription} :
    ofJson json = .ok script ↔ codec.fromJson json = .ok script := by
  unfold ofJson
  cases codec.fromJson json <;> simp [Except.mapError]

theorem ofText_eq_ok {text : String} {script : ScriptDescription} :
    ofText text = .ok script ↔
      ∃ stop, codec.fromText nestingLimit (.start text.toList) = .ok script stop := by
  unfold ofText readText Reading.run
  cases codec.fromText nestingLimit (.start text.toList) <;> simp [Except.mapError]

/-- A description is read from the value of a text exactly if it is read from the text and
no body of a repository is a list. -/
theorem ofJson_iff_ofText {text : String} (isText : Json.IsTextOf text json)
    (distinct : json.DistinctKeys) (script : ScriptDescription) :
    ofJson json = .ok script ↔ ofText text = .ok script ∧ ¬HasListedMaven json := by
  obtain ⟨next, begun, _⟩ := isText.read
  have follows := codec_agreesOn distinct nestingLimit _ next begun
  rw [ofJson_eq_ok, ofText_eq_ok]
  cases known : codec.fromJson json with
  | ok read =>
      have accepts : codec.Accepts json := ⟨read, known⟩
      rw [known] at follows
      have onText : codec.fromText nestingLimit (.start text.toList) = .ok read next := follows
      rw [onText]
      constructor
      · rintro ⟨⟩
        exact ⟨⟨next, rfl⟩, fun listed => listed.refused accepts⟩
      · rintro ⟨⟨stop, same⟩, _⟩
        cases same
        rfl
  | error fault =>
      rw [known] at follows
      constructor
      · intro accepted
        cases accepted
      · rintro ⟨⟨stop, accepted⟩, noList⟩
        exact (follows.resolve_left noList script stop accepted).elim

/-- The body of the repository is an object. -/
theorem ofText_of_maven_object :
    Json.IsTextOf "\x7b\"repositories\": [\x7b\"maven\": \x7b\"url\": \"u\"\x7d\x7d]\x7d\n"
        (.object [("repositories",
          .array [.object [("maven", .object [("url", .string "u")])]])]) ∧
      (Json.object [("repositories",
        .array [.object [("maven", .object [("url", .string "u")])]])]).DistinctKeys ∧
      ofText "\x7b\"repositories\": [\x7b\"maven\": \x7b\"url\": \"u\"\x7d\x7d]\x7d\n" =
        .ok { repositories := [.maven "u"] } ∧
      ¬HasListedMaven (.object [("repositories",
        .array [.object [("maven", .object [("url", .string "u")])]])]) := by
  have isText : Json.IsTextOf
      "\x7b\"repositories\": [\x7b\"maven\": \x7b\"url\": \"u\"\x7d\x7d]\x7d\n"
      (.object [("repositories",
        .array [.object [("maven", .object [("url", .string "u")])]])]) := by
    unfold Json.IsTextOf
    decide +kernel
  have distinct : (Json.object [("repositories",
      .array [.object [("maven", .object [("url", .string "u")])]])]).DistinctKeys := by
    simp
  exact ⟨isText, distinct, (ofJson_iff_ofText isText distinct _).mp rfl⟩

/-- The body of the repository is a list: the text is accepted and its value is not. -/
theorem ofText_of_maven_list :
    Json.IsTextOf "\x7b\"repositories\":[\x7b\"maven\":[\"u\"]\x7d]\x7d"
        (.object [("repositories", .array [.object [("maven", .array [.string "u"])]])]) ∧
      (Json.object
        [("repositories", .array [.object [("maven", .array [.string "u"])]])]).DistinctKeys ∧
      ofText "\x7b\"repositories\":[\x7b\"maven\":[\"u\"]\x7d]\x7d" =
        .ok { repositories := [.maven "u"] } ∧
      ∀ script, ofJson (.object
        [("repositories", .array [.object [("maven", .array [.string "u"])]])]) ≠
          .ok script := by
  refine ⟨?_, by simp, by decide +kernel, fun script accepted => by cases accepted⟩
  unfold Json.IsTextOf
  decide +kernel

end ScriptDescription

end BuildScribe
