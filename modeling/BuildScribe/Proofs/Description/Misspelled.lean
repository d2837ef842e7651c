import BuildScribe.Description.Script
import BuildScribe.Proofs.Json.Extended

/-!
# Misspelled keys

The objects that stand for parts of a description, and what is made of a member whose key
is no field of its part. Most parts refuse it; a plugin and the body of a repository ignore
it, and the description is read as if the member were not there.
-/

namespace BuildScribe

open Codec Json

theorem DescribedValue.valuesUnder_gain {key other : String} (different : other ≠ key)
    (value : Json) (before after : List (String × Json)) :
    valuesUnder other (before ++ (key, value) :: after) =
      valuesUnder other (before ++ after) := by
  have dropped : (key == other) = false := beq_false_of_ne different.symm
  simp [valuesUnder, dropped]

/-- The keys that mean something in a plugin's object. -/
def PluginDescription.names : List String :=
  ["id", "version", "apply"]

/-- A plugin is read from the values under its names, so any other member is ignored. -/
theorem PluginDescription.codec_handles_gain {key : String} (unknown : key ∉ names)
    (value : Json) : codec.Handles (Gains key value) none := by
  rintro json changed ⟨before, after⟩ _
  simp only [names, List.mem_cons, List.not_mem_nil, or_false, not_or] at unknown
  obtain ⟨notId, notVersion, notApply⟩ := unknown
  have same : ofJson? (.object (before ++ (key, value) :: after)) =
      ofJson? (.object (before ++ after)) := by
    simp only [ofJson?, DescribedValue.valuesUnder_gain (Ne.symm notId),
      DescribedValue.valuesUnder_gain (Ne.symm notVersion),
      DescribedValue.valuesUnder_gain (Ne.symm notApply)]
  simp only [codec, oneOf, same]
  exact .ignored

/-- The object of a repository names its kind and holds nothing else. -/
theorem Repository.codec_handles_gain (key : String) (value : Json) :
    codec.Handles (Gains key value)
      (some (.wrongValue .object "map with a single key")) :=
  Variant.codec_handles_gain _ toJson key value

/-- The body of a repository ignores a member that is no field. -/
theorem Repository.codec_handles_body_gain {key : String}
    (unknown : key ∉ mavenRecord.names) (value : Json) :
    codec.Handles (AtBody "maven" (Gains key value)) none :=
  Variant.codec_handles_atBody rfl
    (Variant.withBody_handles_gain unknown value "maven" maven)

namespace ScriptDescription

/-- What an object of a description may stand for. -/
inductive Part where
  | script
  | plugin
  /-- A repository, by the object whose only member is named for its kind. -/
  | repository
  /-- The body of a repository with an address. -/
  | address
  | publishing
  | publication
  | signing

namespace Part

/-- The keys that mean something in an object, apart from the one that names the kind of a
repository. -/
def names : Part → List String
  | script => record.names
  | plugin => PluginDescription.names
  | repository => []
  | address => Repository.mavenRecord.names
  | publishing => PublishingDescription.record.names
  | publication => PublicationDescription.record.names
  | signing => SigningDescription.record.names

/-- Why a description is refused when an object of the part has a member under a key that is
not one of its names. Without a cause the member is ignored. -/
def refusal (key : String) : Part → Option ReadCause
  | plugin | address => none
  | repository => some (.wrongValue .object "map with a single key")
  | part => some (.unknownField key part.names)

/-- The value of a description is changed in an object that stands for the part, wherever
such an object may be. -/
inductive ChangedIn (change : Json → Json → Prop) : Part → Json → Json → Prop where
  | script {json changed : Json} : change json changed → ChangedIn change script json changed
  | plugin {json changed : Json} :
      record.AtField "plugins" (AtItem change) json changed →
      ChangedIn change plugin json changed
  | repository {json changed : Json} :
      record.AtField "repositories" (AtItem change) json changed →
      ChangedIn change repository json changed
  | address {json changed : Json} :
      record.AtField "repositories" (AtItem (AtBody "maven" change)) json changed →
      ChangedIn change address json changed
  | publishing {json changed : Json} :
      record.AtField "publishing" change json changed →
      ChangedIn change publishing json changed
  | publishedRepository {json changed : Json} :
      record.AtField "publishing"
        (PublishingDescription.record.AtField "repositories" (AtItem change)) json changed →
      ChangedIn change repository json changed
  | publishedAddress {json changed : Json} :
      record.AtField "publishing"
        (PublishingDescription.record.AtField "repositories"
          (AtItem (AtBody "maven" change))) json changed →
      ChangedIn change address json changed
  | publication {json changed : Json} :
      record.AtField "publishing"
        (PublishingDescription.record.AtField "publications" (AtItem change)) json changed →
      ChangedIn change publication json changed
  | signing {json changed : Json} :
      record.AtField "signing" change json changed → ChangedIn change signing json changed

end Part

variable {change : Json → Json → Prop} {refusal : Option ReadCause}

theorem codec_handles_repositories (handles : Repository.codec.Handles change refusal) :
    codec.Handles (record.AtField "repositories" (AtItem change)) refusal :=
  Record.codec_handles_atField (by decide) rfl
    (Field.of_handles (list_handles handles) _ _ _ _)

theorem codec_handles_publishing
    (handles : PublishingDescription.record.codec.Handles change refusal)
    (present : ChangesPresent change) :
    codec.Handles (record.AtField "publishing" change) refusal :=
  Record.codec_handles_atField (by decide) rfl
    (Field.of_handles (optional_handles handles present) _ _ _ _)

theorem codec_handles_published (handles : Repository.codec.Handles change refusal) :
    codec.Handles
      (record.AtField "publishing"
        (PublishingDescription.record.AtField "repositories" (AtItem change))) refusal := by
  apply codec_handles_publishing _ (Record.AtField.changesPresent _ _ _)
  exact Record.codec_handles_atField (by decide) rfl
    (Field.of_handles (list_handles handles) _ _ _ _)

/-- The reader of descriptions refuses or ignores a misspelled key by the part that it
stands in. -/
theorem codec_handles_misspelled {part : Part} {key : String}
    (misspelled : key ∉ part.names) (value : Json) :
    codec.Handles (Part.ChangedIn (Gains key value) part) (part.refusal key) := by
  have present := Gains.changesPresent key value
  intro json changed isChanged accepts
  cases isChanged with
  | script isChanged =>
      exact Record.codec_handles_gain misspelled value _ _ isChanged accepts
  | plugin isChanged =>
      refine Record.codec_handles_atField (by decide) rfl ?_ _ _ isChanged accepts
      have onPlugin := PluginDescription.codec_handles_gain misspelled value
      exact Field.of_handles (list_handles onPlugin) _ _ _ _
  | repository isChanged =>
      have onRepository := Repository.codec_handles_gain key value
      exact codec_handles_repositories onRepository _ _ isChanged accepts
  | address isChanged =>
      have onAddress := Repository.codec_handles_body_gain misspelled value
      exact codec_handles_repositories onAddress _ _ isChanged accepts
  | publishing isChanged =>
      have onPublishing := Record.codec_handles_gain misspelled value
      exact codec_handles_publishing onPublishing present _ _ isChanged accepts
  | publishedRepository isChanged =>
      have onRepository := Repository.codec_handles_gain key value
      exact codec_handles_published onRepository _ _ isChanged accepts
  | publishedAddress isChanged =>
      have onAddress := Repository.codec_handles_body_gain misspelled value
      exact codec_handles_published onAddress _ _ isChanged accepts
  | publication isChanged =>
      refine codec_handles_publishing ?_ (Record.AtField.changesPresent _ _ _) _ _ isChanged
        accepts
      have onPublication := Record.codec_handles_gain misspelled value
      exact Record.codec_handles_atField (by decide) rfl
        (Field.of_handles (list_handles onPublication) _ _ _ _)
  | signing isChanged =>
      refine Record.codec_handles_atField (by decide) rfl ?_ _ _ isChanged accepts
      have onSigning := Record.codec_handles_gain misspelled value
      exact Field.of_handles (optional_handles onSigning present) _ _ _ _

/-- A misspelled key that is added to an accepted description makes it an input fault that
names the key, or one member too many for a repository. Only in a plugin and in the body of a
repository the same description is read as before. -/
theorem ofJson_of_misspelled {json changed : Json} {script : ScriptDescription}
    (accepted : ofJson json = .ok script) {part : Part} {key : String} {value : Json}
    (misspelled : key ∉ part.names)
    (isChanged : Part.ChangedIn (Gains key value) part json changed) :
    match part.refusal key with
    | some cause => ∃ path, ofJson changed = .error (.input (.unreadable path cause none))
    | none => ofJson changed = .ok script := by
  unfold ofJson at accepted ⊢
  cases read : codec.fromJson json with
  | error fault =>
      rw [read] at accepted
      cases accepted
  | ok known =>
      have handled := codec_handles_misspelled misspelled value json changed isChanged
        ⟨known, read⟩
      rw [read] at accepted
      cases accepted
      rw [read] at handled
      generalize part.refusal key = refusal at handled ⊢
      generalize codec.fromJson changed = answer at handled ⊢
      cases handled with
      | refused path => exact ⟨path, rfl⟩
      | ignored => rfl

/-- A misspelled group in a publication, in a description that is a list. -/
theorem ofJson_of_misspelled_group :
    ofJson (.array [.array [], .null, .array [], .null, .null, .object [], .object [],
        .array [], .object [("publications", .array [.object
          [("name", .string "p"), ("version", .null)]])]]) =
        .ok { publishing := some { publications := [{ name := "p" }] } } ∧
      "grupId" ∉ Part.publication.names ∧
      ∃ path, ofJson (.array [.array [], .null, .array [], .null, .null, .object [],
          .object [], .array [], .object [("publications", .array [.object
            [("name", .string "p"), ("grupId", .string "g"), ("version", .null)]])]]) =
        .error (.input (.unreadable path
          (.unknownField "grupId"
            ["name", "type", "component", "groupId", "artifactId", "version"]) none)) := by
  have accepted : ofJson (.array [.array [], .null, .array [], .null, .null, .object [],
      .object [], .array [], .object [("publications", .array [.object
        [("name", .string "p"), ("version", .null)]])]]) =
      .ok { publishing := some { publications := [{ name := "p" }] } } := rfl
  have misspelled : "grupId" ∉ Part.publication.names := by decide
  have isChanged : Part.ChangedIn (Gains "grupId" (.string "g")) .publication _ _ :=
    .publication (.element
      [.array [], .null, .array [], .null, .null, .object [], .object [], .array []] [] rfl
      (.member [] [] (.item [] [] (.member [("name", .string "p")] [("version", .null)]))))
  exact ⟨accepted, misspelled, ofJson_of_misspelled accepted misspelled isChanged⟩

/-- A plugin that is meant not to be applied is applied: its key is misspelled, and nobody
says so. -/
theorem ofJson_ignores_misspelled_apply :
    ofJson (.object [("plugins", .array [.object [("id", .string "p")]])]) =
        .ok { plugins := [.external "p" none none] } ∧
      "aply" ∉ Part.plugin.names ∧
      Part.ChangedIn (Gains "aply" (.bool false)) .plugin
        (.object [("plugins", .array [.object [("id", .string "p")]])])
        (.object [("plugins", .array [.object [("id", .string "p"), ("aply", .bool false)]])]) ∧
      ofJson (.object [("plugins", .array [.object
        [("id", .string "p"), ("aply", .bool false)]])]) =
        .ok { plugins := [.external "p" none none] } := by
  refine ⟨rfl, by decide, ?_, rfl⟩
  exact .plugin (.member [] [] (.item [] [] (.member [("id", .string "p")] [])))

end ScriptDescription

end BuildScribe
