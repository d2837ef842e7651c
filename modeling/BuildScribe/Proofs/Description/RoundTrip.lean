import BuildScribe.Description.Script
import BuildScribe.Proofs.Json.RoundTrip

/-!
# Descriptions that are read back

Every part of a description is read back from what is written for it, values apart: an
object that holds a string under `ref` is a reference, so it is no stable literal. But
such a literal is never read, and what is read as a description is therefore read back
from what is written for it.
-/

namespace BuildScribe

open Codec

namespace DescribedValue

/-- Whether the value counts as a reference to the path. -/
def PointsTo (json : Json) (path : String) : Prop :=
  ∃ members, json = .object members ∧ valuesUnder "ref" members = [.string path]

theorem ofJson_of_pointsTo {json : Json} {path : String} (points : PointsTo json path) :
    ofJson json = .reference path := by
  obtain ⟨members, rfl, onlyPath⟩ := points
  rw [ofJson, onlyPath]

theorem ofJson_of_not_pointsTo {json : Json} (distinct : json.DistinctKeys)
    (noPath : ∀ path, ¬PointsTo json path) : ofJson json = .literal json := by
  have merged : ofJson json = .literal json.merged := by
    cases json with
    | object members =>
        rw [ofJson]
        split
        · next path onlyPath => exact (noPath path ⟨members, rfl, onlyPath⟩).elim
        · rfl
    | _ => rfl
  rw [merged, distinct.merged_eq]

theorem codec_restores : codec.Restores := by
  intro json value distinct accepted
  cases accepted
  change Except.ok (ofJson (ofJson json).toJson) = .ok (ofJson json)
  by_cases isReference : ∃ path, PointsTo json path
  · obtain ⟨path, points⟩ := isReference
    have writtenPoints : PointsTo (reference path).toJson path := ⟨_, rfl, rfl⟩
    rw [ofJson_of_pointsTo points, ofJson_of_pointsTo writtenPoints]
  · have read := ofJson_of_not_pointsTo distinct (not_exists.mp isReference)
    rw [read, toJson, read]

end DescribedValue

theorem PluginDescription.codec_stable (plugin : PluginDescription) :
    codec.Stable plugin := by
  cases plugin with
  | core name => rfl
  | external id version apply => cases version <;> cases apply <;> rfl

theorem Repository.codec_stable (repository : Repository) : codec.Stable repository := by
  cases repository <;> rfl

theorem PublicationDescription.codec_stable (publication : PublicationDescription) :
    record.codec.Stable publication :=
  Record.codec_stable (by decide)
    (.cons (Field.of_rewrites (text_stable _) _ _)
      (.cons (Field.of_rewrites (text_stable _) _ _)
        (.cons (Field.of_rewrites (text_optional_stable _) _ _)
          (.cons (Field.of_rewrites (text_optional_stable _) _ _)
            (.cons (Field.of_rewrites (text_optional_stable _) _ _)
              (.cons (Field.of_rewrites (text_optional_stable _) _ _) .nil))))))
    rfl

theorem PublishingDescription.codec_stable (publishing : PublishingDescription) :
    record.codec.Stable publishing :=
  Record.codec_stable (by decide)
    (.cons (Field.of_rewrites (list_stable fun repository _ => repository.codec_stable) _ _)
      (.cons
        (Field.of_rewrites (list_stable fun publication _ => publication.codec_stable) _ _)
        .nil))
    rfl

namespace SigningDescription

/-- The key and the password are read back from what is written for them. -/
def IsStable (signing : SigningDescription) : Prop :=
  DescribedValue.codec.Stable signing.key ∧ DescribedValue.codec.Stable signing.password

theorem codec_stable {signing : SigningDescription} (stable : signing.IsStable) :
    record.codec.Stable signing :=
  Record.codec_stable (by decide)
    (.cons (Field.of_rewrites stable.1 _ _)
      (.cons (Field.of_rewrites stable.2 _ _)
        (.cons (Field.of_rewrites (flag_stable _) _ _) .nil)))
    rfl

theorem codec_restores : record.codec.Restores := by
  refine Record.codec_restores IsStable ⟨rfl, rfl⟩ ?_
    fun signing stable => codec_stable stable
  intro json distinct
  simp only [record, List.forall_mem_cons]
  refine ⟨.of ?_ _ _, .of ?_ _ _, .of ?_ _ _, by simp⟩
  · intro value read signing stable
    exact ⟨DescribedValue.codec_restores json value distinct read, stable.2⟩
  · intro value read signing stable
    exact ⟨stable.1, DescribedValue.codec_restores json value distinct read⟩
  · intro value read signing stable
    exact stable

end SigningDescription

namespace ScriptDescription

/-- The parts of a description that hold values are read back from what is written for
them. -/
structure IsStable (script : ScriptDescription) : Prop where
  vals : DescribedValue.codec.dictionary.Stable script.vals
  properties : DescribedValue.codec.dictionary.Stable script.properties
  signing : SigningDescription.record.codec.optional.Stable script.signing

theorem codec_stable {script : ScriptDescription} (stable : script.IsStable) :
    codec.Stable script := by
  have texts (values : List String) : (list text).Stable values :=
    list_stable fun value _ => text_stable value
  have plugins : (list PluginDescription.codec).Stable script.plugins :=
    list_stable fun plugin _ => plugin.codec_stable
  have repositories : (list Repository.codec).Stable script.repositories :=
    list_stable fun repository _ => repository.codec_stable
  have publishing :
      (optional PublishingDescription.record.codec).Stable script.publishing :=
    optional_stable (fun _ isNull => by cases isNull)
      fun publishing _ => publishing.codec_stable
  exact Record.codec_stable (by decide)
    (.cons (Field.of_rewrites (texts _) _ _)
      (.cons (Field.of_rewrites (text_optional_stable _) _ _)
        (.cons (Field.of_rewrites plugins _ _)
          (.cons (Field.of_rewrites (text_optional_stable _) _ _)
            (.cons (Field.of_rewrites (text_optional_stable _) _ _)
              (.cons (Field.of_rewrites stable.vals _ _)
                (.cons (Field.of_rewrites stable.properties _ _)
                  (.cons (Field.of_rewrites repositories _ _)
                    (.cons (Field.of_rewrites publishing _ _)
                      (.cons (Field.of_rewrites stable.signing _ _) .nil))))))))))
    rfl

theorem codec_restores : codec.Restores := by
  refine Record.codec_restores IsStable ⟨rfl, rfl, rfl⟩ ?_
    fun script stable => codec_stable stable
  intro json distinct
  have values := dictionary_restores DescribedValue.codec_restores
  have signing := optional_restores (fun _ isNull => by cases isNull)
    SigningDescription.codec_restores
  -- Fields that hold no values leave those that do as they are.
  have plain {α : Type} {form : Codec α} {get : ScriptDescription → α}
      {set : α → ScriptDescription → ScriptDescription} {name : String} {required : Bool}
      (same : ∀ value script, (set value script).vals = script.vals ∧
        (set value script).properties = script.properties ∧
        (set value script).signing = script.signing) :
      (Field.of name required form get set).KeepsFrom IsStable json := by
    apply Field.KeepsFrom.of
    intro value _ script stable
    obtain ⟨sameVals, sameProperties, sameSigning⟩ := same value script
    exact ⟨sameVals ▸ stable.vals, sameProperties ▸ stable.properties,
      sameSigning ▸ stable.signing⟩
  simp only [record, List.forall_mem_cons]
  refine ⟨plain fun _ _ => ⟨rfl, rfl, rfl⟩, plain fun _ _ => ⟨rfl, rfl, rfl⟩,
    plain fun _ _ => ⟨rfl, rfl, rfl⟩, plain fun _ _ => ⟨rfl, rfl, rfl⟩,
    plain fun _ _ => ⟨rfl, rfl, rfl⟩, .of ?_ _ _, .of ?_ _ _,
    plain fun _ _ => ⟨rfl, rfl, rfl⟩, plain fun _ _ => ⟨rfl, rfl, rfl⟩, .of ?_ _ _,
    by simp⟩
  · intro vals read script stable
    exact ⟨values json vals distinct read, stable.properties, stable.signing⟩
  · intro properties read script stable
    exact ⟨stable.vals, values json properties distinct read, stable.signing⟩
  · intro found read script stable
    exact ⟨stable.vals, stable.properties, signing json found distinct read⟩

/-- What is read as a description from a value is read back from what is written for it,
with everything that it holds. A value has no repeated keys. -/
theorem ofJson_toJson_of_ofJson {json : Json} (distinct : json.DistinctKeys)
    {script : ScriptDescription} (accepted : ofJson json = .ok script) :
    ofJson (codec.toJson script) = .ok script := by
  unfold ofJson at accepted ⊢
  cases read : codec.fromJson json with
  | error fault =>
      rw [read] at accepted
      cases accepted
  | ok known =>
      rw [read] at accepted
      cases accepted
      have again : codec.fromJson (codec.toJson script) = .ok script :=
        codec_restores json script distinct read
      rw [again]
      rfl

/-- A description in the form of a list, with a plugin that is an object, a reference and
an object that is none. -/
theorem reads_back_list :
    (Json.array [.array [.string "x.B", .string "x.B"], .null,
        .array [.object [("id", .string "p"), ("note", .null)]], .null, .null,
        .object [("a", .object [("ref", .string "b"), ("note", .null)]),
          ("c", .object [("ref", .bool true)])]]).DistinctKeys ∧
      ofJson (codec.toJson
        { imports := ["x.B", "x.B"]
          plugins := [.external "p" none none]
          vals := ⟨[("a", .reference "b"),
            ("c", .literal (.object [("ref", .bool true)]))]⟩ }) =
        .ok
          { imports := ["x.B", "x.B"]
            plugins := [.external "p" none none]
            vals := ⟨[("a", .reference "b"),
              ("c", .literal (.object [("ref", .bool true)]))]⟩ } := by
  have distinct : (Json.array [.array [.string "x.B", .string "x.B"], .null,
        .array [.object [("id", .string "p"), ("note", .null)]], .null, .null,
        .object [("a", .object [("ref", .string "b"), ("note", .null)]),
          ("c", .object [("ref", .bool true)])]]).DistinctKeys := by
    simp
  exact ⟨distinct, ofJson_toJson_of_ofJson distinct rfl⟩

end ScriptDescription

end BuildScribe
