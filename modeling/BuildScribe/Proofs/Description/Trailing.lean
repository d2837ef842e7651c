import BuildScribe.Description.Script
import BuildScribe.Proofs.Json.Forms
import Mathlib.Control.Monad.Basic

/-!
# Where the text of a description ends

A description is read from the text of one value, and the reading ends with it: what
stands behind it makes no difference. A document that is parsed as a whole has nothing but
blanks behind its value.
-/

namespace BuildScribe

open Codec

theorem Reading.isBlankText_of_endOfText {cursor next : Cursor}
    (ended : endOfText cursor = .ok () next) : IsBlankText cursor.rest := by
  obtain ⟨_, middle, skipped, ended⟩ := bind_eq_ok.mp ended
  cases skipped
  rw [peek_bind] at ended
  cases head : (cursor.rest.dropWhile isJsonBlank).head? with
  | some c =>
      simp only [head] at ended
      exact (failNext_ne_ok ended).elim
  | none =>
      have split : cursor.rest.takeWhile isJsonBlank ++ cursor.rest.dropWhile isJsonBlank =
          cursor.rest := List.takeWhile_append_dropWhile
      rw [List.head?_eq_none_iff.mp head, List.append_nil] at split
      rw [← split]
      exact passes_takeWhile isJsonBlank cursor.rest

/-- What is parsed is the text of one value with nothing but blanks around it. -/
theorem Json.isDocumentText_of_parse {text : String} {json : Json}
    (parsed : Json.parse text = .ok json) : IsDocumentText text.toList := by
  unfold Json.parse Reading.run at parsed
  cases read : Reading.document (.start text.toList) with
  | error fault stop =>
      rw [read] at parsed
      cases parsed
  | ok value next =>
      obtain ⟨raw, middle, begun, read⟩ := Reading.bind_eq_ok.mp read
      obtain ⟨_, last, ended, _⟩ := Reading.bind_eq_ok.mp read
      obtain ⟨taken, isValue, split, _⟩ := Reading.value_takes _ _ raw middle begun
      exact ⟨taken, middle.rest, split, isValue, Reading.isBlankText_of_endOfText ended⟩

theorem Repository.codec_takesValue : codec.TakesValue := by
  apply Variant.codec_takesValue
  simp only [List.forall_mem_cons]
  refine ⟨Variant.plain_takesValue _ _, Variant.plain_takesValue _ _,
    Variant.plain_takesValue _ _, Variant.plain_takesValue _ _,
    Variant.withBody_takesValue _ _ (Record.codec_takesValue ?_), by simp⟩
  simp only [mavenRecord, List.forall_mem_cons]
  exact ⟨Field.of_takesValue text_takesValue _ _ _ _, by simp⟩

theorem PublicationDescription.codec_takesValue : record.codec.TakesValue := by
  have optional := optional_takesValue text_takesValue
  apply Record.codec_takesValue
  simp only [record, List.forall_mem_cons]
  exact ⟨Field.of_takesValue text_takesValue _ _ _ _,
    Field.of_takesValue text_takesValue _ _ _ _, Field.of_takesValue optional _ _ _ _,
    Field.of_takesValue optional _ _ _ _, Field.of_takesValue optional _ _ _ _,
    Field.of_takesValue optional _ _ _ _, by simp⟩

theorem PublishingDescription.codec_takesValue : record.codec.TakesValue := by
  apply Record.codec_takesValue
  simp only [record, List.forall_mem_cons]
  exact ⟨Field.of_takesValue (list_takesValue Repository.codec_takesValue) _ _ _ _,
    Field.of_takesValue (list_takesValue PublicationDescription.codec_takesValue) _ _ _ _,
    by simp⟩

theorem SigningDescription.codec_takesValue : record.codec.TakesValue := by
  apply Record.codec_takesValue
  simp only [record, List.forall_mem_cons]
  exact ⟨Field.of_takesValue (oneOf_takesValue _ _ _) _ _ _ _,
    Field.of_takesValue (oneOf_takesValue _ _ _) _ _ _ _,
    Field.of_takesValue flag_takesValue _ _ _ _, by simp⟩

namespace ScriptDescription

theorem fields_takeValue : ∀ field ∈ record.fields, field.TakesValue := by
  have texts := list_takesValue text_takesValue
  have optionalText := optional_takesValue text_takesValue
  have plugins := list_takesValue (oneOf_takesValue "PluginDescription"
    PluginDescription.ofJson? PluginDescription.toJson)
  have values := dictionary_takesValue (oneOf_takesValue "ValueDescription"
    (fun json => some (DescribedValue.ofJson json)) DescribedValue.toJson)
  simp only [record, List.forall_mem_cons]
  exact ⟨Field.of_takesValue texts _ _ _ _, Field.of_takesValue optionalText _ _ _ _,
    Field.of_takesValue plugins _ _ _ _, Field.of_takesValue optionalText _ _ _ _,
    Field.of_takesValue optionalText _ _ _ _, Field.of_takesValue values _ _ _ _,
    Field.of_takesValue values _ _ _ _,
    Field.of_takesValue (list_takesValue Repository.codec_takesValue) _ _ _ _,
    Field.of_takesValue (optional_takesValue PublishingDescription.codec_takesValue) _ _ _ _,
    Field.of_takesValue (optional_takesValue SigningDescription.codec_takesValue) _ _ _ _,
    by simp⟩

/-- A text that is read as a description begins with a document that is one, and whatever
stands behind the document is not looked at. -/
theorem ofText_of_document {text : String} {script : ScriptDescription}
    (accepted : ofText text = .ok script) :
    ∃ document behind : String, text = document ++ behind ∧
      IsDocumentText document.toList ∧
      ∀ other, ofText (document ++ other) = .ok script := by
  unfold ofText readText Reading.run at accepted
  cases read : codec.fromText nestingLimit (.start text.toList) with
  | error fault stop =>
      rw [read] at accepted
      cases accepted
  | ok known next =>
      rw [read] at accepted
      cases accepted
      obtain ⟨taken, isValue, split, again⟩ :=
        Record.fromText_takesWhole fields_takeValue nestingLimit _ script next read
      refine ⟨.ofList taken, .ofList next.rest, ?_, ?_, ?_⟩
      · rw [← String.ofList_append, ← split]
        exact (String.ofList_toList (s := text)).symm
      · exact ⟨taken, [], by simp, isValue, .nil⟩
      · intro other
        have reread : codec.fromText nestingLimit
            (.start (String.ofList taken ++ other).toList) =
              .ok script ⟨other.toList, next.offset⟩ := by
          rw [String.toList_append, String.toList_ofList]
          exact again other.toList
        unfold ofText readText Reading.run
        rw [reread]
        rfl

/-- A description with a word behind it, which no parser of whole documents accepts. -/
theorem ofText_of_document_before_word :
    ofText "\x7b\"group\": \"g\"\x7d x" = .ok { group := some "g" } ∧
      ∃ document behind : String, "\x7b\"group\": \"g\"\x7d x" = document ++ behind ∧
        IsDocumentText document.toList ∧
        ∀ other, ofText (document ++ other) = .ok { group := some "g" } := by
  have accepted : ofText "\x7b\"group\": \"g\"\x7d x" = .ok { group := some "g" } := by
    decide +kernel
  exact ⟨accepted, ofText_of_document accepted⟩

/-- The empty description is read from a text that is refused as a document. -/
theorem ofText_of_refused_document :
    ofText "\x7b\x7d x" = .ok {} ∧ ∀ json, Json.parse "\x7b\x7d x" ≠ .ok json := by
  have accepted : ofText "\x7b\x7d x" = .ok {} := by
    decide +kernel
  have refused : (Json.parse "\x7b\x7d x").isOk = false := by
    decide +kernel
  refine ⟨accepted, fun json parsed => ?_⟩
  rw [parsed] at refused
  cases refused

end ScriptDescription

end BuildScribe
