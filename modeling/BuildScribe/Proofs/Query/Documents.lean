import BuildScribe.Json.Equality
import BuildScribe.Proofs.Traversal
import BuildScribe.Query.Outputs
import Mathlib.Data.List.Forall2

/-!
# What comes out of filters

Whatever engine runs a filter, its outputs become documents one by one, in order. The first
output that stands for none is reported by its number, and nothing that came before it is
kept.
-/

namespace BuildScribe

namespace FilterEngine

/-- An output stands for the document that it is the text of. -/
def StandsFor (output : FilterOutput) (document : Json) : Prop :=
  ∃ text, output = .ok text ∧ Json.parse text = .ok document

/-- The outputs of the filter for the value stand for the documents, in order. -/
def Yields (engine : FilterEngine) (source : String) (input : Json)
    (documents : List Json) : Prop :=
  ∃ outputs, engine.compile source = .ok outputs ∧
    List.Forall₂ StandsFor (outputs input) documents

/-- The engine can do nothing with the filter, or one of its outputs stands for no document
while all those before it do. -/
inductive Refuses (engine : FilterEngine) (source : String) (input : Json) :
    FilterFault → Prop where
  | unparsable {reports : List (String × Report)} :
      engine.compile source = .error (.unparsable reports) →
      Refuses engine source input (.unparsable reports)
  | undefinedNames {names : List UndefinedName} :
      engine.compile source = .error (.undefinedNames names) →
      Refuses engine source input (.undefinedNames source names)
  | failed {outputs : Json → List FilterOutput} {front back : List FilterOutput}
      {documents : List Json} {report : Report} :
      engine.compile source = .ok outputs → outputs input = front ++ .error report :: back →
      List.Forall₂ StandsFor front documents →
      Refuses engine source input (.failedOutput (.failed front.length report))
  | notJson {outputs : Json → List FilterOutput} {front back : List FilterOutput}
      {documents : List Json} {text : String} {fault : ReadFault} :
      engine.compile source = .ok outputs → outputs input = front ++ .ok text :: back →
      List.Forall₂ StandsFor front documents → Json.parse text = .error fault →
      Refuses engine source input
        (.failedOutput (.notJson front.length text (fault.causeText text.toList)))

variable {engine : FilterEngine} {source : String} {input : Json} {number : Nat}

theorem readOutput_eq_ok_iff {output : FilterOutput} {document : Json} :
    readOutput (output, number) = .ok document ↔ StandsFor output document := by
  unfold StandsFor
  cases output with
  | error report => simp [readOutput]
  | ok text => simp [readOutput, except_mapError_eq_ok]

theorem readOutput_eq_error_iff {output : FilterOutput} {fault : OutputFault} :
    readOutput (output, number) = .error fault ↔
      (∃ report, output = .error report ∧ fault = .failed number report) ∨
      ∃ text cause, output = .ok text ∧ Json.parse text = .error cause ∧
        fault = .notJson number text (cause.causeText text.toList) := by
  cases output with
  | error report => simp [readOutput, eq_comm]
  | ok text => simp [readOutput, except_mapError_eq_error, eq_comm (a := fault)]

theorem mapM_readOutput_eq_ok_iff {outputs : List FilterOutput} {documents : List Json} :
    (outputs.zipIdx number).mapM readOutput = .ok documents ↔
      List.Forall₂ StandsFor outputs documents := by
  induction outputs generalizing number documents with
  | nil =>
      constructor
      · rintro ⟨⟩
        exact .nil
      · rintro ⟨⟩
        rfl
  | cons output rest ih =>
      rw [List.zipIdx_cons, List.mapM_cons]
      constructor
      · intro passed
        obtain ⟨document, read, passed⟩ := except_bind_eq_ok.mp passed
        obtain ⟨others, onRest, made⟩ := except_bind_eq_ok.mp passed
        cases made
        exact .cons (readOutput_eq_ok_iff.mp read) (ih.mp onRest)
      · intro onOutputs
        obtain ⟨document, others, stands, onRest, rfl⟩ := List.forall₂_cons_left_iff.mp onOutputs
        rw [readOutput_eq_ok_iff.mpr stands, ih.mpr onRest]
        rfl

theorem documents_eq_ok_iff {documents : List Json} :
    engine.documents source input = .ok documents ↔ engine.Yields source input documents := by
  unfold FilterEngine.documents Yields
  cases engine.compile source with
  | error fault => cases fault <;> simp
  | ok outputs =>
      simp only [except_mapError_eq_ok, mapM_readOutput_eq_ok_iff, Except.ok.injEq,
        exists_eq_left']

/-- The number of the first output that is refused counts the documents before it. -/
theorem mapM_readOutput_eq_error_iff {outputs : List FilterOutput} {fault : OutputFault} :
    outputs.zipIdx.mapM readOutput = .error fault ↔
      ∃ front output back documents, outputs = front ++ output :: back ∧
        List.Forall₂ StandsFor front documents ∧
        readOutput (output, front.length) = .error fault := by
  rw [mapM_eq_error_iff]
  constructor
  · rintro ⟨_, _, _, split, ⟨documents, passed⟩, refused⟩
    obtain ⟨front, rest, rfl, rfl, onRest⟩ := List.zipIdx_eq_append_iff.mp split
    obtain ⟨output, back, rfl, rfl, rfl⟩ := List.zipIdx_eq_cons_iff.mp onRest.symm
    rw [Nat.zero_add] at refused
    exact ⟨front, output, back, documents, rfl, mapM_readOutput_eq_ok_iff.mp passed, refused⟩
  · rintro ⟨front, output, back, documents, rfl, onFront, refused⟩
    refine ⟨front.zipIdx, (output, front.length), back.zipIdx (front.length + 1), ?_,
      ⟨documents, mapM_readOutput_eq_ok_iff.mpr onFront⟩, refused⟩
    rw [List.zipIdx_append, List.zipIdx_cons, Nat.zero_add]

theorem documents_eq_error_iff_of_compile {outputs : Json → List FilterOutput}
    (compiled : engine.compile source = .ok outputs) {fault : FilterFault} :
    engine.documents source input = .error fault ↔
      ∃ front output back documents cause, outputs input = front ++ output :: back ∧
        List.Forall₂ StandsFor front documents ∧
        readOutput (output, front.length) = .error cause ∧ .failedOutput cause = fault := by
  unfold FilterEngine.documents
  rw [compiled]
  dsimp only
  rw [except_mapError_eq_error]
  constructor
  · rintro ⟨cause, failed, rfl⟩
    obtain ⟨front, output, back, documents, split, onFront, refused⟩ :=
      mapM_readOutput_eq_error_iff.mp failed
    exact ⟨front, output, back, documents, cause, split, onFront, refused, rfl⟩
  · rintro ⟨front, output, back, documents, cause, split, onFront, refused, rfl⟩
    exact ⟨cause, mapM_readOutput_eq_error_iff.mpr
      ⟨front, output, back, documents, split, onFront, refused⟩, rfl⟩

/-- A filter fails with the fault that the engine has found in its text, or with that of its
first output that stands for no document. -/
theorem documents_eq_error_iff {fault : FilterFault} :
    engine.documents source input = .error fault ↔ engine.Refuses source input fault := by
  constructor
  · intro refused
    cases compiled : engine.compile source with
    | error found =>
        unfold FilterEngine.documents at refused
        rw [compiled] at refused
        cases found with
        | unparsable reports =>
            cases refused
            exact .unparsable compiled
        | undefinedNames names =>
            cases refused
            exact .undefinedNames compiled
    | ok outputs =>
        obtain ⟨front, output, back, documents, cause, split, onFront, unread, rfl⟩ :=
          (documents_eq_error_iff_of_compile compiled).mp refused
        rcases readOutput_eq_error_iff.mp unread with ⟨report, rfl, rfl⟩ |
          ⟨text, fault, rfl, malformed, rfl⟩
        · exact .failed compiled split onFront
        · exact .notJson compiled split onFront malformed
  · intro refuses
    cases refuses with
    | unparsable compiled =>
        unfold FilterEngine.documents
        rw [compiled]
    | undefinedNames compiled =>
        unfold FilterEngine.documents
        rw [compiled]
    | failed compiled split onFront =>
        exact (documents_eq_error_iff_of_compile compiled).mpr
          ⟨_, _, _, _, _, split, onFront, rfl, rfl⟩
    | notJson compiled split onFront malformed =>
        exact (documents_eq_error_iff_of_compile compiled).mpr
          ⟨_, _, _, _, _, split, onFront,
            readOutput_eq_error_iff.mpr (.inr ⟨_, _, rfl, malformed, rfl⟩), rfl⟩

example : Json.filtered "., .[]" (.bool true) =
    .error (.failedOutput (.failed 1 none)) := by
  decide +kernel

end FilterEngine

end BuildScribe
