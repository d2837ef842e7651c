import BuildScribe.Proofs.Layout.Opening
import BuildScribe.Proofs.Rendering.Position
import BuildScribe.Proofs.Traversal
import BuildScribe.Target.Emission
import Mathlib.Data.List.Forall2

/-!
# Emissions write fragments

An emission writes a fragment if it leaves in every buffer what the fragment leaves, and halts
with the failure of the fragment if there is one. Between an indentation and the way back it
has to leave the buffer one level deeper if it succeeds, but has to be back already if it
fails.
-/

namespace BuildScribe

theorem Fragment.nested_append (first second : Fragment) :
    (first ++ second).nested = first.nested ++ second.nested := by
  change (first.andThen second).nested = first.nested.andThen second.nested
  unfold andThen
  rw [failure_nested]
  cases first.failure with
  | some failure => rfl
  | none => rw [nested, List.map_append]; rfl

namespace Buffer

theorem level_endLine (buffer : Buffer) : buffer.endLine.level = buffer.level := by
  unfold endLine
  split <;> rfl

theorem level_mark (buffer : Buffer) (location : Option SourceLocation) :
    (buffer.mark location).level = buffer.level := by
  unfold mark
  cases location with
  | none => rfl
  | some known => dsimp only; split <;> rfl

theorem level_apply (buffer : Buffer) (stroke : Stroke) :
    (buffer.apply stroke).level = buffer.level := by
  cases stroke with
  | text written => exact level_append buffer written
  | line written => exact level_append buffer written
  | finish => exact level_endLine buffer
  | mark location => exact level_mark buffer location

theorem write_zero (buffer : Buffer) (stroke : Stroke) :
    buffer.write ⟨0, stroke⟩ = buffer.apply stroke :=
  congrArg (fun level => { buffer.apply stroke with level := level })
    (level_apply buffer stroke).symm

/-- A fragment that is written a level deeper leaves what a nested one leaves. -/
theorem indent_writeFragment (buffer : Buffer) (fragment : Fragment) :
    buffer.indent.writeFragment fragment = (buffer.writeFragment fragment.nested).indent := by
  have deeper : (buffer.indent.writeFragment fragment).level = buffer.level + 1 :=
    level_foldl_write buffer.indent fragment.pieces
  have sunk : buffer.writeFragment fragment.nested =
      { buffer.indent.writeFragment fragment with level := buffer.level } :=
    foldl_write_sunk buffer 1 fragment.pieces
  rw [sunk]
  exact congrArg (fun level => { buffer.indent.writeFragment fragment with level := level })
    deeper

theorem writeFragment_append {first : Fragment} (succeeds : first.failure = none)
    (buffer : Buffer) (second : Fragment) :
    buffer.writeFragment (first ++ second) =
      (buffer.writeFragment first).writeFragment second := by
  rw [writeFragment, Fragment.pieces_append succeeds, List.foldl_append]
  rfl

theorem writeFragment_append_of_fails {first : Fragment} {failure : Failure}
    (fails : first.failure = some failure) (buffer : Buffer) (second : Fragment) :
    buffer.writeFragment (first ++ second) = buffer.writeFragment first := by
  rw [writeFragment, Fragment.pieces_append_of_fails fails]
  rfl

end Buffer

namespace Emission

/-- A buffer as it is left, with the failure that it was left with. -/
def outcome : Buffer × Option Failure → EStateM.Result Halt Buffer Unit
  | (written, none) => .ok () written
  | (written, some failure) => .error (.failure failure) written

/-- Under the given setting for comments the emission does to a buffer what the fragment
does. -/
def Writes (comments : Bool) (emission : Emission) (fragment : Fragment) : Prop :=
  ∀ buffer : Buffer, buffer.options.comments = comments →
    emission.run buffer = outcome (buffer.emit fragment)

/-- A level deeper the emission does what the nested fragment does. It comes back to the level
of the buffer only if it fails. -/
def WritesNested (comments : Bool) (emission : Emission) (fragment : Fragment) : Prop :=
  ∀ buffer : Buffer, buffer.options.comments = comments →
    emission.run buffer.indent =
      match fragment.failure with
      | none => .ok () (buffer.writeFragment fragment.nested).indent
      | some failure => .error (.failure failure) (buffer.writeFragment fragment.nested)

variable {comments : Bool} {emission next : Emission} {first second fragment : Fragment}

theorem run_andThen_of_ok {buffer written : Buffer}
    (succeeds : emission.run buffer = .ok () written) :
    (do emission; next : Emission).run buffer = next.run written :=
  stateful_bind_of_ok succeeds fun _ => next

theorem run_andThen_of_error {buffer written : Buffer} {halt : Halt}
    (halts : emission.run buffer = .error halt written) :
    (do emission; next : Emission).run buffer = .error halt written :=
  stateful_bind_of_error halts fun _ => next

theorem run_dedent (buffer : Buffer) : dedent.run buffer.indent = .ok () buffer := rfl

theorem run_dedentOnFailure_of_ok {buffer written : Buffer}
    (succeeds : emission.run buffer = .ok () written) :
    (dedentOnFailure emission).run buffer = .ok () written := by
  change EStateM.tryCatch emission _ buffer = _
  unfold EStateM.tryCatch
  rw [show emission buffer = _ from succeeds]

theorem run_dedentOnFailure_of_failure {buffer written : Buffer} {failure : Failure}
    (fails : emission.run buffer = .error (.failure failure) written.indent) :
    (dedentOnFailure emission).run buffer = .error (.failure failure) written := by
  change EStateM.tryCatch emission _ buffer = _
  unfold EStateM.tryCatch
  rw [show emission buffer = _ from fails]
  exact run_andThen_of_ok (run_dedent written)

namespace Writes

theorem run_of_succeeds (writes : Writes comments emission fragment) {buffer : Buffer}
    (setting : buffer.options.comments = comments) (succeeds : fragment.failure = none) :
    emission.run buffer = .ok () (buffer.writeFragment fragment) := by
  rw [writes buffer setting, Buffer.emit, succeeds, outcome]

theorem run_of_fails (writes : Writes comments emission fragment) {buffer : Buffer}
    (setting : buffer.options.comments = comments) {failure : Failure}
    (fails : fragment.failure = some failure) :
    emission.run buffer = .error (.failure failure) (buffer.writeFragment fragment) := by
  rw [writes buffer setting, Buffer.emit, fails, outcome]

theorem nothing : Writes comments (pure ()) .empty :=
  fun _ _ => rfl

theorem ofStroke (stroke : Stroke) :
    Writes comments (modify (·.apply stroke)) (.ofStroke stroke) :=
  fun buffer _ => congrArg (EStateM.Result.ok ()) (buffer.write_zero stroke).symm

theorem append (written : String) : Writes comments (Emission.append written) (.text written) :=
  ofStroke (.text written)

theorem appendLine (written : String) :
    Writes comments (Emission.appendLine written) (.line written) :=
  ofStroke (.line written)

theorem endLine : Writes comments Emission.endLine .finish :=
  ofStroke .finish

theorem mark (location : Option SourceLocation) :
    Writes comments (Emission.mark location) (.mark location) := by
  cases location with
  | none => exact nothing
  | some known => exact ofStroke (.mark known)

theorem fail (failure : Failure) : Writes comments (Emission.fail failure) (.fail failure) :=
  fun _ _ => rfl

theorem andThen (onFirst : Writes comments emission first)
    (onSecond : Writes comments next second) :
    Writes comments (do emission; next) (first ++ second) := by
  intro buffer setting
  cases fails : first.failure with
  | none =>
      have kept : (buffer.writeFragment first).options.comments = comments := by
        rw [Buffer.options_writeFragment, setting]
      rw [run_andThen_of_ok (onFirst.run_of_succeeds setting fails), onSecond _ kept,
        Buffer.emit, Buffer.emit, Buffer.writeFragment_append fails, Fragment.failure_append,
        fails, Option.none_or]
  | some failure =>
      rw [run_andThen_of_error (onFirst.run_of_fails setting fails), Buffer.emit,
        Buffer.writeFragment_append_of_fails fails, Fragment.failure_append, fails,
        Option.some_or, outcome]

theorem onlyIf {condition : Bool} (writes : Writes comments emission fragment) :
    Writes comments (Emission.onlyIf condition emission)
      (if condition then fragment else .empty) := by
  cases condition with
  | false => exact nothing
  | true => exact writes

theorem onlyIf_not {condition : Bool} (writes : Writes comments emission fragment) :
    Writes comments (Emission.onlyIf (!condition) emission)
      (if condition then .empty else fragment) := by
  cases condition with
  | false => exact writes
  | true => exact nothing

/-- An optional part that is written with some text around it. -/
theorem option {part : Option Emission} {written : Option Fragment} {absent : Emission}
    {missing : Fragment} {present : Emission → Emission} {shown : Fragment → Fragment}
    (parts : Option.Rel (Writes comments) part written)
    (onAbsent : Writes comments absent missing)
    (onPresent : ∀ {emission fragment}, Writes comments emission fragment →
      Writes comments (present emission) (shown fragment)) :
    Writes comments (part.elim absent present) (written.elim missing shown) := by
  cases parts with
  | none => exact onAbsent
  | some writes => exact onPresent writes

theorem between {gap : Emission} {shown : Fragment} (onGap : Writes comments gap shown)
    {join : List Fragment → Fragment} (joinNil : join [] = .empty)
    (joinOne : ∀ only, join [only] = only)
    (joinMore : ∀ first second rest,
      join (first :: second :: rest) = first ++ shown ++ join (second :: rest))
    {parts : List Emission} {written : List Fragment}
    (onParts : List.Forall₂ (Writes comments) parts written) :
    Writes comments (Emission.between gap parts) (join written) := by
  induction onParts with
  | nil =>
      rw [joinNil]
      exact nothing
  | cons onFirst onRest ih =>
      cases onRest with
      | nil =>
          rw [joinOne]
          exact onFirst
      | cons _ _ =>
          rw [joinMore, Fragment.append_assoc]
          exact onFirst.andThen (onGap.andThen ih)

theorem separated (separator : String) {parts : List Emission} {written : List Fragment}
    (onParts : List.Forall₂ (Writes comments) parts written) :
    Writes comments (Emission.separated separator parts) (.separated separator written) :=
  between (append separator) rfl (fun _ => rfl) (fun _ _ _ => rfl) onParts

theorem onLines {parts : List Emission} {written : List Fragment}
    (onParts : List.Forall₂ (Writes comments) parts written) :
    Writes comments (Emission.between Emission.endLine parts) (.onLines written) :=
  between endLine rfl (fun _ => rfl) (fun _ _ _ => rfl) onParts

theorem lines {parts : List Emission} {written : List Fragment}
    (onParts : List.Forall₂ (Writes comments) parts written) :
    Writes comments (Emission.lines parts) (.lines written) := by
  induction onParts with
  | nil => exact nothing
  | cons onFirst onRest ih =>
      rw [Fragment.lines, Fragment.append_assoc]
      exact onFirst.andThen (endLine.andThen ih)

end Writes

namespace WritesNested

/-- What cannot fail has nothing to restore. -/
theorem of_succeeds (writes : Writes comments emission fragment)
    (succeeds : fragment.failure = none) : WritesNested comments emission fragment := by
  intro buffer setting
  have nestedSetting : buffer.indent.options.comments = comments := setting
  rw [writes.run_of_succeeds nestedSetting succeeds, succeeds, Buffer.indent_writeFragment]

theorem dedentOnFailure (writes : Writes comments emission fragment) :
    WritesNested comments (Emission.dedentOnFailure emission) fragment := by
  intro buffer setting
  have nestedSetting : buffer.indent.options.comments = comments := setting
  cases fails : fragment.failure with
  | none =>
      have ran := writes.run_of_succeeds nestedSetting fails
      rw [Buffer.indent_writeFragment] at ran
      exact run_dedentOnFailure_of_ok ran
  | some failure =>
      have ran := writes.run_of_fails nestedSetting fails
      rw [Buffer.indent_writeFragment] at ran
      exact run_dedentOnFailure_of_failure ran

theorem andThen (onFirst : WritesNested comments emission first)
    (onSecond : WritesNested comments next second) :
    WritesNested comments (do emission; next) (first ++ second) := by
  intro buffer setting
  have ran := onFirst buffer setting
  rw [Fragment.failure_append]
  cases fails : first.failure with
  | none =>
      have kept : (buffer.writeFragment first.nested).options.comments = comments := by
        rw [Buffer.options_writeFragment, setting]
      have nestedSucceeds : first.nested.failure = none := fails
      rw [fails] at ran
      rw [run_andThen_of_ok ran, onSecond _ kept, Option.none_or, Fragment.nested_append,
        Buffer.writeFragment_append nestedSucceeds]
  | some failure =>
      have nestedFails : first.nested.failure = some failure := fails
      rw [fails] at ran
      rw [run_andThen_of_error ran, Option.some_or, Fragment.nested_append,
        Buffer.writeFragment_append_of_fails nestedFails]

theorem lines {parts : List Emission} {written : List Fragment}
    (onParts : List.Forall₂ (Writes comments) parts written) :
    WritesNested comments (Emission.lines (parts.map Emission.dedentOnFailure))
      (.lines written) := by
  induction onParts with
  | nil => exact of_succeeds Writes.nothing rfl
  | cons onFirst onRest ih =>
      rw [Fragment.lines, Fragment.append_assoc]
      exact (dedentOnFailure onFirst).andThen ((of_succeeds Writes.endLine rfl).andThen ih)

end WritesNested

namespace Writes

/-- Between a step down and a step back the emission writes the nested fragment. -/
theorem deeper (onBody : WritesNested comments emission fragment) :
    Writes comments (Emission.deeper emission) fragment.nested := by
  intro buffer setting
  have ran := onBody buffer setting
  have entered : indent.run buffer = .ok () buffer.indent := rfl
  rw [Emission.deeper, run_andThen_of_ok entered, Buffer.emit, Fragment.failure_nested]
  -- A body that fails is back already, and the step back behind it is never taken.
  cases fails : fragment.failure with
  | none =>
      rw [fails] at ran
      rw [run_andThen_of_ok ran, run_dedent, outcome]
  | some failure =>
      rw [fails] at ran
      rw [run_andThen_of_error ran, outcome]

theorem indented {parts : List Emission} {written : List Fragment}
    (onParts : List.Forall₂ (Writes comments) parts written) :
    Writes comments (Emission.indented parts) (Fragment.lines written).nested :=
  deeper (.lines onParts)

end Writes

end Emission

end BuildScribe
