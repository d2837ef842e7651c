import BuildScribe.Proofs.Rendering.SourceMap
import BuildScribe.Proofs.Target.Emission

/-!
# Balanced emission

A generator that emits a node never steps back from the outermost level. Whether it fails or
not, it leaves the level as it was and only adds to the text and to the source map.
-/

namespace BuildScribe

namespace Buffer

/-- The buffer stands at the level of an earlier one and holds what that one held, maybe with
something behind it. -/
structure Continues (buffer earlier : Buffer) : Prop where
  level : buffer.level = earlier.level
  text : ∃ added, buffer.text = earlier.text ++ added
  marks : ∃ added, buffer.marks = earlier.marks ++ added
  line : earlier.line ≤ buffer.line

theorem line_append (buffer : Buffer) (written : String) :
    (buffer.append written).line = buffer.line := by
  unfold append
  split
  · rfl
  · split <;> rfl

theorem line_le_endLine (buffer : Buffer) : buffer.line ≤ buffer.endLine.line := by
  unfold endLine
  split
  · exact Nat.le_refl _
  · exact Nat.le_succ _

theorem line_mark (buffer : Buffer) (location : Option SourceLocation) :
    (buffer.mark location).line = buffer.line := by
  unfold mark
  cases location with
  | none => rfl
  | some known => dsimp only; split <;> rfl

theorem line_le_apply (buffer : Buffer) (stroke : Stroke) :
    buffer.line ≤ (buffer.apply stroke).line := by
  cases stroke with
  | text written => exact Nat.le_of_eq (line_append buffer written).symm
  | line written => exact Nat.le_succ_of_le (Nat.le_of_eq (line_append buffer written).symm)
  | finish => exact buffer.line_le_endLine
  | mark location => exact Nat.le_of_eq (line_mark buffer location).symm

theorem line_le_write (buffer : Buffer) (piece : Piece) :
    buffer.line ≤ (buffer.write piece).line :=
  line_le_apply { buffer with level := buffer.level + piece.depth } piece.stroke

theorem line_le_writeFragment (buffer : Buffer) (fragment : Fragment) :
    buffer.line ≤ (buffer.writeFragment fragment).line := by
  unfold writeFragment
  induction fragment.pieces generalizing buffer with
  | nil => exact Nat.le_refl _
  | cons piece rest ih => exact Nat.le_trans (buffer.line_le_write piece) (ih (buffer.write piece))

theorem writeFragment_continues (buffer : Buffer) (fragment : Fragment) :
    (buffer.writeFragment fragment).Continues buffer := by
  obtain ⟨marks, added, -⟩ := buffer.marks_writeFragment fragment
  exact {
    level := buffer.level_foldl_write fragment.pieces
    text := buffer.text_foldl_write_extends fragment.pieces
    marks := ⟨marks, added⟩
    line := buffer.line_le_writeFragment fragment }

end Buffer

namespace Generator

theorem generate_eq_ok_iff {generator : Generator} {node : Node} {options : LayoutOptions}
    {rendering : Rendering} :
    generator.generate node options = .ok rendering ↔
      ∃ written, (emit generator generator node).run (.empty options) = .ok () written ∧
        rendering = written.endLine.rendering := by
  rw [emit_writes generator generator node (.empty options) rfl, generate, Fragment.render,
    Buffer.emit, Buffer.empty]
  cases (fragment options.comments generator generator node).failure with
  | none => simp [Emission.outcome, eq_comm]
  | some failure => simp [Emission.outcome]

theorem generate_eq_error_iff {generator : Generator} {node : Node} {options : LayoutOptions}
    {failure : Failure} :
    generator.generate node options = .error failure ↔
      ∃ written, (emit generator generator node).run (.empty options) =
        .error (.failure failure) written := by
  rw [emit_writes generator generator node (.empty options) rfl, generate, Fragment.render,
    Buffer.emit, Buffer.empty]
  cases (fragment options.comments generator generator node).failure with
  | none => simp [Emission.outcome]
  | some other => simp [Emission.outcome]

/-- Whatever generators emit a node and its children, and whatever the buffer is, the emission
leaves what the fragment of the node leaves and halts with the failure of the fragment, if it
has one. It does not step back from the outermost level. In either case it leaves a buffer at
the same level in which everything that was there before comes first. -/
theorem emit_balanced (dispatch emitter : Generator) (node : Node) (buffer : Buffer) :
    let emitted :=
      buffer.emit (fragment buffer.options.comments dispatch emitter node)
    (emit dispatch emitter node).run buffer =
        (match emitted with
          | (written, none) => .ok () written
          | (written, some failure) => .error (.failure failure) written) ∧
      (∀ written, (emit dispatch emitter node).run buffer ≠ .error .unbalanced written) ∧
      emitted.1.Continues buffer := by
  intro emitted
  have ran : (emit dispatch emitter node).run buffer = Emission.outcome emitted :=
    emit_writes dispatch emitter node buffer rfl
  refine ⟨ran, ?_, buffer.writeFragment_continues _⟩
  intro written unbalanced
  rw [ran] at unbalanced
  obtain ⟨left, _ | failure⟩ := emitted
  · cases unbalanced
  · cases unbalanced

/-- The inner block and the outer one both step back from the foreign node. -/
example :
    let foreign := Node.foreign ⟨.statement, none, .empty⟩ "Custom" []
    let buffer := { Buffer.empty {} with level := 3 }
    (match (emit (standard .kotlin) (.language .groovy)
        (.block (.of [.block (.of [foreign])]))).run buffer with
      | .ok _ _ => none
      | .error _ written => some (written.level, written.text)) =
      some (3, "            \x7b\n                \x7b\n") :=
  rfl

end Generator

end BuildScribe
