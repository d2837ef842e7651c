import BuildScribe.Proofs.Building.Drafting
import BuildScribe.Proofs.Rendering.Refusal

/-!
# What sections are made of

The sections of a Gradle script are made of core nodes and Gradle nodes only, so every
Gradle generator has rules for all of them, provided that it has rules for the values
that they are made from.
-/

namespace BuildScribe

variable {target : Language} {base : Generator}

namespace Generator

theorem canRender_of_children {node : Node} (native : (node.isCore || node.isGradle) = true)
    (below : ∀ child ∈ node.children, (gradle target base).CanRender child) :
    (gradle target base).CanRender node :=
  canRender_iff.mpr ⟨native, below⟩

theorem canRender_reference (reference : Reference) :
    (gradle target base).CanRender (.reference reference) := by
  induction reference with
  | root info name =>
      exact canRender_of_children rfl (by simp [Node.children, Reference.qualifier?])
  | member info qualifier name ih =>
      apply canRender_of_children rfl
      simpa [Node.children, Reference.qualifier?] using ih

theorem canRender_literal (value : LiteralValue) :
    (gradle target base).CanRender (.ofLiteral value) :=
  canRender_of_children rfl (by simp [Node.ofLiteral, Node.children])

theorem canRender_declaration (info : Metadata) (name : String) (modifiers : ModifierSet)
    {initial : Node} (onInitial : (gradle target base).CanRender initial) :
    (gradle target base).CanRender
      (.declaration info name modifiers none (some initial)) := by
  apply canRender_of_children rfl
  simpa [Node.children] using onInitial

theorem canRender_assign (path : String) {value : Node}
    (onValue : (gradle target base).CanRender value) :
    (gradle target base).CanRender (.assign path value) := by
  apply canRender_of_children rfl
  simpa [Node.assign, Node.children] using ⟨canRender_reference _, onValue⟩

theorem canRender_invoke (name : String) {arguments : List Node}
    (onArguments : ∀ argument ∈ arguments, (gradle target base).CanRender argument) :
    (gradle target base).CanRender (.invoke name arguments) := by
  apply canRender_of_children rfl
  simpa [Node.invoke, Node.children] using onArguments

theorem canRender_block {statements : List Node}
    (onStatements : ∀ statement ∈ statements,
      (gradle target base).CanRender statement) :
    (gradle target base).CanRender (.block (.of statements)) :=
  canRender_of_children rfl onStatements

theorem canRender_named (name : String) {statements : List Node}
    (onStatements : ∀ statement ∈ statements,
      (gradle target base).CanRender statement) :
    (gradle target base).CanRender (.named name statements) := by
  apply canRender_of_children rfl
  simpa [Node.named, Node.children] using canRender_block onStatements

theorem canRender_script (imports : List String) {statements : List Node}
    (onStatements : ∀ statement ∈ statements,
      (gradle target base).CanRender statement) :
    (gradle target base).CanRender (.ofStatements imports statements) :=
  canRender_of_children rfl onStatements

end Generator

open Generator

theorem PluginSpec.canRender_block (specs : List PluginSpec) :
    (gradle target base).CanRender (PluginSpec.block specs) := by
  apply canRender_named
  rw [List.forall_mem_map]
  intro spec _
  exact canRender_of_children rfl (by simp [PluginSpec.node, Node.children])

theorem Repository.canRender_block (repositories : List Repository) :
    (gradle target base).CanRender (Repository.block repositories) := by
  apply canRender_named
  rw [List.forall_mem_map]
  intro repository _
  cases repository with
  | maven url =>
      exact canRender_of_children rfl (by simp [Repository.node, Node.children])
  | _ => exact canRender_invoke _ (by simp)

theorem PublicationPart.canRender_component (name : String) :
    (gradle target base).CanRender (PublicationPart.component name).node := by
  apply canRender_invoke
  intro argument isArgument
  rw [List.mem_singleton.mp isArgument]
  exact canRender_of_children rfl (by simp [Node.children])

theorem Publication.canRender_node {publication : Publication}
    (onParts : ∀ part ∈ publication.parts, (gradle target base).CanRender part.node) :
    (gradle target base).CanRender publication.node := by
  apply canRender_of_children rfl
  have typeRenders : (gradle target base).CanRender
      (.typeMention (.of (.named publication.typeName))) :=
    canRender_of_children rfl (by simp [Node.children])
  have nameRenders : (gradle target base).CanRender (.ofString publication.name) :=
    canRender_literal _
  have bodyRenders := canRender_block (List.forall_mem_map.mpr onParts)
  simpa [Publication.node, Node.children] using ⟨typeRenders, nameRenders, bodyRenders⟩

theorem SigningPart.canRender_keys {handle : Handle} {key password : Node}
    (onKey : (gradle target base).CanRender key)
    (onPassword : (gradle target base).CanRender password) :
    (gradle target base).CanRender ((SigningPart.keys key password).node handle) :=
  canRender_invoke _ (by simpa using ⟨onKey, onPassword⟩)

theorem SigningPart.canRender_publications (handle : Handle) :
    (gradle target base).CanRender (SigningPart.publications.node handle) :=
  canRender_invoke _ (by simpa using canRender_reference _)

end BuildScribe
