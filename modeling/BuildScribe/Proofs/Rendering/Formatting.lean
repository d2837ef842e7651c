import BuildScribe.Proofs.Layout.Nesting
import BuildScribe.Proofs.Rendering.Refusal

/-!
# Formatting

The text of a tree is made of lines that do not depend on the indent or the line
ending. The lines of a block are those of its statements, each written on its own
and one level deeper, so how deep a statement stands is decided by the blocks
around it alone.
-/

namespace BuildScribe

theorem linesText_eq_empty_or_endsWith (options : LayoutOptions)
    (lines : List Line) :
    linesText options lines = "" ∨
      ∃ start, linesText options lines = start ++ options.lineEnding := by
  rcases List.eq_nil_or_concat lines with rfl | ⟨above, last, rfl⟩
  · exact .inl (linesText_nil options)
  · refine .inr ⟨linesText options above ++ last.shown options, ?_⟩
    rw [List.concat_eq_append, linesText_append, linesText_singleton,
      String.append_assoc]

namespace Generator

/-- The text of a tree is made of the given lines, whatever the indent and the
line ending are. -/
def Prints (generator : Generator) (comments : Bool) (node : Node)
    (lines : List Line) : Prop :=
  ∀ options : LayoutOptions, options.comments = comments →
    ∃ rendering, generator.generate node options = .ok rendering ∧
      rendering.text = linesText options lines

theorem CanRender.prints {generator : Generator} {node : Node}
    (renderable : generator.CanRender node) (comments : Bool) :
    generator.Prints comments node (generator.layout comments node) := by
  intro options same
  subst same
  exact renderable.generate_eq options

/-- Indent and line ending only decide how the lines of a tree are spelled out. -/
theorem exists_lines_forall_formats {generator : Generator} {node : Node}
    (renderable : generator.CanRender node) (comments : Bool) :
    ∃ lines : List Line, ∀ options : LayoutOptions,
      options.comments = comments →
        ∃ rendering, generator.generate node options = .ok rendering ∧
          rendering.text = linesText options lines ∧
          (rendering.text = "" ∨
            ∃ start, rendering.text = start ++ options.lineEnding) := by
  refine ⟨generator.layout comments node, ?_⟩
  intro options same
  obtain ⟨rendering, succeeds, text⟩ := renderable.prints comments options same
  refine ⟨rendering, succeeds, text, ?_⟩
  rw [text]
  exact linesText_eq_empty_or_endsWith options _

theorem exists_lines_of_nested_script :
    (Generator.standard .kotlin).CanRender
        (.assign "a" (.ofStatements ["b"] [.ofComment "c\nd"])) ∧
      ∃ lines : List Line, ∀ options : LayoutOptions,
        options.comments = true →
          ∃ rendering, (Generator.standard .kotlin).generate
              (.assign "a" (.ofStatements ["b"] [.ofComment "c\nd"])) options =
                .ok rendering ∧
            rendering.text = linesText options lines ∧
            (rendering.text = "" ∨
              ∃ start, rendering.text = start ++ options.lineEnding) :=
  ⟨by decide, exists_lines_forall_formats (by decide) true⟩

theorem layout_block {generator : Generator} {body : Block Node}
    (renderable : ∀ statement ∈ body.statements, generator.CanRender statement)
    (comments : Bool) :
    generator.layout comments (.block body) =
      ⟨0, "\x7b"⟩ ::
        (body.statements.flatMap (generator.layout comments)).map (Line.deeper 1) ++
        [⟨0, "\x7d"⟩] := by
  cases body with
  | mk info statements =>
      rw [layout, fragment, blockFragment, Fragment.layout_marked,
        listFragment_eq_map, Fragment.layout_braces, List.flatMap_map]
      · rfl
      · intro written member
        obtain ⟨statement, isStatement, rfl⟩ := List.mem_map.mp member
        exact (renderable statement isStatement).succeeds comments

theorem layout_script {target : Language} {base : Generator}
    {statements : List Node}
    (renderable : ∀ statement ∈ statements,
      (Generator.gradle target base).CanRender statement)
    (comments : Bool) (info : Metadata) (imports : List String) :
    (Generator.gradle target base).layout comments
        (.script info imports statements) =
      imports.map (fun path => ⟨0, "import " ++ path⟩) ++
        (if imports.isEmpty || statements.isEmpty then [] else [⟨0, ""⟩]) ++
        statements.flatMap ((Generator.gradle target base).layout comments) := by
  have written : (Generator.gradle target base).fragment comments
      (.gradle target base) (.script info imports statements) =
        Fragment.mark info.location ++ Fragment.script imports
          (statements.map (fragment comments (.gradle target base)
            (.gradle target base))) := by
    rw [fragment, listFragment_eq_map]
    rfl
  rw [layout, written, Fragment.layout_marked, Fragment.layout_script,
    List.flatMap_map, List.isEmpty_map]
  · rfl
  · intro part member
    obtain ⟨statement, isStatement, rfl⟩ := List.mem_map.mp member
    exact (renderable statement isStatement).succeeds comments

end Generator

/-- A block around a statement: its metadata, and the statements before and after
that one. -/
structure Shell where
  info : Metadata
  before : List Node
  after : List Node

/-- A statement inside blocks, the first of which is the outermost. -/
def Node.enclosed : List Shell → Node → Node
  | [], statement => statement
  | outer :: inner, statement =>
      .block ⟨outer.info, outer.before ++ enclosed inner statement :: outer.after⟩

namespace Generator

def CanEnclose (generator : Generator) (outer : Shell) : Prop :=
  ∀ sibling ∈ outer.before ++ outer.after, generator.CanRender sibling

theorem canRender_enclosed {generator : Generator} {around : List Shell}
    (siblings : ∀ outer ∈ around, generator.CanEnclose outer) {statement : Node}
    (renderable : generator.CanRender statement) :
    generator.CanRender (Node.enclosed around statement) := by
  induction around with
  | nil => exact renderable
  | cons outer inner ih =>
      rw [Node.enclosed, canRender_iff]
      refine ⟨by cases generator <;> rfl, ?_⟩
      intro child isChild
      rcases List.mem_append.mp isChild with isBefore | fromMiddle
      · exact siblings outer List.mem_cons_self child
          (List.mem_append.mpr (.inl isBefore))
      · rcases List.mem_cons.mp fromMiddle with rfl | isAfter
        · exact ih fun other member =>
            siblings other (List.mem_cons_of_mem outer member)
        · exact siblings outer List.mem_cons_self child
            (List.mem_append.mpr (.inr isAfter))

/-- The lines of a statement inside blocks are those of the statement, deeper by
the number of blocks; what stands above and below them depends on the blocks
only. -/
theorem layout_enclosed {generator : Generator} {around : List Shell}
    (siblings : ∀ outer ∈ around, generator.CanEnclose outer) (comments : Bool) :
    ∃ above below, ∀ statement, generator.CanRender statement →
      generator.layout comments (Node.enclosed around statement) =
        above ++ (generator.layout comments statement).map
          (Line.deeper around.length) ++ below := by
  induction around with
  | nil =>
      refine ⟨[], [], ?_⟩
      intro statement _
      simp [Node.enclosed]
  | cons outer inner ih =>
      have innerSiblings : ∀ other ∈ inner, generator.CanEnclose other :=
        fun other member => siblings other (List.mem_cons_of_mem outer member)
      obtain ⟨above, below, inside⟩ := ih innerSiblings
      let linesOf := List.flatMap (generator.layout comments)
      refine ⟨⟨0, "\x7b"⟩ :: (linesOf outer.before ++ above).map (Line.deeper 1),
        (below ++ linesOf outer.after).map (Line.deeper 1) ++ [⟨0, "\x7d"⟩], ?_⟩
      intro statement renderable
      have blockRenderable :=
        (canRender_iff.mp (canRender_enclosed siblings renderable)).2
      rw [Node.enclosed, layout_block blockRenderable, List.flatMap_append,
        List.flatMap_cons, inside statement renderable]
      simp [linesOf, Line.deeper_comp_deeper]

/-- The lines of a block are those of its statements, each generated on its own and
one level deeper, between the lines of the braces. A script has a line for every
one of its imports, a blank line between these and the statements, and the lines of
the statements. How deep a statement stands is the number of blocks around it. -/
theorem layout_compositional (generator : Generator) (comments : Bool) :
    (∀ node, generator.CanRender node →
      generator.Prints comments node (generator.layout comments node)) ∧
    (∀ body : Block Node,
      (∀ statement ∈ body.statements, generator.CanRender statement) →
        generator.Prints comments (.block body)
          (⟨0, "\x7b"⟩ ::
            (body.statements.flatMap (generator.layout comments)).map
              (Line.deeper 1) ++
            [⟨0, "\x7d"⟩])) ∧
    (∀ target base info imports statements,
      generator = .gradle target base →
      (∀ statement ∈ statements, generator.CanRender statement) →
        generator.Prints comments (.script info imports statements)
          (imports.map (fun path => ⟨0, "import " ++ path⟩) ++
            (if imports.isEmpty || statements.isEmpty then [] else [⟨0, ""⟩]) ++
            statements.flatMap (generator.layout comments))) ∧
    (∀ around : List Shell,
      (∀ outer ∈ around, generator.CanEnclose outer) →
        ∃ above below, ∀ statement, generator.CanRender statement →
          generator.Prints comments (.enclosed around statement)
            (above ++
              (generator.layout comments statement).map
                (Line.deeper around.length) ++
              below)) := by
  refine ⟨fun node renderable => renderable.prints comments, ?_, ?_, ?_⟩
  · intro body renderable
    have blockRenderable : generator.CanRender (.block body) :=
      canRender_iff.mpr ⟨by cases generator <;> rfl, renderable⟩
    rw [← layout_block renderable]
    exact blockRenderable.prints comments
  · intro target base info imports statements isGradle renderable
    subst isGradle
    have scriptRenderable : (Generator.gradle target base).CanRender
        (.script info imports statements) :=
      canRender_iff.mpr ⟨rfl, renderable⟩
    rw [← layout_script renderable]
    exact scriptRenderable.prints comments
  · intro around siblings
    obtain ⟨above, below, inside⟩ := layout_enclosed siblings comments
    refine ⟨above, below, ?_⟩
    intro statement renderable
    rw [← inside statement renderable]
    exact (canRender_enclosed siblings renderable).prints comments

theorem layout_of_nested_comment :
    (Generator.standard .kotlin).Prints true
      (.ofStatements ["a.B"] [.block (.of [.ofComment "x\ny", .block (.of [])])])
      [⟨0, "import a.B"⟩, ⟨0, ""⟩, ⟨0, "\x7b"⟩, ⟨1, "// x"⟩, ⟨1, "// y"⟩,
        ⟨1, "\x7b"⟩, ⟨1, "\x7d"⟩, ⟨0, "\x7d"⟩] :=
  (layout_compositional (.standard .kotlin) true).2.2.1 .kotlin (.language .kotlin)
    ⟨.block, none, .empty⟩ ["a.B"]
    [.block (.of [.ofComment "x\ny", .block (.of [])])] rfl (by decide)

end Generator

end BuildScribe
