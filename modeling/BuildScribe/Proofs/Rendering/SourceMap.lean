import BuildScribe.Proofs.Rendering.Refusal

/-!
# Source maps

Every node that a generator writes records its location once, before anything is
written for it, so the places of a rendering follow the walk over the tree. The
walk here does not enter references, and under a Groovy generator it meets the
arguments of a call before their types.
-/

namespace BuildScribe

namespace Buffer

theorem marks_append (buffer : Buffer) (written : String) :
    (buffer.append written).marks = buffer.marks := by
  unfold append
  split
  · rfl
  · split <;> rfl

theorem marks_endLine (buffer : Buffer) : buffer.endLine.marks = buffer.marks := by
  unfold endLine
  split <;> rfl

/-- A piece adds a mark if it records a location and places are recorded at
all. -/
theorem marks_write (buffer : Buffer) (piece : Piece) :
    ∃ added, (buffer.write piece).marks = buffer.marks ++ added ∧
      added.map (·.location) =
        if buffer.options.sourceMap then recordedBy [piece] else [] := by
  obtain ⟨depth, stroke⟩ := piece
  cases stroke with
  | text written =>
      refine ⟨[], ?_, by simp [recordedBy, Stroke.location?]⟩
      rw [List.append_nil]
      exact marks_append _ written
  | line written =>
      refine ⟨[], ?_, by simp [recordedBy, Stroke.location?]⟩
      rw [List.append_nil]
      exact marks_append _ written
  | finish =>
      refine ⟨[], ?_, by simp [recordedBy, Stroke.location?]⟩
      rw [List.append_nil]
      exact marks_endLine _
  | mark location =>
      cases recording : buffer.options.sourceMap with
      | false => exact ⟨[], by simp [write, apply, mark, recording], rfl⟩
      | true =>
          refine ⟨[⟨buffer.line,
            { buffer with level := buffer.level + depth }.nextColumn, location⟩],
            ?_, rfl⟩
          simp [write, apply, mark, recording]

/-- A fragment adds the marks of the locations it records, in order. -/
theorem marks_writeFragment (buffer : Buffer) (fragment : Fragment) :
    ∃ added, (buffer.writeFragment fragment).marks = buffer.marks ++ added ∧
      added.map (·.location) =
        if buffer.options.sourceMap then recordedBy fragment.pieces else [] := by
  unfold writeFragment
  induction fragment.pieces generalizing buffer with
  | nil => exact ⟨[], by simp, by simp [recordedBy]⟩
  | cons piece rest ih =>
      obtain ⟨first, firstMarks, firstLocations⟩ := buffer.marks_write piece
      obtain ⟨others, otherMarks, otherLocations⟩ := ih (buffer.write piece)
      rw [options_write] at otherLocations
      have split : recordedBy (piece :: rest) = recordedBy [piece] ++ recordedBy rest :=
        recordedBy_append [piece] rest
      refine ⟨first ++ others, ?_, ?_⟩
      · rw [List.foldl_cons, otherMarks, firstMarks, List.append_assoc]
      · rw [List.map_append, firstLocations, otherLocations, split]
        cases buffer.options.sourceMap <;> rfl

end Buffer

namespace Generator

/-- Results for the children of a node, in the order in which a generator writes the
children: it writes a reference with all of its names at once, and a Groovy generator
puts the types of a call behind its arguments. -/
def writtenBelow {α : Type} (generator : Generator) (node : Node)
    (below : List α) : List α :=
  match node with
  | .reference _ => []
  | .call _ receiver _ typeArguments arguments _ =>
      if generator.gradleLanguage? = some .groovy then
        let (onReceiver, rest) := below.splitAt receiver.toList.length
        let (types, rest) := rest.splitAt typeArguments.length
        let (listed, block) := rest.splitAt arguments.length
        onReceiver ++ listed ++ types ++ block
      else
        below
  | _ => below

/-- The nodes of a tree that a generator writes, each before its children: the
pre-order walk without the qualifiers inside references, which under a Groovy
generator meets the parts of a call in another order. -/
def writtenNodes (generator : Generator) (node : Node) : List Node :=
  node.fold fun met below => met :: (generator.writtenBelow met below).flatten

theorem writtenBelow_map {α β : Type} (generator : Generator) (node : Node)
    (change : α → β) (below : List α) :
    generator.writtenBelow node (below.map change) =
      (generator.writtenBelow node below).map change := by
  cases node with
  | call info receiver name typeArguments arguments trailing =>
      simp only [writtenBelow, List.splitAt_eq]
      split <;> simp [List.map_take, List.map_drop]
  | _ => rfl

theorem writtenBelow_children (generator : Generator) (node : Node) :
    generator.writtenBelow node node.children = generator.writtenChildren node := by
  cases node with
  | call info receiver name typeArguments arguments trailing =>
      cases known : generator.gradleLanguage? with
      | none => simp [writtenBelow, writtenChildren, writingOrder, known]
      | some language =>
          cases language with
          | kotlin =>
              simp [writtenBelow, writtenChildren, writingOrder, known,
                Language.callOrder, Node.children, Option.toList_map]
          | groovy =>
              simp [writtenBelow, writtenChildren, writingOrder, known,
                Language.callOrder, Node.children, Option.toList_map]
  | _ => rfl

/-- A node is written before the nodes that are written for its children. -/
theorem writtenNodes_eq (generator : Generator) (node : Node) :
    generator.writtenNodes node =
      node :: (generator.writtenChildren node).flatMap generator.writtenNodes := by
  have unfolded : generator.writtenNodes node =
      node :: (generator.writtenBelow node
        (node.children.map generator.writtenNodes)).flatten :=
    Node.fold_eq _ node
  rw [unfolded, writtenBelow_map, writtenBelow_children, List.flatMap_def]

theorem mem_children_of_mem_writtenChildren {generator : Generator}
    {node child : Node} (member : child ∈ generator.writtenChildren node) :
    child ∈ node.children := by
  cases node with
  | reference target => simp [writtenChildren] at member
  | _ => exact (generator.writingOrder_perm _).subset member

theorem recordedBy_mark (node : Node) :
    recordedBy (Fragment.mark node.info.location).pieces =
      [node].filterMap (·.info.location) := by
  cases known : node.info.location <;>
    simp [Fragment.mark, recordedBy, Stroke.location?, known]

/-- Exactly the locations of the written nodes are recorded, in their order. -/
theorem recordedBy_fragment {generator : Generator} {node : Node}
    (renderable : generator.CanRender node) (comments : Bool) :
    recordedBy (generator.fragment comments generator node).pieces =
      (generator.writtenNodes node).filterMap (·.info.location) := by
  -- The mark of the node comes before its body, and what stands in the body around the
  -- children records nothing.
  induction node using Node.descend with
  | step node ih =>
      obtain ⟨body, written, assembles⟩ :=
        generator.assembles_fragment comments node
      have succeeds := renderable.succeeds comments
      rw [written, Fragment.failure_append, Fragment.failure_mark,
        Option.none_or] at succeeds
      have below (child : Node) (isWritten : child ∈ generator.writtenChildren node) :
          recordedBy (generator.fragment comments generator child).pieces =
            (generator.writtenNodes child).filterMap (·.info.location) := by
        have isChild := mem_children_of_mem_writtenChildren isWritten
        exact ih child isChild ((canRender_iff.mp renderable).2 child isChild)
      have order : generator.writtenNodes node = [node] ++
          (generator.writtenChildren node).flatMap generator.writtenNodes :=
        generator.writtenNodes_eq node
      rw [written, Fragment.pieces_append rfl, recordedBy_append, recordedBy_mark,
        (assembles succeeds).recordedBy_eq, List.flatMap_map, order,
        List.filterMap_append, List.filterMap_flatMap, List.flatMap_def,
        List.map_congr_left below, ← List.flatMap_def]

/-- Rendering loses, repeats and reorders no node: if places are recorded, the source
map holds the locations of the nodes in the order in which the generator writes
them, and otherwise it is empty. -/
theorem marks_follow_written_nodes {generator : Generator} {node : Node}
    (renderable : generator.CanRender node) (options : LayoutOptions) :
    ∃ rendering, generator.generate node options = .ok rendering ∧
      rendering.marks.map (·.location) =
        if options.sourceMap then
          (generator.writtenNodes node).filterMap (·.info.location)
        else
          [] := by
  have succeeds := renderable.succeeds options.comments
  obtain ⟨added, marks, locations⟩ := (Buffer.empty options).marks_writeFragment
    (generator.fragment options.comments generator node)
  refine ⟨_, by rw [generate, Fragment.render, succeeds], ?_⟩
  rw [Buffer.rendering, Buffer.marks_endLine, marks, ← recordedBy_fragment renderable]
  exact locations

/-- Groovy writes the type of a call behind its argument, and a qualifier leaves no
mark of its own. -/
theorem marks_of_groovy_call :
    (Generator.standard .groovy).CanRender
        (.call ⟨.expression, some ⟨"s", 1, 1⟩, .empty⟩
          (some (.reference
            (.member ⟨.reference, some ⟨"s", 2, 1⟩, .empty⟩
              (.root ⟨.reference, some ⟨"s", 9, 9⟩, .empty⟩ "a") "b")))
          "create" [⟨⟨.type, some ⟨"s", 3, 1⟩, .empty⟩, .named "T"⟩]
          [.literal ⟨.literal, some ⟨"s", 4, 1⟩, .empty⟩ (.string "c")]
          (some ⟨⟨.block, some ⟨"s", 5, 1⟩, .empty⟩, [.ofComment "d"]⟩)) ∧
      ∃ rendering, (Generator.standard .groovy).generate
          (.call ⟨.expression, some ⟨"s", 1, 1⟩, .empty⟩
            (some (.reference
              (.member ⟨.reference, some ⟨"s", 2, 1⟩, .empty⟩
                (.root ⟨.reference, some ⟨"s", 9, 9⟩, .empty⟩ "a") "b")))
            "create" [⟨⟨.type, some ⟨"s", 3, 1⟩, .empty⟩, .named "T"⟩]
            [.literal ⟨.literal, some ⟨"s", 4, 1⟩, .empty⟩ (.string "c")]
            (some ⟨⟨.block, some ⟨"s", 5, 1⟩, .empty⟩, [.ofComment "d"]⟩))
          { sourceMap := true } = .ok rendering ∧
        rendering.marks.map (·.location) =
          [⟨"s", 1, 1⟩, ⟨"s", 2, 1⟩, ⟨"s", 4, 1⟩, ⟨"s", 3, 1⟩, ⟨"s", 5, 1⟩] :=
  ⟨by decide, marks_follow_written_nodes (by decide) { sourceMap := true }⟩

end Generator

end BuildScribe
