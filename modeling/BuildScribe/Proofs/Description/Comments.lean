import BuildScribe.Proofs.Description.Sections
import BuildScribe.Proofs.Rendering.Comments

/-!
# Comments that are left out

When comments are not to be written, a tree is written as if it had none, and a description
as if its comment were missing. There is one trace: a comment that nothing follows keeps the
blank line between it and the imports.
-/

namespace BuildScribe

namespace Generator

/-- It makes no difference for the node whether comments are written. -/
def IgnoresComments (generator : Generator) (node : Node) : Prop :=
  ∀ comments, generator.fragment comments generator node =
    generator.fragment false generator node

namespace IgnoresComments

variable {generator : Generator}

theorem named (name : String) {statements : List Node}
    (ignore : ∀ statement ∈ statements, generator.IgnoresComments statement) :
    generator.IgnoresComments (.named name statements) := by
  intro comments
  have same := List.map_congr_left fun statement isStatement =>
    ignore statement isStatement comments
  simp only [Node.named, Block.of, fragment, blockFragment, listFragment_eq_map, same]

theorem invoke (name : String) {arguments : List Node}
    (ignore : ∀ argument ∈ arguments, generator.IgnoresComments argument) :
    generator.IgnoresComments (.invoke name arguments) := by
  intro comments
  have same := List.map_congr_left fun argument isArgument =>
    ignore argument isArgument comments
  simp only [Node.invoke, fragment, optionFragment, optionBlockFragment,
    listFragment_eq_map, same]

theorem assign (path : String) {value : Node} (ignores : generator.IgnoresComments value) :
    generator.IgnoresComments (.assign path value) := by
  intro comments
  simp only [Node.assign, fragment, ignores comments]

theorem declaration (info : Metadata) (name : String) (modifiers : ModifierSet)
    (type : Option TypeMention) {initial : Node}
    (ignores : generator.IgnoresComments initial) :
    generator.IgnoresComments (.declaration info name modifiers type (some initial)) := by
  intro comments
  simp only [fragment, optionFragment, ignores comments]

theorem literal (value : LiteralValue) : generator.IgnoresComments (.ofLiteral value) := by
  intro comments
  simp only [Node.ofLiteral, fragment]

theorem reference (target : Reference) : generator.IgnoresComments (.reference target) := by
  intro comments
  simp only [fragment]

theorem plugins (specs : List PluginSpec) :
    generator.IgnoresComments (PluginSpec.block specs) := by
  apply named
  rw [List.forall_mem_map]
  intro spec _ comments
  simp only [PluginSpec.node, fragment]

theorem repositories (listed : List Repository) :
    generator.IgnoresComments (Repository.block listed) := by
  apply named
  rw [List.forall_mem_map]
  intro repository _
  cases repository with
  | maven url =>
      intro comments
      simp only [Repository.node, fragment]
  | _ => exact invoke _ (by simp)

theorem publicationPart {part : PublicationPart}
    (onValue : ∀ path value, part = .property path value →
      generator.IgnoresComments value) : generator.IgnoresComments part.node := by
  cases part with
  | component name =>
      apply invoke
      rw [List.forall_mem_singleton]
      intro comments
      simp only [fragment]
  | property path value => exact assign path (onValue path value rfl)

theorem publication {publication : Publication}
    (ignore : ∀ part ∈ publication.parts, generator.IgnoresComments part.node) :
    generator.IgnoresComments publication.node := by
  intro comments
  have same :
      publication.parts.map (generator.fragment comments generator ∘ PublicationPart.node) =
        publication.parts.map (generator.fragment false generator ∘ PublicationPart.node) :=
    List.map_congr_left fun part isPart => ignore part isPart comments
  simp only [Publication.node, fragment, optionFragment, listFragment_eq_map, List.map_cons,
    List.map_nil, literal _ comments, Node.ofString, optionBlockFragment, Block.of,
    blockFragment, List.map_map, same]

end IgnoresComments

end Generator

open Generator

namespace ScriptDescription

variable {target : Language}

theorem ignoresComments_value (generator : Generator) (value : DescribedValue) :
    generator.IgnoresComments value.node := by
  cases value with
  | reference path => exact .reference _
  | literal json => cases json <;> exact .literal _

theorem ignoresComments_publication (generator : Generator)
    (described : PublicationDescription) :
    generator.IgnoresComments described.publication.node := by
  apply IgnoresComments.publication
  intro part isPart
  apply IgnoresComments.publicationPart
  rintro path value rfl
  simp only [PublicationDescription.publication, List.mem_append, Option.mem_toList,
    Option.map_eq_some_iff] at isPart
  rcases isPart with ((⟨_, _, isValue⟩ | ⟨_, _, isValue⟩) | ⟨_, _, isValue⟩) |
    ⟨_, _, isValue⟩ <;> cases isValue <;> exact .literal _

theorem ignoresComments_publishing (generator : Generator)
    (described : PublishingDescription) :
    generator.IgnoresComments (PublishingPart.block described.parts) := by
  apply IgnoresComments.named
  rw [List.forall_mem_map]
  intro part isPart
  simp only [PublishingDescription.parts, List.mem_append, List.mem_ite_nil_left,
    List.mem_singleton] at isPart
  rcases isPart with ⟨_, rfl⟩ | ⟨_, rfl⟩
  · exact .repositories _
  · apply IgnoresComments.named
    rw [List.forall_mem_map, List.forall_mem_map]
    exact fun described _ => ignoresComments_publication generator described

theorem ignoresComments_signing (generator : Generator) (described : SigningDescription)
    (handle : Handle) :
    generator.IgnoresComments (SigningPart.block handle described.writtenParts) := by
  have values : ∀ node ∈ [described.key.node, described.password.node],
      generator.IgnoresComments node := by
    simp only [List.forall_mem_cons]
    exact ⟨ignoresComments_value _ _, ignoresComments_value _ _, by simp⟩
  apply IgnoresComments.named
  rw [List.forall_mem_map, SigningDescription.writtenParts, List.forall_mem_cons]
  refine ⟨.invoke _ values, ?_⟩
  intro part isPart
  rw [List.mem_ite_nil_right, List.mem_singleton] at isPart
  rw [isPart.2]
  exact .invoke _ (List.forall_mem_singleton.mpr (.reference _))

/-- The sections besides the comment. -/
theorem ignoresComments_of_mem_statements {script : ScriptDescription}
    (noComment : script.comment = none) (generator : Generator) :
    ∀ statement ∈ script.statements, generator.IgnoresComments statement := by
  intro statement isStatement
  obtain ⟨step, isStep, isWritten⟩ := List.mem_flatMap.mp isStatement
  simp only [sectionSteps, publishingSteps, noComment, Option.map_none, Option.toList_none,
    List.nil_append, List.mem_append, Option.mem_toList, Option.map_eq_some_iff,
    List.mem_map, List.mem_ite_nil_left, List.mem_singleton] at isStep
  rcases isStep with (((((((⟨_, rfl⟩ | ⟨value, _, rfl⟩) |
    ⟨value, _, rfl⟩) | ⟨entry, _, rfl⟩) | ⟨entry, _, rfl⟩) |
    (⟨_, rfl⟩ | ⟨described, _, rfl⟩)) | ⟨described, _, rfl⟩)) <;>
    obtain rfl := List.mem_singleton.mp isWritten
  · exact .plugins _
  · exact .assign _ (.literal _)
  · exact .assign _ (.literal _)
  · exact .declaration _ _ _ _ (ignoresComments_value _ _)
  · exact .assign _ (ignoresComments_value _ _)
  · exact .repositories _
  · exact ignoresComments_publishing _ _
  · exact ignoresComments_signing _ _ _

/-- The description without its comment. -/
def withoutComment (script : ScriptDescription) : ScriptDescription :=
  { script with comment := none }

theorem sections_eq_withoutComment (script : ScriptDescription) :
    script.sections =
      (script.comment.map fun text => { comment := some text }).toList ++
        script.withoutComment.sections := by
  simp only [sections, List.append_assoc]
  rfl

theorem statements_eq_withoutComment (script : ScriptDescription) :
    script.statements =
      (script.comment.map .ofComment).toList ++ script.withoutComment.statements := by
  have step : script.sectionSteps =
      (script.comment.map fun text => .within (.comment text)).toList ++
        script.withoutComment.sectionSteps := by
    simp only [sectionSteps, List.append_assoc]
    rfl
  rw [statements, step, List.flatMap_append]
  cases script.comment <;> rfl

/-- The text of the sections with comments left out is that of all sections but the
comment. -/
theorem bodyText_leftOut (script : ScriptDescription) (options : LayoutOptions)
    (comments : Bool) :
    script.bodyText target { options with comments := false } =
      script.withoutComment.bodyText target { options with comments := comments } := by
  have leftOut : (script.comment.map Node.ofComment).toList.flatMap
      ((standard target).layout false) = [] := by
    cases script.comment with
    | none => rfl
    | some text => exact List.append_nil _ |>.trans (layout_comment_leftOut _ text)
  have others : script.withoutComment.statements.flatMap
        ((standard target).layout false) =
      script.withoutComment.statements.flatMap ((standard target).layout comments) := by
    apply List.flatMap_congr
    intro statement isStatement
    have ignores := ignoresComments_of_mem_statements rfl (standard target) statement
      isStatement comments
    exact (congrArg Fragment.layout ignores).symm
  rw [bodyText, bodyText, statements_eq_withoutComment, List.flatMap_append, leftOut,
    List.nil_append, others]
  rfl

/-- The blank line that is left behind imports if nothing but a comment follows them. -/
def commentTrace (script : ScriptDescription) (options : LayoutOptions) : String :=
  if script.comment.isSome && !script.imports.isEmpty && script.withoutComment.sections.isEmpty
  then options.lineEnding
  else ""

theorem isEmpty_insertAll (paths : List String) :
    (ImportSet.insertAll [] paths).isEmpty = paths.isEmpty := by
  cases paths with
  | nil => rfl
  | cons path rest =>
      have member : path ∈ ImportSet.insertAll [] (path :: rest) := by
        simp [ImportSet.mem_insertAll]
      simpa using List.ne_nil_of_mem member

/-- A comment that is left out counts as a section behind the imports. -/
theorem text_leftOut (script : ScriptDescription) (options : LayoutOptions)
    (comments : Bool) :
    headerText { options with comments := false } (ImportSet.insertAll [] script.imports)
        script ++ script.bodyText target { options with comments := false } =
      headerText { options with comments := comments }
          (ImportSet.insertAll [] script.imports) script.withoutComment ++
        script.withoutComment.bodyText target { options with comments := comments } ++
          script.commentTrace options := by
  rw [bodyText_leftOut script options comments]
  unfold headerText commentTrace
  rw [isEmpty_insertAll, sections_eq_withoutComment]
  cases others : script.withoutComment.sections with
  | cons part rest => simp
  | nil =>
      have nothing : script.withoutComment.bodyText target
          { options with comments := comments } = "" := by
        rw [bodyText_eq_join, others]
        rfl
      rw [nothing]
      cases script.comment <;> cases script.imports <;> simp

theorem render_leftOut {script : ScriptDescription} (distinct : script.vals.keys.Nodup)
    (language : String) (options : LayoutOptions) (comments : Bool) :
    script.render .standard language { options with comments := false } =
      (script.withoutComment.render .standard language
        { options with comments := comments }).map (· ++ script.commentTrace options) := by
  by_cases known : ∃ target : Language, foldedName language = target.name
  · obtain ⟨target, recognized⟩ := known
    rw [render_of_recognized distinct recognized,
      @render_of_recognized script.withoutComment distinct language target recognized,
      linesText_layout_node, linesText_layout_node, text_leftOut script options comments]
    change DescribedValue.onceWritten script.values _ =
      (DescribedValue.onceWritten script.values _).map _
    unfold DescribedValue.onceWritten
    cases script.values.findSome? DescribedValue.refusal? <;> rfl
  · rw [not_exists] at known
    rw [render_of_unrecognized script known, render_of_unrecognized _ known]
    rfl

/-- Every generator writes a tree with its comments left out as the tree without them, in
every format and under either setting, unless a script holds nothing but comments behind its
imports, or a comment comes first in the middle of a line. A description is rendered without
comments as if its comment were missing, but for the blank line that is left behind imports
if there is no other section. -/
theorem leftOut_comments_leave_no_trace (options : LayoutOptions) (comments : Bool) :
    (∀ (generator : Generator) (node : Node), generator.CanRender node →
      node.CommentsAreStatements → node.CommentsAreSpare →
      ∃ leftOut removed,
        generator.generate node { options with comments := false } = .ok leftOut ∧
        generator.generate node.withoutComments { options with comments := comments } =
          .ok removed ∧
        leftOut.text = removed.text) ∧
    ∀ (script : ScriptDescription) (language : String), script.vals.keys.Nodup →
      script.render .standard language { options with comments := false } =
        (render { script with comment := none } .standard language
          { options with comments := comments }).map fun text => text ++
            if script.comment.isSome && !script.imports.isEmpty &&
              (sections { script with comment := none }).isEmpty
            then options.lineEnding
            else "" := by
  refine ⟨?_, ?_⟩
  · intro generator node renderable placed spare
    exact generate_leftOut renderable placed spare options comments
  · intro script language distinct
    exact render_leftOut distinct language options comments

/-- Comments before, between, inside and behind the statements of a script with an import,
and a description with a comment and a group. -/
theorem leftOut_comments_of_nested_blocks :
    let tree := Node.ofStatements ["a"]
      [.ofComment "b", .named "c" [.ofComment "d"], .ofComment "e",
        .named "f" [.assign "g" (.ofString "h"), .ofComment "i\nj"], .ofComment "k"]
    (standard .groovy).CanRender tree ∧ tree.CommentsAreStatements ∧ tree.CommentsAreSpare ∧
      (∃ leftOut removed,
        (standard .groovy).generate tree { comments := false } = .ok leftOut ∧
        (standard .groovy).generate tree.withoutComments {} = .ok removed ∧
        leftOut.text = removed.text) ∧
      render { imports := ["a"], comment := some "b", group := some "c" } .standard "kotlin"
          { comments := false } =
        .ok "import a\n\ngroup = \"c\"\n" := by
  intro tree
  have renderable : (standard .groovy).CanRender tree := by decide
  have placed : tree.CommentsAreStatements := by decide
  have spare : tree.CommentsAreSpare := by decide
  obtain ⟨trees, descriptions⟩ := leftOut_comments_leave_no_trace {} true
  have description := descriptions
    { imports := ["a"], comment := some "b", group := some "c" } "kotlin" (by decide)
  exact ⟨renderable, placed, spare, trees _ _ renderable placed spare,
    description.trans rfl⟩

/-- Behind an import a comment that is left out keeps its blank line. -/
theorem leftOut_comment_keeps_blank_line :
    (standard .kotlin).CanRender (.ofStatements ["a"] [.ofComment "c"]) ∧
      (Node.ofStatements ["a"] [.ofComment "c"]).CommentsAreStatements ∧
      ((standard .kotlin).generate (.ofStatements ["a"] [.ofComment "c"])
          { comments := false }).map (·.text) = .ok "import a\n\n" ∧
      ((standard .kotlin).generate (Node.ofStatements ["a"] [.ofComment "c"]).withoutComments
          { comments := false }).map (·.text) = .ok "import a\n" ∧
      render { imports := ["a"], comment := some "c" } .standard "kotlin"
          { comments := false } = .ok "import a\n\n" ∧
      render { imports := ["a"] } .standard "kotlin" { comments := false } =
        .ok "import a\n" :=
  ⟨by decide, by decide, rfl, rfl, rfl, rfl⟩

end ScriptDescription

end BuildScribe
