import BuildScribe.Proofs.Layout.Congruence
import BuildScribe.Proofs.Rendering.Formatting

/-!
# Comments that are left out

A generator that is not to write comments writes a tree as if there were no comments in it.
A comment that is left out still ends its line and still counts as a statement behind
imports, so this takes that no comment comes first inside of a line, and that behind imports
there is never nothing but comments.
-/

namespace BuildScribe

namespace Node

def isComment : Node → Bool
  | comment _ _ => true
  | _ => false

/-- Whether the children of a node are statements. -/
def holdsStatements : Node → Bool
  | block _ | script _ _ _ => true
  | _ => false

mutual

/-- The tree without the comments among its statements. -/
def withoutComments : Node → Node
  | literal info value => literal info value
  | reference target => reference target
  | block body => block (blockWithoutComments body)
  | typeMention mention => typeMention mention
  | declaration info name modifiers type initial =>
      declaration info name modifiers type (optionWithoutComments initial)
  | comment info text => comment info text
  | script info imports statements =>
      script info imports (statementsWithoutComments statements)
  | assignment info target value => assignment info target (withoutComments value)
  | namedBlock info name body => namedBlock info name (blockWithoutComments body)
  | call info receiver name typeArguments arguments trailing =>
      call info (optionWithoutComments receiver) name typeArguments
        (partsWithoutComments arguments) (optionBlockWithoutComments trailing)
  | plugin info spec => plugin info spec
  | component info name => component info name
  | mavenRepository info url => mavenRepository info url
  | foreign info kind children => foreign info kind (partsWithoutComments children)

def statementsWithoutComments : List Node → List Node
  | [] => []
  | statement :: rest =>
      if statement.isComment then
        statementsWithoutComments rest
      else
        withoutComments statement :: statementsWithoutComments rest

def partsWithoutComments : List Node → List Node
  | [] => []
  | part :: rest => withoutComments part :: partsWithoutComments rest

def optionWithoutComments : Option Node → Option Node
  | none => none
  | some node => some (withoutComments node)

def blockWithoutComments : Block Node → Block Node
  | ⟨info, statements⟩ => ⟨info, statementsWithoutComments statements⟩

def optionBlockWithoutComments : Option (Block Node) → Option (Block Node)
  | none => none
  | some body => some (blockWithoutComments body)

end

theorem statementsWithoutComments_eq (statements : List Node) :
    statementsWithoutComments statements =
      (statements.filter (!·.isComment)).map withoutComments := by
  induction statements with
  | nil => rfl
  | cons statement rest ih =>
      rw [statementsWithoutComments, ih, List.filter_cons]
      cases statement.isComment <;> rfl

theorem partsWithoutComments_eq_map (parts : List Node) :
    partsWithoutComments parts = parts.map withoutComments := by
  induction parts with
  | nil => rfl
  | cons part rest ih => rw [partsWithoutComments, ih, List.map_cons]

mutual

/-- Whether the first thing that is written for a node is a comment. -/
def opensWithComment : Node → Bool
  | comment _ _ => true
  | script _ imports statements => imports.isEmpty && firstOpensWithComment statements
  | call _ receiver _ _ _ _ => optionOpensWithComment receiver
  | _ => false

def firstOpensWithComment : List Node → Bool
  | [] => false
  | first :: _ => opensWithComment first

def optionOpensWithComment : Option Node → Bool
  | none => false
  | some node => opensWithComment node

end

/-- The children that are written in the middle of a line. -/
def inlineParts : Node → List Node
  | declaration _ _ _ _ initial => initial.toList
  | assignment _ _ value => [value]
  | call _ _ _ _ arguments _ => arguments
  | _ => []

/-- Whether a node is a script that has imports and nothing but comments behind them. -/
def importsOnlyComments : Node → Bool
  | script _ imports statements =>
      !imports.isEmpty && !statements.isEmpty && statements.all isComment
  | _ => false

/-- Comments occur only among the statements of blocks and scripts. -/
structure CommentsAreStatements (node : Node) : Prop where
  root : node.isComment = false
  below : ∀ met ∈ node.walk, met.holdsStatements = false →
    ∀ child ∈ met.children, child.isComment = false

/-- Leaving comments out makes no difference to what surrounds them. -/
def CommentsAreSpare (node : Node) : Prop :=
  ∀ met ∈ node.walk, met.importsOnlyComments = false ∧
    ∀ part ∈ met.inlineParts, part.opensWithComment = false

instance (node : Node) : Decidable node.CommentsAreStatements :=
  decidable_of_iff
    (node.isComment = false ∧ ∀ met ∈ node.walk, met.holdsStatements = false →
      ∀ child ∈ met.children, child.isComment = false)
    ⟨fun known => ⟨known.1, known.2⟩, fun known => ⟨known.root, known.below⟩⟩

instance (node : Node) : Decidable node.CommentsAreSpare :=
  inferInstanceAs (Decidable (∀ met ∈ node.walk, met.importsOnlyComments = false ∧
    ∀ part ∈ met.inlineParts, part.opensWithComment = false))

variable {node inner : Node}

theorem CommentsAreStatements.statement (placed : node.CommentsAreStatements)
    (isChild : inner ∈ node.children) (noComment : inner.isComment = false) :
    inner.CommentsAreStatements :=
  ⟨noComment, fun met onWalk => placed.below met (mem_walk_of_mem_children isChild onWalk)⟩

theorem CommentsAreStatements.part (placed : node.CommentsAreStatements)
    (noStatements : node.holdsStatements = false) (isChild : inner ∈ node.children) :
    inner.CommentsAreStatements :=
  placed.statement isChild
    (placed.below node node.mem_walk_self noStatements inner isChild)

theorem CommentsAreSpare.child (spare : node.CommentsAreSpare)
    (isChild : inner ∈ node.children) : inner.CommentsAreSpare :=
  fun met onWalk => spare met (mem_walk_of_mem_children isChild onWalk)

end Node

namespace Generator

open Fragment

variable {generator : Generator} {comments atStart : Bool}

/-- A node that is supported as a node of Gradle scripts is written by the rule of some
language. -/
theorem agrees_gradleNode {node : Node} (supported : generator.supports node = true)
    (isGradle : node.isGradle = true) (kind : String) {rule changed : Language → Fragment}
    (agree : ∀ language, Agrees atStart (rule language) (changed language)) :
    Agrees atStart (generator.gradleNode kind rule) (generator.gradleNode kind changed) := by
  cases generator with
  | language target => cases node <;> cases supported <;> cases isGradle
  | gradle target base => exact agree target

/-- How a node is written with its comments left out, and how it is written when it has
none. -/
def LeavesOutComments (generator : Generator) (comments atStart : Bool) (node : Node) : Prop :=
  Agrees atStart (generator.fragment false generator node)
    (generator.fragment comments generator node.withoutComments)

theorem layout_comment_leftOut (info : Metadata) (text : String) :
    (generator.fragment false generator (.comment info text)).layout = [] := by
  rw [fragment, Fragment.layout_marked]
  rfl

/-- The comments among statements have no lines. -/
theorem sameLines_statements {statements : List Node}
    (leftOut : ∀ statement ∈ statements, statement.isComment = false →
      generator.LeavesOutComments comments true statement) :
    SameLines (statements.map (generator.fragment false generator))
      ((Node.statementsWithoutComments statements).map
        (generator.fragment comments generator)) := by
  induction statements with
  | nil => exact .nil
  | cons statement rest ih =>
      rw [List.forall_mem_cons] at leftOut
      rw [Node.statementsWithoutComments]
      cases isComment : statement.isComment with
      | false => exact .cons (leftOut.1 isComment) (ih leftOut.2)
      | true =>
          cases statement with
          | comment info text =>
              exact .skip (by simp [fragment]) (layout_comment_leftOut info text)
                (ih leftOut.2)
          | _ => cases isComment

/-- The statements of a script, of which the first one may stand in the middle of a line. -/
theorem agrees_script {info : Metadata} {imports : List String} {statements : List Node}
    (mixed : (Node.script info imports statements).importsOnlyComments = false)
    (starts : (Node.script info imports statements).opensWithComment = true → atStart = true)
    (leftOut : ∀ statement ∈ statements, statement.isComment = false → ∀ {innerAtStart},
      (statement.opensWithComment = true → innerAtStart = true) →
        generator.LeavesOutComments comments innerAtStart statement) :
    Agrees atStart (script imports (statements.map (generator.fragment false generator)))
      (script imports ((Node.statementsWithoutComments statements).map
        (generator.fragment comments generator))) := by
  have same := sameLines_statements fun statement isStatement noComment =>
    leftOut statement isStatement noComment fun _ => rfl
  cases imports with
  | cons path rest =>
      apply Agrees.script_cons same
      rw [Node.statementsWithoutComments_eq]
      cases statements with
      | nil => rfl
      | cons first others =>
          have someKept : (first :: others).all Node.isComment = false := mixed
          obtain ⟨kept, isKept, noComment⟩ := List.all_eq_false.mp someKept
          symm
          simp only [List.isEmpty_map, List.isEmpty_cons, List.isEmpty_eq_false_iff]
          exact List.ne_nil_of_mem (List.mem_filter.mpr ⟨isKept, by simp [noComment]⟩)
  | nil =>
      cases statements with
      | nil => exact .refl rfl
      | cons first others =>
          have firstStarts : first.opensWithComment = true → atStart = true := starts
          cases isComment : first.isComment with
          | true =>
              have opens : first.opensWithComment = true := by
                cases first with
                | comment info text => rfl
                | _ => cases isComment
              rw [firstStarts opens]
              exact .script_nil_atStart same
          | false =>
              rw [List.forall_mem_cons] at leftOut
              rw [Node.statementsWithoutComments, if_neg (by simp [isComment])]
              exact .script_nil (leftOut.1 isComment firstStarts)
                (sameLines_statements fun statement isStatement noComment =>
                  leftOut.2 statement isStatement noComment fun _ => rfl)

/-- In a tree whose comments are spare, leaving them out is writing the tree without them.
A node that opens with a comment has to stand at the start of a line. -/
theorem leavesOutComments {node : Node} (renderable : generator.CanRender node)
    (placed : node.CommentsAreStatements) (spare : node.CommentsAreSpare)
    (starts : node.opensWithComment = true → atStart = true) :
    generator.LeavesOutComments comments atStart node := by
  induction node using Node.descend generalizing atStart with
  | step node ih =>
      obtain ⟨supported, renderableBelow⟩ := canRender_iff.mp renderable
      obtain ⟨mixed, inlineStarts⟩ := spare node node.mem_walk_self
      have statement {innerAtStart : Bool} :
          ∀ inner ∈ node.children, inner.isComment = false →
            (inner.opensWithComment = true → innerAtStart = true) →
              generator.LeavesOutComments comments innerAtStart inner :=
        fun inner isChild noComment innerStarts =>
          ih inner isChild (renderableBelow inner isChild)
            (placed.statement isChild noComment) (spare.child isChild) innerStarts
      have part {innerAtStart : Bool} (noStatements : node.holdsStatements = false) :
          ∀ inner ∈ node.children,
            (inner.opensWithComment = true → innerAtStart = true) →
              generator.LeavesOutComments comments innerAtStart inner :=
        fun inner isChild innerStarts =>
          ih inner isChild (renderableBelow inner isChild)
            (placed.part noStatements isChild) (spare.child isChild) innerStarts
      have inline (noStatements : node.holdsStatements = false) :
          ∀ value ∈ node.inlineParts, value ∈ node.children →
            generator.LeavesOutComments comments false value :=
        fun value isInline isChild =>
          part noStatements value isChild fun opens => by
            rw [inlineStarts value isInline] at opens
            cases opens
      have succeeds := renderable.succeeds
      rw [LeavesOutComments]
      cases node with
      | literal info value =>
          rw [Node.withoutComments, fragment, fragment]
          exact .refl rfl
      | reference target =>
          rw [Node.withoutComments, fragment, fragment]
          exact .refl rfl
      | block body =>
          cases body with
          | mk info statements =>
              rw [Node.withoutComments, Node.blockWithoutComments, fragment, fragment,
                blockFragment, blockFragment, listFragment_eq_map, listFragment_eq_map]
              apply Agrees.marked
              apply Agrees.braces
              exact sameLines_statements fun inner isStatement noComment =>
                statement inner isStatement noComment fun _ => rfl
      | typeMention mention =>
          rw [Node.withoutComments, fragment, fragment]
          exact .refl rfl
      | declaration info name modifiers type initial =>
          rw [Node.withoutComments, fragment, fragment]
          apply Agrees.marked
          apply generator.core.agrees_declaration
          · intro written member
            obtain ⟨mention, _, rfl⟩ := Option.map_eq_some_iff.mp member
            rfl
          · cases initial with
            | none => exact .none
            | some value =>
                exact .some (inline rfl value (by simp [Node.inlineParts])
                  (by simp [Node.children]))
      | comment info written => cases placed.root
      | script info imports statements =>
          rw [Node.withoutComments, fragment, fragment, listFragment_eq_map,
            listFragment_eq_map]
          apply (agrees_gradleNode supported rfl _ _).marked
          intro language
          exact agrees_script mixed starts fun inner isStatement noComment _ innerStarts =>
            statement inner isStatement noComment innerStarts
      | assignment info target value =>
          rw [Node.withoutComments, fragment, fragment]
          apply (agrees_gradleNode supported rfl _ _).marked
          intro language
          have onValue := inline rfl value List.mem_cons_self (by simp [Node.children])
          exact ((Agrees.refl rfl).append (.text " = ")).append onValue
      | namedBlock info name body =>
          rw [Node.withoutComments, fragment, fragment, blockFragment_eq _ _ generator,
            blockFragment_eq _ _ generator]
          apply (agrees_gradleNode supported rfl _ _).marked
          intro language
          have onBody := @part false rfl (.block body) List.mem_cons_self
            (by simp [Node.opensWithComment])
          rw [LeavesOutComments, Node.withoutComments] at onBody
          exact ((Agrees.text name).append (.text " ")).append onBody
      | call info receiver name typeArguments arguments trailing =>
          rw [Node.withoutComments, fragment, fragment, listFragment_eq_map,
            listFragment_eq_map, Node.partsWithoutComments_eq_map, List.map_map]
          apply (agrees_gradleNode supported rfl _ _).marked
          intro language
          apply language.agrees_call
          case onReceiver =>
            cases receiver with
            | none => exact .none
            | some known => exact .some (part rfl known (by simp [Node.children]) starts)
          case typesSucceed =>
            intro written isType
            obtain ⟨mention, _, rfl⟩ := List.mem_map.mp isType
            rfl
          case onArguments =>
            rw [List.forall₂_map_left_iff, List.forall₂_map_right_iff, List.forall₂_same]
            exact fun argument isArgument =>
              inline rfl argument isArgument (by simp [Node.children, isArgument])
          case onTrailing =>
            cases trailing with
            | none => exact .none
            | some body =>
                have onBody := @part false rfl (.block body) (by simp [Node.children])
                  (by simp [Node.opensWithComment])
                rw [LeavesOutComments, Node.withoutComments, ← blockFragment_eq,
                  ← blockFragment_eq] at onBody
                exact .some onBody
      | plugin info spec =>
          rw [Node.withoutComments, fragment, fragment]
          exact .refl (succeeds comments)
      | component info name =>
          rw [Node.withoutComments, fragment, fragment]
          exact .refl (succeeds comments)
      | mavenRepository info url =>
          rw [Node.withoutComments, fragment, fragment]
          exact .refl (succeeds comments)
      | foreign info kind children => cases generator <;> cases supported

/-- The text with comments left out is the text of the tree without comments, under either
setting. -/
theorem generate_leftOut {node : Node} (renderable : generator.CanRender node)
    (placed : node.CommentsAreStatements) (spare : node.CommentsAreSpare)
    (options : LayoutOptions) (comments : Bool) :
    ∃ leftOut removed,
      generator.generate node { options with comments := false } = .ok leftOut ∧
      generator.generate node.withoutComments { options with comments := comments } =
        .ok removed ∧
      leftOut.text = removed.text := by
  have agrees : generator.LeavesOutComments comments true node :=
    leavesOutComments renderable placed spare fun _ => rfl
  obtain ⟨leftOut, rendersLeftOut, leftOutText⟩ := render_eq_linesText _
    { options with comments := false } agrees.firstSucceeds
  obtain ⟨removed, rendersRemoved, removedText⟩ := render_eq_linesText _
    { options with comments := comments } agrees.secondSucceeds
  refine ⟨leftOut, removed, rendersLeftOut, rendersRemoved, ?_⟩
  rw [leftOutText, removedText, agrees.layout]
  rfl

end Generator

end BuildScribe
