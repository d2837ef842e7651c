import BuildScribe.Proofs.Layout.Lines
import BuildScribe.Proofs.Rendering.Composition

/-!
# Coverage of a tree

What a node writes is assembled from what its children write, one child behind the
other: the pieces of each child stand in one run, a number of levels deeper, and what
stands around them records no location. Only a call under a Groovy generator takes its
children in another order than the walk does, and a qualifier is written by the
reference that it belongs to.
-/

namespace BuildScribe

/-- The parts stand in the whole one behind the other, with any text around
them. -/
inductive Woven : List String → String → Prop where
  | nil (whole : String) : Woven [] whole
  | cons (before part : String) {parts : List String} {behind : String} :
      Woven parts behind → Woven (part :: parts) (before ++ part ++ behind)

namespace Woven

theorem precede (before : String) {parts : List String} {whole : String}
    (woven : Woven parts whole) : Woven parts (before ++ whole) := by
  cases woven with
  | nil => exact .nil _
  | cons start part rest =>
      simpa [String.append_assoc] using Woven.cons (before ++ start) part rest

end Woven

def Stroke.written : Stroke → String
  | .text written => written
  | .line written => written
  | .finish => ""
  | .mark _ => ""

def Page.content (page : Page) : String :=
  String.join (page.closed.map Line.content) ++ (page.current.map Line.content).getD ""

namespace Page

theorem content_put (page : Page) (depth : Nat) (written : String) :
    (page.put depth written).content = page.content ++ written := by
  cases nothing : written.isEmpty with
  | true => simp_all [put]
  | false =>
      cases current : page.current <;>
        simp [put, nothing, current, content, String.append_assoc]

theorem content_close (page : Page) (depth : Nat) :
    (page.close depth).content = page.content := by
  cases current : page.current <;> simp [close, current, content]

theorem content_settle (page : Page) : page.settle.content = page.content := by
  cases current : page.current <;> simp [settle, current, content]

theorem content_write (level : Nat) (page : Page) (piece : Piece) :
    (page.write level piece).content = page.content ++ piece.stroke.written := by
  unfold write
  cases piece.stroke with
  | text written => exact content_put page _ written
  | line written => exact (content_close _ _).trans (content_put page _ written)
  | finish => simpa [apply, Stroke.written] using content_settle page
  | mark location => simp [apply, Stroke.written]

theorem content_writeAll (level : Nat) (page : Page) (pieces : List Piece) :
    (page.writeAll level pieces).content =
      page.content ++ String.join (pieces.map (·.stroke.written)) := by
  induction pieces generalizing page with
  | nil => simp [writeAll]
  | cons piece rest ih =>
      have step := ih (page.write level piece)
      rw [content_write] at step
      simpa [writeAll, String.append_assoc] using step

end Page

namespace Fragment

/-- Everything that a fragment writes, without indents and line endings. -/
def ink (fragment : Fragment) : String :=
  String.join (fragment.pieces.map (·.stroke.written))

/-- The content of the lines of a fragment is what it writes. -/
theorem join_content_layout (fragment : Fragment) :
    String.join (fragment.layout.map Line.content) = fragment.ink := by
  have written := Page.content_writeAll 0 Page.blank fragment.pieces
  rw [← Page.content_settle] at written
  simpa [Page.content, layout, Page.blank, ink] using written

theorem ink_append {first : Fragment} (succeeds : first.failure = none)
    (second : Fragment) : (first ++ second).ink = first.ink ++ second.ink := by
  simp [ink, pieces_append succeeds]

@[simp] theorem ink_marked_text (location : Option SourceLocation)
    (written : String) : (mark location ++ text written).ink = written := by
  rw [ink_append rfl]
  cases location <;> simp [ink, mark, text, ofStroke, Stroke.written]

/-- Unless it fails, a fragment writes what the parts write one behind the
other. -/
def Carries (whole : Fragment) (parts : List Fragment) : Prop :=
  whole.failure = none → Woven (parts.map ink) whole.ink

end Fragment

/-- The piece a number of levels deeper. -/
def Piece.sunk (levels : Nat) (piece : Piece) : Piece :=
  { piece with depth := piece.depth + levels }

@[simp] theorem Piece.sunk_zero : Piece.sunk 0 = id := rfl

theorem Piece.deeper_comp_sunk (levels : Nat) :
    Piece.deeper ∘ Piece.sunk levels = Piece.sunk (levels + 1) := rfl

theorem Piece.sunk_comp_sunk (inner outer : Nat) :
    Piece.sunk outer ∘ Piece.sunk inner = Piece.sunk (inner + outer) := by
  funext piece
  simp [sunk, Nat.add_assoc]

/-- The location that a stroke records. -/
def Stroke.location? : Stroke → Option SourceLocation
  | .mark location => some location
  | _ => none

/-- The locations that pieces record, in order. -/
def recordedBy (pieces : List Piece) : List SourceLocation :=
  pieces.filterMap fun piece => piece.stroke.location?

@[simp] theorem recordedBy_append (first second : List Piece) :
    recordedBy (first ++ second) = recordedBy first ++ recordedBy second := by
  simp [recordedBy]

@[simp] theorem recordedBy_sunk (levels : Nat) (pieces : List Piece) :
    recordedBy (pieces.map (Piece.sunk levels)) = recordedBy pieces := by
  simp [recordedBy, Piece.sunk, List.filterMap_map, Function.comp_def]

/-- The pieces of the parts, one part behind the other and each part a number of
levels deeper. What stands around the parts records no location. -/
inductive Assembled : List Fragment → List Piece → Prop where
  | rest {pieces : List Piece} : recordedBy pieces = [] → Assembled [] pieces
  | part {before : List Piece} (levels : Nat) {part : Fragment}
      {parts : List Fragment} {behind : List Piece} :
      recordedBy before = [] → Assembled parts behind →
      Assembled (part :: parts)
        (before ++ part.pieces.map (Piece.sunk levels) ++ behind)

namespace Assembled

theorem precede {before : List Piece} (silent : recordedBy before = [])
    {parts : List Fragment} {pieces : List Piece}
    (assembled : Assembled parts pieces) : Assembled parts (before ++ pieces) := by
  cases assembled with
  | rest unmarked => exact .rest (by simp [silent, unmarked])
  | @part start levels part parts behind startSilent others =>
      have wholeSilent : recordedBy (before ++ start) = [] := by
        simp [silent, startSilent]
      simpa [List.append_assoc] using Assembled.part levels wholeSilent others

theorem append {firstParts secondParts : List Fragment}
    {first second : List Piece} (onFirst : Assembled firstParts first)
    (onSecond : Assembled secondParts second) :
    Assembled (firstParts ++ secondParts) (first ++ second) := by
  induction onFirst with
  | rest unmarked => exact onSecond.precede unmarked
  | part levels silent others ih =>
      simpa [List.append_assoc] using Assembled.part levels silent ih

theorem deeper {parts : List Fragment} {pieces : List Piece}
    (assembled : Assembled parts pieces) :
    Assembled parts (pieces.map Piece.deeper) := by
  have sameLocations (some : List Piece) :
      recordedBy (some.map Piece.deeper) = recordedBy some :=
    recordedBy_sunk 1 some
  induction assembled with
  | rest unmarked => exact .rest (by rw [sameLocations, unmarked])
  | part levels silent others ih =>
      rw [List.map_append, List.map_append, List.map_map,
        Piece.deeper_comp_sunk]
      exact .part (levels + 1) (by rw [sameLocations, silent]) ih

/-- Nothing is recorded but what the parts record. -/
theorem recordedBy_eq {parts : List Fragment} {pieces : List Piece}
    (assembled : Assembled parts pieces) :
    recordedBy pieces = parts.flatMap fun part => recordedBy part.pieces := by
  induction assembled with
  | rest unmarked => exact unmarked
  | part levels silent others ih => simp [silent, ih]

/-- The parts are woven into what the pieces write. -/
theorem woven {parts : List Fragment} {pieces : List Piece}
    (assembled : Assembled parts pieces) :
    Woven (parts.map Fragment.ink) (String.join (pieces.map (·.stroke.written))) := by
  induction assembled with
  | rest unmarked => exact .nil _
  | @part before levels part parts behind silent others ih =>
      simpa [Fragment.ink, Piece.sunk, Function.comp_def, String.append_assoc]
        using Woven.cons (String.join (before.map (·.stroke.written))) part.ink ih

end Assembled

namespace Fragment

/-- Unless it fails, a fragment is assembled from its parts. -/
def Assembles (whole : Fragment) (parts : List Fragment) : Prop :=
  whole.failure = none → Assembled parts whole.pieces

namespace Assembles

theorem carries {whole : Fragment} {parts : List Fragment}
    (assembles : whole.Assembles parts) : whole.Carries parts :=
  fun succeeds => (assembles succeeds).woven

theorem empty : Fragment.empty.Assembles [] := fun _ => .rest rfl

theorem text (written : String) : (Fragment.text written).Assembles [] :=
  fun _ => .rest rfl

theorem line (written : String) : (Fragment.line written).Assembles [] :=
  fun _ => .rest rfl

theorem finish : Fragment.finish.Assembles [] := fun _ => .rest rfl

/-- A fragment that fails may be assembled from anything. -/
theorem fail (failure : Failure) (parts : List Fragment) :
    (Fragment.fail failure).Assembles parts := by
  intro succeeds
  simp at succeeds

theorem self (whole : Fragment) : whole.Assembles [whole] := by
  intro _
  have single : Assembled [whole] ([] ++ whole.pieces.map (Piece.sunk 0) ++ []) :=
    .part 0 rfl (.rest rfl)
  simpa using single

theorem append {first second : Fragment} {firstParts secondParts : List Fragment}
    (onFirst : first.Assembles firstParts)
    (onSecond : second.Assembles secondParts) :
    (first ++ second).Assembles (firstParts ++ secondParts) := by
  intro succeeds
  rw [failure_append, Option.or_eq_none_iff] at succeeds
  rw [pieces_append succeeds.1]
  exact (onFirst succeeds.1).append (onSecond succeeds.2)

theorem before {first second : Fragment} {parts : List Fragment}
    (onFirst : first.Assembles parts) (onSecond : second.Assembles []) :
    (first ++ second).Assembles parts := by
  simpa using onFirst.append onSecond

theorem nested {whole : Fragment} {parts : List Fragment}
    (assembles : whole.Assembles parts) : whole.nested.Assembles parts :=
  fun succeeds => (assembles succeeds).deeper

theorem lines (parts : List Fragment) : (Fragment.lines parts).Assembles parts := by
  induction parts with
  | nil => exact empty
  | cons first rest ih => exact ((self first).before finish).append ih

theorem separated (separator : String) (parts : List Fragment) :
    (Fragment.separated separator parts).Assembles parts := by
  induction parts with
  | nil => exact empty
  | cons first rest ih =>
      cases rest with
      | nil => exact self first
      | cons second others =>
          exact ((self first).before (text separator)).append ih

theorem braces (statements : List Fragment) :
    (Fragment.braces statements).Assembles statements :=
  (((text "\x7b").append finish).append (lines statements).nested).before
    (text "\x7d")

theorem script (imports : List String) (statements : List Fragment) :
    (Fragment.script imports statements).Assembles statements := by
  have importLines (paths : List String) :
      (sequence (paths.map fun path => Fragment.line ("import " ++ path))).Assembles
        [] := by
    induction paths with
    | nil => exact empty
    | cons path rest ih => exact (line ("import " ++ path)).append ih
  have gap (absent : Bool) :
      (if absent then Fragment.empty else Fragment.line "").Assembles [] := by
    cases absent with
    | true => exact empty
    | false => exact line ""
  exact ((importLines imports).append (gap _)).append (lines statements)

theorem comment (written : String) : (Fragment.comment written).Assembles [] := by
  unfold Fragment.comment
  induction textLines written with
  | nil => exact empty
  | cons first rest ih =>
      cases rest with
      | nil => exact text _
      | cons second others => exact ((text _).append finish).append ih

/-- An optional part that is written with some text around it. -/
theorem option {missing : Fragment} (absent : missing.Assembles [])
    {present : Fragment → Fragment} (part : Option Fragment)
    (surrounds : ∀ written, (present written).Assembles [written]) :
    (part.elim missing present).Assembles part.toList := by
  cases part with
  | none => exact absent
  | some written => exact surrounds written

/-- Parts between delimiters. -/
theorem delimited (opening separator closing : String) (parts : List Fragment) :
    (Fragment.text opening ++ Fragment.separated separator parts ++
      Fragment.text closing).Assembles parts :=
  ((text opening).append (separated separator parts)).before (text closing)

/-- What is left out is assembled from all parts if there are none. -/
theorem leftOut {absent : Bool} {whole : Fragment} {parts : List Fragment}
    (noParts : absent = true → parts = []) (assembles : whole.Assembles parts) :
    (if absent then Fragment.empty else whole).Assembles parts := by
  cases absent with
  | true =>
      rw [noParts rfl]
      exact empty
  | false => exact assembles

end Assembles

end Fragment

namespace Language

open Fragment

theorem assembles_declaration (language : Language) (name : String)
    (modifiers : ModifierSet) (type initial : Option Fragment) :
    (language.declaration name modifiers type initial).Assembles
      (type.toList ++ initial.toList) := by
  have value : (initial.elim empty fun written => text " = " ++ written).Assembles
      initial.toList :=
    .option .empty initial fun written => (Assembles.text " = ").append (.self written)
  cases language with
  | kotlin =>
      have typed : (type.elim empty fun written => text ": " ++ written).Assembles
          type.toList :=
        .option .empty type fun written => (Assembles.text ": ").append (.self written)
      rw [kotlin_declaration_eq]
      exact ((((Assembles.text _).append (.text _)).append (.text _)).append
        typed).append value
  | groovy =>
      have typed : (type.elim (text "def ") fun written => written ++ text " ").Assembles
          type.toList :=
        .option (.text "def ") type fun written =>
          (Assembles.self written).before (.text " ")
      rw [groovy_declaration_eq]
      exact (((Assembles.text _).append typed).before (.text name)).append value

/-- The parts of a call in the order in which the language writes them. -/
def callOrder {α : Type} (language : Language) (receiver : Option α)
    (typeArguments arguments : List α) (trailing : Option α) : List α :=
  receiver.toList ++
    (match language with
      | kotlin => typeArguments ++ arguments
      | groovy => arguments ++ typeArguments) ++
    trailing.toList

theorem assembles_call (language : Language) (receiver : Option Fragment)
    (name : String) (typeArguments arguments : List Fragment)
    (trailing : Option Fragment) :
    (language.call receiver name typeArguments arguments trailing).Assembles
      (language.callOrder receiver typeArguments arguments trailing) := by
  have target : (receiver.elim empty fun written => written ++ text ".").Assembles
      receiver.toList :=
    .option .empty receiver fun written => (Assembles.self written).before (.text ".")
  have block : (trailing.elim empty fun written => text " " ++ written).Assembles
      trailing.toList :=
    .option .empty trailing fun written => (Assembles.text " ").append (.self written)
  have parenthesized (listed : List Fragment) : Assembles
      (if listed.isEmpty && trailing.isSome then empty
        else text "(" ++ separated ", " listed ++ text ")") listed := by
    refine .leftOut ?_ (.delimited "(" ", " ")" listed)
    intro absent
    rw [Bool.and_eq_true, List.isEmpty_iff] at absent
    exact absent.1
  rw [call_eq]
  cases language with
  | kotlin =>
      have types : Assembles
          (if !typeArguments.isEmpty then
            text "<" ++ separated ", " typeArguments ++ text ">" else empty)
          typeArguments := by
        cases typeArguments with
        | nil => exact .empty
        | cons first rest => exact .delimited "<" ", " ">" (first :: rest)
      have parts := (((target.before (.text name)).append types).append
        (parenthesized arguments)).append block
      rw [List.append_assoc receiver.toList] at parts
      exact parts
  | groovy =>
      exact (((target.before (.text name)).before .empty).append
        (parenthesized (arguments ++ typeArguments))).append block

private theorem referenceParts_ne_nil (language : Language)
    {segments : List String} (nonempty : segments ≠ []) :
    language.referenceParts segments ≠ [] := by
  cases segments with
  | nil => exact (nonempty rfl).elim
  | cons first rest =>
      cases language with
      | kotlin => simp [referenceParts]
      | groovy => by_cases plain : isIdentifier first <;> simp [referenceParts, plain]

private theorem referenceParts_concat (language : Language)
    {segments : List String} (nonempty : segments ≠ []) (name : String) :
    ∃ last, language.referenceParts (segments ++ [name]) =
      language.referenceParts segments ++ [last] := by
  cases language with
  | kotlin => exact ⟨backtickedName name, by simp [referenceParts]⟩
  | groovy =>
      refine ⟨propertyName name, ?_⟩
      cases segments with
      | nil => exact (nonempty rfl).elim
      | cons first rest =>
          by_cases plain : isIdentifier first <;> simp [referenceParts, plain]

/-- A reference starts with the text of its qualifier. -/
theorem referenceText_member (language : Language) (info : Metadata)
    (qualifier : Reference) (name : String) :
    ∃ behind, language.referenceText (.member info qualifier name) =
      language.referenceText qualifier ++ behind := by
  have nonempty : qualifier.segments ≠ [] := by
    cases qualifier <;> simp [Reference.segments]
  obtain ⟨last, longer⟩ := language.referenceParts_concat nonempty name
  have partsNonempty := language.referenceParts_ne_nil nonempty
  refine ⟨"." ++ last, ?_⟩
  rw [referenceText, Reference.segments, longer,
    String.intercalate_append_of_ne_nil partsNonempty (by simp),
    String.intercalate_singleton, String.append_assoc]
  rfl

end Language

namespace Generator

open Fragment

/-- The order in which a generator writes the children of a node. -/
def writingOrder (generator : Generator) : Node → List Node
  | .call info receiver name typeArguments arguments trailing =>
      match generator.gradleLanguage? with
      | some target =>
          target.callOrder receiver (typeArguments.map .typeMention) arguments
            (trailing.map .block)
      | none =>
          (Node.call info receiver name typeArguments arguments trailing).children
  | node => node.children

theorem writingOrder_perm (generator : Generator) (node : Node) :
    (generator.writingOrder node).Perm node.children := by
  cases node with
  | call info receiver name typeArguments arguments trailing =>
      rw [writingOrder]
      cases generator.gradleLanguage? with
      | none => exact List.Perm.refl _
      | some target =>
          cases target with
          | kotlin => simp [Language.callOrder, Node.children, Option.toList_map]
          | groovy =>
              simp only [Language.callOrder, Node.children, Option.toList_map,
                List.append_assoc]
              apply List.Perm.append_left
              rw [← List.append_assoc, ← List.append_assoc]
              exact List.perm_append_comm.append_right _
  | _ => exact List.Perm.refl _

/-- The children that a generator writes as nodes of their own. A reference spells
out all of its names, so its qualifier is none of them. -/
def writtenChildren (generator : Generator) : Node → List Node
  | .reference _ => []
  | node => generator.writingOrder node

/-- A refused node is assembled from anything, any other as its rule is. -/
theorem assembles_gradleNode (emitter : Generator) (kind : String)
    {rule : Language → Fragment} {parts : List Fragment}
    (ruleAssembles : ∀ language, emitter.gradleLanguage? = some language →
      (rule language).Assembles parts) :
    (emitter.gradleNode kind rule).Assembles parts := by
  unfold gradleNode
  cases known : emitter.gradleLanguage? with
  | none => exact .fail _ parts
  | some language => exact ruleAssembles language known

/-- A node first records its own location and is then assembled from what its
children write. -/
theorem assembles_fragment (generator : Generator) (comments : Bool) (node : Node) :
    ∃ body : Fragment,
      generator.fragment comments generator node =
        mark node.info.location ++ body ∧
      body.Assembles ((generator.writtenChildren node).map
        (generator.fragment comments generator)) := by
  cases node with
  | literal info value =>
      rw [fragment]
      exact ⟨_, rfl, .text _⟩
  | reference target =>
      rw [fragment, reference]
      exact ⟨_, rfl, .text _⟩
  | block body =>
      cases body with
      | mk info statements =>
          rw [fragment, blockFragment, listFragment_eq_map]
          exact ⟨_, rfl, .braces _⟩
  | typeMention mention =>
      rw [fragment, typeMention]
      exact ⟨_, rfl, .text _⟩
  | declaration info name modifiers type initial =>
      have parts := generator.core.assembles_declaration name modifiers
        (type.map generator.typeMention)
        (optionFragment comments generator initial)
      rw [fragment]
      refine ⟨_, rfl, ?_⟩
      cases type <;> cases initial <;> exact parts
  | comment info written =>
      rw [fragment]
      refine ⟨_, rfl, ?_⟩
      cases comments with
      | true => exact .comment written
      | false => exact .empty
  | script info imports statements =>
      rw [fragment, listFragment_eq_map]
      exact ⟨_, rfl, generator.assembles_gradleNode _ fun _ _ => .script _ _⟩
  | assignment info target value =>
      rw [fragment]
      refine ⟨_, rfl, generator.assembles_gradleNode _ ?_⟩
      intro language _
      exact ((Assembles.self (generator.reference target)).before (.text " = ")).append
        (.self _)
  | namedBlock info name body =>
      rw [fragment]
      refine ⟨_, rfl, generator.assembles_gradleNode _ ?_⟩
      intro language _
      exact ((Assembles.text name).append (.text " ")).append (.self _)
  | call info receiver name typeArguments arguments trailing =>
      rw [fragment]
      refine ⟨_, rfl, generator.assembles_gradleNode _ ?_⟩
      intro language known
      have parts := language.assembles_call
        (optionFragment comments generator receiver) name
        (typeArguments.map generator.typeMention)
        (listFragment comments generator arguments)
        (optionBlockFragment comments generator trailing)
      have order : generator.writtenChildren
            (.call info receiver name typeArguments arguments trailing) =
          language.callOrder receiver (typeArguments.map .typeMention) arguments
            (trailing.map .block) := by
        simp only [writtenChildren, writingOrder, known]
      rw [order]
      cases language <;>
        simpa [Language.callOrder, optionFragment_eq_map, listFragment_eq_map,
          optionBlockFragment_eq_map, fragment, Function.comp_def,
          Option.toList_map] using parts
  | plugin info spec =>
      rw [fragment]
      exact ⟨_, rfl, generator.assembles_gradleNode _ fun _ _ => .text _⟩
  | component info name =>
      rw [fragment]
      exact ⟨_, rfl, generator.assembles_gradleNode _ fun _ _ => .text _⟩
  | mavenRepository info url =>
      rw [fragment]
      refine ⟨_, rfl, generator.assembles_gradleNode _ ?_⟩
      intro language _
      cases language with
      | kotlin => exact .text _
      | groovy =>
          exact (((Assembles.text _).append .finish).append
            ((Assembles.text _).append .finish).nested).append (.text _)
  | foreign info kind below =>
      rw [fragment]
      exact ⟨_, rfl, .fail _ _⟩

/-- What a node writes carries what its children write. -/
theorem carries_fragment (generator : Generator) (comments : Bool) (node : Node) :
    (generator.fragment comments generator node).Carries
      ((generator.writingOrder node).map
        (generator.fragment comments generator)) := by
  obtain ⟨body, written, assembles⟩ :=
    generator.assembles_fragment comments node
  have below : (generator.fragment comments generator node).Carries
      ((generator.writtenChildren node).map
        (generator.fragment comments generator)) := by
    intro succeeds
    rw [written, failure_append, failure_mark, Option.none_or] at succeeds
    rw [written, ink_append rfl]
    exact (assembles.carries succeeds).precede _
  cases node with
  | reference target =>
      cases target with
      | root info name => exact below
      | member info qualifier name =>
          intro _
          obtain ⟨behind, longer⟩ :=
            generator.core.referenceText_member info qualifier name
          have woven := Woven.cons "" (generator.core.referenceText qualifier)
            (.nil behind)
          simpa [writingOrder, Node.children, Reference.qualifier?, fragment,
            reference, longer] using woven
  | _ => exact below

end Generator

end BuildScribe
