import BuildScribe.Proofs.Rendering.Statements
import BuildScribe.Proofs.Target.Names
import BuildScribe.Proofs.Target.Nullability
import Mathlib.Data.List.Basic

/-!
# The layout that the languages share

A tree of blocks, literals, comments, types and plain references has the same lines in both
languages. A line is one word at a depth, and the languages only differ in how they spell a
word that is a string or a type.
-/

namespace BuildScribe

/-- What stands on a line, before a language spells it. -/
inductive Word where
  | plain (text : String)
  | string (value : String)
  | type (type : ScriptType)

structure WordLine where
  depth : Nat
  word : Word

def WordLine.deeper (line : WordLine) : WordLine :=
  { line with depth := line.depth + 1 }

namespace Language

/-- Strings are literals of the language. Groovy writes a type as Kotlin does, without the
question marks. -/
def spell : Language → Word → String
  | _, .plain text => text
  | language, .string value => language.stringLiteral value
  | kotlin, .type type => kotlin.typeText type
  | groovy, .type type => withoutQuestionMarks (kotlin.typeText type)

def writeLine (language : Language) (line : WordLine) : Line :=
  ⟨line.depth, language.spell line.word⟩

theorem map_writeLine_deeper (language : Language) (lines : List WordLine) :
    (lines.map WordLine.deeper).map language.writeLine =
      (lines.map language.writeLine).map (Line.deeper 1) := by
  rw [List.map_map, List.map_map]
  rfl

end Language

namespace LiteralValue

def word : LiteralValue → Word
  | string value => .string value
  | value => .plain value.plainText

theorem spell_word (language : Language) (value : LiteralValue) :
    language.spell value.word = language.literalText value := by
  cases value <;> rfl

end LiteralValue

namespace Node

/-- The lines of a node, given those of its children. -/
def wordLinesOver (comments : Bool) (node : Node) (below : List (List WordLine)) :
    List WordLine :=
  match node with
  | literal _ value => [⟨0, value.word⟩]
  | reference target => [⟨0, .plain target.dottedPath⟩]
  | block _ =>
      ⟨0, .plain "\x7b"⟩ :: below.flatten.map WordLine.deeper ++ [⟨0, .plain "\x7d"⟩]
  | typeMention mention =>
      if mention.type.isNameless then [] else [⟨0, .type mention.type⟩]
  | comment _ written =>
      if comments then
        (textLines written).map fun line => ⟨0, .plain (commentLine line)⟩
      else
        []
  | _ => []

def wordLines (comments : Bool) (node : Node) : List WordLine :=
  node.fold (wordLinesOver comments)

/-- Whether both languages write the node alike: the names of a reference are identifiers,
those of a type contain no question mark, and the type is not an empty name made nullable. -/
def isShared : Node → Bool
  | literal _ _ | block _ | comment _ _ => true
  | reference target => target.segments.all isIdentifier
  | typeMention mention =>
      mention.type.shortNames.all (fun name => !name.toList.contains '?') &&
        !(mention.type.isNullable && mention.type.isNameless)
  | _ => false

/-- Whether both languages write all nodes of the tree alike. -/
def IsShared (node : Node) : Prop :=
  ∀ met ∈ node.walk, met.isShared = true

instance (node : Node) : Decidable node.IsShared :=
  inferInstanceAs (Decidable (∀ met ∈ node.walk, met.isShared = true))

theorem IsShared.child {node child : Node} (shared : node.IsShared)
    (isChild : child ∈ node.children) : child.IsShared :=
  fun met onWalk => shared met (mem_walk_of_mem_children isChild onWalk)

theorem isShared_typeMention_iff {mention : TypeMention} :
    (typeMention mention).isShared = true ↔
      (∀ name ∈ mention.type.shortNames, '?' ∉ name.toList) ∧
        (mention.type.isNameless = true → mention.type.isNullable = false) := by
  have notBoth (nullable nameless : Bool) :
      (!(nullable && nameless)) = true ↔ (nameless = true → nullable = false) := by
    cases nullable <;> cases nameless <;> decide
  rw [isShared, Bool.and_eq_true, notBoth]
  simp

theorem isCore_of_isShared {node : Node} (shared : node.isShared = true) :
    node.isCore = true := by
  cases node <;> first | rfl | cases shared

theorem IsShared.canRender {node : Node} (shared : node.IsShared) (language : Language) :
    (Generator.language language).CanRender node :=
  fun met onWalk => isCore_of_isShared (shared met onWalk)

end Node

theorem Decimal.positionalText_ne_nil (decimal : Decimal) : decimal.positionalText ≠ [] := by
  unfold positionalText
  dsimp only
  repeat' split
  all_goals simp

theorem Binary64.scriptText_ne_empty (x : Binary64) : NumeralStyle.script.text x ≠ "" := by
  have magnitude : NumeralStyle.script.magnitudeText x ≠ [] := by
    unfold NumeralStyle.magnitudeText
    split
    · decide
    · split
      · decide
      · exact Decimal.positionalText_ne_nil _
  unfold NumeralStyle.text
  split
  · decide
  · split <;> simp [magnitude]

theorem Binary64.wholeText_ne_empty (x : Binary64) : x.wholeText ≠ "" := by
  unfold wholeText
  cases x.negative <;> simp

theorem LiteralValue.integerText_ne_empty (value : Int) : toString value ≠ "" := by
  have digits (n : Nat) : Nat.repr n ≠ "" := by
    simp [Nat.repr]
  cases value with
  | ofNat n => exact digits n
  | negSucc n =>
      intro nothing
      exact digits (n + 1) (String.append_eq_empty_iff.mp nothing).2

namespace Language

theorem stringLiteral_ne_empty (language : Language) (value : String) :
    language.stringLiteral value ≠ "" := by
  simp [stringLiteral, literalChars]

theorem literalText_ne_empty (language : Language) (value : LiteralValue) :
    language.literalText value ≠ "" := by
  cases value with
  | string value => exact language.stringLiteral_ne_empty value
  | integer value => exact LiteralValue.integerText_ne_empty value
  | double value =>
      unfold literalText LiteralValue.plainText
      dsimp only
      split
      · exact value.wholeText_ne_empty
      · exact value.scriptText_ne_empty
  | boolean value =>
      change toString value ≠ ""
      cases value <;> decide
  | null =>
      change "null" ≠ ""
      decide

end Language

namespace Node

theorem wordLines_eq (comments : Bool) (node : Node) :
    node.wordLines comments =
      node.wordLinesOver comments (node.children.map (wordLines comments)) :=
  fold_eq _ node

end Node

namespace Generator

variable {language : Language} {comments : Bool}

theorem layout_marked_phrase {location : Option SourceLocation} {written : String}
    (something : written ≠ "") :
    (Fragment.mark location ++ Fragment.text written).layout = [⟨0, written⟩] :=
  ((Fragment.IsPhrase.text written).marked location).layout something

theorem layout_literal (info : Metadata) (value : LiteralValue) :
    (Generator.language language).layout comments (.literal info value) =
      [⟨0, language.literalText value⟩] := by
  rw [layout, fragment]
  exact layout_marked_phrase (language.literalText_ne_empty value)

theorem layout_reference {target : Reference}
    (plain : ∀ name ∈ target.segments, isIdentifier name = true) :
    (Generator.language language).layout comments (.reference target) =
      [⟨0, target.dottedPath⟩] := by
  have spelled := language.referenceText_of_identifiers plain
  rw [layout, fragment, reference, core, spelled]
  exact layout_marked_phrase (Reference.dottedPath_ne_empty plain)

/-- A type has a line unless it is an empty name, as long as that is not nullable. -/
theorem layout_typeMention {mention : TypeMention}
    (named : mention.type.isNameless = true → mention.type.isNullable = false) :
    (Generator.language language).layout comments (.typeMention mention) =
      if mention.type.isNameless then [] else [⟨0, language.typeText mention.type⟩] := by
  have phrase := (Fragment.IsPhrase.text (language.typeText mention.type)).marked
    mention.info.location
  have empty_iff : language.typeText mention.type = "" ↔ mention.type.isNameless = true := by
    cases language with
    | kotlin =>
        rw [Language.kotlin_typeText_eq_empty_iff]
        exact ⟨And.left, fun nameless => ⟨nameless, named nameless⟩⟩
    | groovy => exact Language.groovy_typeText_eq_empty_iff mention.type
  rw [layout, fragment, typeMention, core]
  split
  next nameless =>
    rw [empty_iff.mpr nameless] at phrase ⊢
    exact phrase.layout_of_empty
  next other =>
    exact phrase.layout fun nothing => other (empty_iff.mp nothing)

/-- The languages write the words of a tree, each in its own spelling. -/
theorem layout_of_isShared {node : Node} (shared : node.IsShared) :
    (Generator.language language).layout comments node =
      (node.wordLines comments).map language.writeLine := by
  induction node using Node.descend with
  | step node ih =>
      have onNode := shared node node.mem_walk_self
      rw [Node.wordLines_eq]
      cases node with
      | literal info value =>
          rw [layout_literal, ← value.spell_word language]
          rfl
      | reference target =>
          have plain : ∀ name ∈ target.segments, isIdentifier name = true := by
            simpa [Node.isShared] using onNode
          rw [layout_reference plain]
          cases language <;> rfl
      | block body =>
          have renderable : ∀ statement ∈ body.statements,
              (Generator.language language).CanRender statement :=
            fun statement isStatement => (shared.child isStatement).canRender language
          have inside : body.statements.flatMap
              ((Generator.language language).layout comments) =
                (body.statements.flatMap (Node.wordLines comments)).map
                  language.writeLine := by
            rw [List.map_flatMap]
            exact List.flatMap_congr fun statement isStatement =>
              ih statement isStatement (shared.child isStatement)
          rw [layout_block renderable, inside, ← language.map_writeLine_deeper]
          cases language <;> simp [Node.wordLinesOver, Node.children, List.flatMap,
            Language.writeLine, Language.spell]
      | typeMention mention =>
          obtain ⟨unmarked, named⟩ := Node.isShared_typeMention_iff.mp onNode
          have spelled : language.typeText mention.type =
              language.spell (.type mention.type) := by
            cases language with
            | kotlin => rfl
            | groovy => exact Language.groovy_typeText_eq unmarked
          rw [layout_typeMention named, spelled, Node.wordLinesOver]
          split <;> rfl
      | comment info written =>
          rw [layout_commentNode]
          cases comments with
          | false => rfl
          | true =>
              simp [Node.wordLinesOver, Language.writeLine, Language.spell, Function.comp_def]
      | _ => cases onNode

/-- A tree of blocks, literals, comments, types and plain references has one list of words
that both languages write: at the same depths and in equal lines, except that each spells
strings as its own literals, and that Groovy leaves the question marks out of types. -/
theorem generate_of_isShared {node : Node} (shared : node.IsShared)
    (options : LayoutOptions) (language : Language) :
    ∃ rendering, (Generator.language language).generate node options = .ok rendering ∧
      rendering.text = linesText options
        ((node.wordLines options.comments).map language.writeLine) := by
  rw [← layout_of_isShared shared]
  exact (shared.canRender language).generate_eq options

/-- A string with a quote and a dollar sign, and a nullable list of nullable elements, in a
block. -/
theorem generate_of_quoted_and_nullable :
    let elements : ScriptType := .generic (.named "List") [.nullable (.named "String")]
    let node : Node := .block (.of [.ofString "it's $5", .ofComment "a\nb",
      .typeMention (.of (.nullable elements)), .block (.of [.ofPath "a.b"])])
    node.IsShared ∧ ∃ rendering,
      (Generator.language .groovy).generate node {} = .ok rendering ∧
        rendering.text = linesText {}
          ((node.wordLines true).map Language.groovy.writeLine) :=
  ⟨by decide, generate_of_isShared (by decide) {} .groovy⟩

/-- Of an empty name that is nullable Kotlin writes the question mark, for which Groovy has
no line at all. -/
theorem generate_nullable_empty_name :
    let node : Node := .typeMention (.of (.nullable (.named "")))
    (∀ name ∈ (ScriptType.nullable (.named "")).shortNames, '?' ∉ name.toList) ∧
      (Generator.language .kotlin).generate node {} = .ok ⟨"?\n", []⟩ ∧
      (Generator.language .groovy).generate node {} = .ok ⟨"", []⟩ ∧
      ¬ ∃ lines : List WordLine, ∀ language : Language, ∃ rendering,
        (Generator.language language).generate node {} = .ok rendering ∧
          rendering.text = linesText {} (lines.map language.writeLine) := by
  have onKotlin : (Generator.language .kotlin).generate
      (.typeMention (.of (.nullable (.named "")))) {} = .ok ⟨"?\n", []⟩ := by decide
  have onGroovy : (Generator.language .groovy).generate
      (.typeMention (.of (.nullable (.named "")))) {} = .ok ⟨"", []⟩ := by decide
  refine ⟨by decide, onKotlin, onGroovy, ?_⟩
  rintro ⟨lines, writes⟩
  obtain ⟨inKotlin, succeeds, kotlinText⟩ := writes .kotlin
  obtain ⟨inGroovy, alsoSucceeds, groovyText⟩ := writes .groovy
  cases onKotlin.symm.trans succeeds
  cases onGroovy.symm.trans alsoSucceeds
  cases lines with
  | nil => simp at kotlinText
  | cons first rest => simp [linesText, Line.text] at groovyText

end Generator

end BuildScribe
