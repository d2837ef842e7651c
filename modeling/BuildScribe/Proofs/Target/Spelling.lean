import BuildScribe.Proofs.Layout.Place
import BuildScribe.Proofs.Target.CommentText
import BuildScribe.Target.Generator

/-!
# Spelled texts stay on their line

String literals escape line breaks, numbers have none, and comments are split at them.
Everything else that is spelled stays on its line if the names in it do.
-/

namespace BuildScribe

private theorem newline_not_digit {c : Char} (digit : c.isDigit = true) : c ≠ '\n' := by
  rintro rfl
  cases digit

private theorem newline_notMem_toDigits (n : Nat) : '\n' ∉ Nat.toDigits 10 n :=
  fun member => newline_not_digit
    (Nat.isDigit_of_mem_toDigits (by decide) (by decide) member) rfl

namespace Binary64

theorem newline_notMem_ofScaled (count : Nat) (scale : Int) :
    '\n' ∉ (Decimal.ofScaled count scale).digits := by
  intro member
  rw [Decimal.ofScaled, List.mem_reverse] at member
  have written := (List.dropWhile_sublist _).subset member
  exact newline_notMem_toDigits count (List.mem_reverse.mp written)

theorem newline_notMem_decimal {interval : RoundingInterval} {tie : DecimalTie}
    {point : Int} {count : Nat} {decimal : Decimal}
    (found : interval.decimal? tie point count = some decimal) :
    '\n' ∉ decimal.digits := by
  unfold RoundingInterval.decimal? at found
  dsimp only at found
  split at found
  · cases found
  all_goals
    cases found
    exact newline_notMem_ofScaled _ _

theorem newline_notMem_shortest (x : Binary64) (tie : DecimalTie) :
    '\n' ∉ (x.shortest tie).digits := by
  unfold shortest
  dsimp only
  split
  next decimal found =>
    obtain ⟨index, _, found⟩ := List.exists_of_findSome?_eq_some found
    exact newline_notMem_decimal found
  next => exact List.not_mem_nil

theorem isInline_scriptText (x : Binary64) : IsInline (NumeralStyle.script.text x) := by
  have positional (decimal : Decimal) (digits : '\n' ∉ decimal.digits) :
      '\n' ∉ decimal.positionalText := by
    have onTake (count : Nat) : '\n' ∉ decimal.digits.take count :=
      fun member => digits (List.mem_of_mem_take member)
    have onDrop (count : Nat) : '\n' ∉ decimal.digits.drop count :=
      fun member => digits (List.mem_of_mem_drop member)
    unfold Decimal.positionalText
    dsimp only
    split
    · simp [digits]
    · split <;> simp [digits, onTake, onDrop]
  have magnitude : '\n' ∉ NumeralStyle.script.magnitudeText x := by
    unfold NumeralStyle.magnitudeText
    split
    · decide
    · split
      · decide
      · exact positional _ (newline_notMem_shortest x _)
  unfold NumeralStyle.text
  split
  · decide
  · split <;> simpa [IsInline] using magnitude

theorem isInline_wholeText (x : Binary64) : IsInline x.wholeText := by
  have digits := newline_notMem_toDigits (x.ratio.1 / x.ratio.2)
  unfold wholeText
  cases x.negative <;> simpa [IsInline] using digits

end Binary64

namespace IsInline

theorem join {texts : List String} (inline : ∀ text ∈ texts, IsInline text) :
    IsInline (String.join texts) := by
  induction texts with
  | nil => decide
  | cons first rest ih =>
      rw [String.join_cons]
      exact (inline first List.mem_cons_self).append
        (ih fun text member => inline text (List.mem_cons_of_mem first member))

theorem intercalate_iff {separator : String} (separates : IsInline separator)
    {texts : List String} :
    IsInline (separator.intercalate texts) ↔ ∀ text ∈ texts, IsInline text := by
  induction texts with
  | nil => simp [IsInline]
  | cons first rest ih =>
      cases rest with
      | nil => simp
      | cons second others =>
          rw [String.intercalate_cons_cons, append_iff, append_iff, ih]
          simp [separates]

end IsInline

namespace LiteralValue

theorem isInline_natural (value : Nat) : IsInline (Nat.repr value) := by
  rw [IsInline, Nat.repr, String.toList_ofList]
  exact newline_notMem_toDigits value

theorem isInline_integer (value : Int) : IsInline (toString value) := by
  cases value with
  | ofNat n => exact isInline_natural n
  | negSucc n => exact IsInline.append (by decide) (isInline_natural (n + 1))

end LiteralValue

theorem isInline_of_isIdentifier {name : String} (plain : isIdentifier name = true) :
    IsInline name := by
  intro breaks
  unfold isIdentifier at plain
  cases known : name.toList with
  | nil => simp [known] at breaks
  | cons first rest =>
      rw [known] at plain breaks
      simp only [isIdentifierChars, Bool.and_eq_true, List.all_eq_true] at plain
      rcases List.mem_cons.mp breaks with isFirst | onRest
      · exact absurd (isFirst ▸ plain.1) (by decide)
      · exact absurd (plain.2 _ onRest) (by decide)

mutual

/-- Leaving out the marks of nullability leaves no line break. -/
theorem ScriptType.isInline_unmarked {short : String → String → String} :
    (type : ScriptType) → IsInline (type.textBy short "?") →
      IsInline (type.textBy short "")
  | .simple _ _ _, inline => inline
  | .generic base arguments, inline => by
      simp only [textBy, joinArguments, IsInline.append_iff,
        IsInline.intercalate_iff (show IsInline ", " by decide)] at inline ⊢
      exact ⟨⟨⟨isInline_unmarked base inline.1.1.1, inline.1.1.2⟩,
        isInline_unmarkedList arguments inline.1.2⟩, inline.2⟩
  | .nullable inner, inline => by
      simp only [textBy, IsInline.append_iff] at inline ⊢
      exact ⟨isInline_unmarked inner inline.1, by decide⟩

theorem ScriptType.isInline_unmarkedList {short : String → String → String} :
    (types : List ScriptType) →
      (∀ text ∈ textByList short "?" types, IsInline text) →
        ∀ text ∈ textByList short "" types, IsInline text
  | [], _ => by simp [textByList]
  | type :: rest, inline => by
      simp only [textByList, List.forall_mem_cons] at inline ⊢
      exact ⟨isInline_unmarked type inline.1, isInline_unmarkedList rest inline.2⟩

end

namespace Language

theorem newline_notMem_literalChar (language : Language) (c : Char) :
    '\n' ∉ language.literalChar c := by
  by_cases isBreak : c = '\n'
  · subst isBreak
    cases language <;> decide
  · have other : '\n' ≠ c := Ne.symm isBreak
    unfold literalChar
    repeat' split
    all_goals simp [other]

theorem isInline_stringLiteral (language : Language) (value : String) :
    IsInline (language.stringLiteral value) := by
  have onQuote : language.quote ≠ '\n' := by cases language <;> decide
  rw [IsInline, stringLiteral, String.toList_ofList, literalChars]
  simp [newline_notMem_literalChar, onQuote.symm]

theorem isInline_literalText (language : Language) (value : LiteralValue) :
    IsInline (language.literalText value) := by
  cases value with
  | string value => exact language.isInline_stringLiteral value
  | integer value => exact LiteralValue.isInline_integer value
  | double value =>
      unfold literalText LiteralValue.plainText
      dsimp only
      split
      · exact value.isInline_wholeText
      · exact value.isInline_scriptText
  | boolean value =>
      have plain : IsInline (LiteralValue.boolean value).plainText := by
        cases value <;> decide
      exact plain
  | null =>
      have plain : IsInline LiteralValue.null.plainText := by decide
      exact plain

theorem isInline_backtickedName {name : String} (inline : IsInline name) :
    IsInline (backtickedName name) := by
  unfold backtickedName
  split
  · exact inline
  · simpa [IsInline] using inline

theorem isInline_propertyName (name : String) : IsInline (propertyName name) := by
  unfold propertyName
  split
  · exact isInline_of_isIdentifier ‹_›
  · exact groovy.isInline_stringLiteral name

/-- Groovy quotes names as string literals, so no name breaks the line. -/
theorem isInline_groovyReferenceText (reference : Reference) :
    IsInline (groovy.referenceText reference) := by
  have onProperties : ∀ part ∈ reference.segments.map propertyName, IsInline part := by
    simp [isInline_propertyName]
  rw [referenceText, IsInline.intercalate_iff (by decide)]
  unfold referenceParts
  dsimp only
  split
  · exact onProperties
  · split
    · exact onProperties
    · exact List.forall_mem_cons.mpr ⟨by decide, onProperties⟩

theorem isInline_referenceText (language : Language) {reference : Reference}
    (inline : ∀ name ∈ reference.segments, IsInline name) :
    IsInline (language.referenceText reference) := by
  cases language with
  | kotlin =>
      rw [referenceText, IsInline.intercalate_iff (by decide)]
      intro part member
      obtain ⟨name, isSegment, rfl⟩ := List.mem_map.mp member
      exact isInline_backtickedName (inline name isSegment)
  | groovy => exact isInline_groovyReferenceText reference

theorem isInline_typeText (language : Language) {type : ScriptType}
    (inline : IsInline type.name) : IsInline (language.typeText type) := by
  cases language with
  | kotlin => exact inline
  | groovy => exact type.isInline_unmarked inline

theorem isInline_modifierText (language : Language) (modifiers : ModifierSet) :
    IsInline (language.modifierText modifiers) := by
  apply IsInline.join
  intro text member
  obtain ⟨modifier, _, rfl⟩ := List.mem_map.mp member
  cases modifier <;> decide

theorem isInline_pluginText (language : Language) {spec : PluginSpec}
    (inline : spec.core = true → IsInline spec.id) :
    IsInline (language.pluginText spec) := by
  have onId : IsInline (language.pluginId spec) := by
    unfold pluginId
    split
    · exact isInline_backtickedName (inline ‹_›)
    · exact ((show IsInline "id(" by decide).append
        (kotlin.isInline_stringLiteral spec.id)).append (by decide)
    · exact (show IsInline "id " by decide).append
        (groovy.isInline_stringLiteral spec.id)
  have onVersion (version : String) :
      IsInline (" version " ++ language.stringLiteral version) :=
    (show IsInline " version " by decide).append (language.isInline_stringLiteral version)
  have onApply (applied : Bool) : IsInline (" apply " ++ toString applied) := by
    cases applied <;> decide
  unfold pluginText
  cases spec.version <;> cases spec.apply <;>
    simp [onId, onVersion, onApply]

theorem isInline_componentText (language : Language) (name : String) :
    IsInline (language.componentText name) := by
  unfold componentText
  split
  next plain =>
    rw [Bool.and_eq_true] at plain
    exact (show IsInline "components." by decide).append
      (isInline_of_isIdentifier plain.2)
  next =>
    exact ((show IsInline "components[" by decide).append
      (language.isInline_stringLiteral name)).append (by decide)

end Language

theorem isInline_commentLine {line written : String} (member : line ∈ textLines written) :
    IsInline (commentLine line) := by
  intro feeds
  have noBreak := isUnbroken_commentLine member '\n' feeds
  cases noBreak

end BuildScribe
