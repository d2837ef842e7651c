import BuildScribe.Target.Spelling

/-!
# Reading string literals

A literal is read from its opening quote on, and a backslash escapes the character
behind it. The spellings of characters form a prefix code, in which the closing quote
has no place. So a literal ends at its own closing quote whatever stands behind it,
and no two strings have the same literal.
-/

namespace BuildScribe

/-- What a backslash makes of the character behind it. -/
def escapedChar : Char → Char
  | 'n' => '\n'
  | 'r' => '\r'
  | 't' => '\t'
  | c => c

/-- Whether an escape is still open where a text ends. A backslash opens one unless it
is escaped itself. -/
def endsWithinEscape (text : List Char) : Bool :=
  text.foldl (fun isOpen c => !isOpen && c == '\\') false

/-- Behind a text without an open escape, escapes are those of the rest. -/
theorem endsWithinEscape_append {first : List Char} (closed : endsWithinEscape first = false)
    (second : List Char) :
    endsWithinEscape (first ++ second) = endsWithinEscape second := by
  unfold endsWithinEscape at closed ⊢
  rw [List.foldl_append, closed]

namespace Language

/-- A character that stands in a literal as it is. -/
structure IsPlain (language : Language) (c : Char) : Prop where
  ne_backslash : c ≠ '\\'
  ne_quote : c ≠ language.quote
  ne_dollar : language = kotlin → c ≠ '$'
  ne_lineFeed : c ≠ '\n'
  ne_return : c ≠ '\r'
  ne_tab : c ≠ '\t'

/-- How a character may be spelled in a literal: plainly, or by an escape that stands
for it and has no line break or tab. -/
inductive Spells (language : Language) (c : Char) : List Char → Prop where
  | plain : language.IsPlain c → Spells language c [c]
  | escape (mark : Char) :
      escapedChar mark = c → mark ∉ ['\n', '\r', '\t'] → Spells language c ['\\', mark]

theorem quote_notMem_breaks (language : Language) : language.quote ∉ ['\n', '\r', '\t'] := by
  cases language <;> decide

theorem escapedChar_quote (language : Language) :
    escapedChar language.quote = language.quote := by
  cases language <;> rfl

theorem quote_ne_backslash (language : Language) : language.quote ≠ '\\' := by
  cases language <;> decide

theorem spells_literalChar (language : Language) (c : Char) :
    language.Spells c (language.literalChar c) := by
  fun_cases literalChar language c with
  | case1 isBackslash => exact .escape '\\' (eq_of_beq isBackslash).symm (by decide)
  | case2 _ isQuote =>
      obtain rfl := eq_of_beq isQuote
      exact .escape _ language.escapedChar_quote language.quote_notMem_breaks
  | case3 _ _ isDollar =>
      rw [Bool.and_eq_true] at isDollar
      exact .escape '$' (eq_of_beq isDollar.1).symm (by decide)
  | case4 _ _ _ isLineFeed => exact .escape 'n' (eq_of_beq isLineFeed).symm (by decide)
  | case5 _ _ _ _ isReturn => exact .escape 'r' (eq_of_beq isReturn).symm (by decide)
  | case6 _ _ _ _ _ isTab => exact .escape 't' (eq_of_beq isTab).symm (by decide)
  | case7 notBackslash notQuote notDollar notLineFeed notReturn notTab =>
      have dollarPlain : language = kotlin → c ≠ '$' := by
        rintro rfl rfl
        exact notDollar rfl
      exact .plain ⟨ne_of_beq_false (Bool.eq_false_iff.mpr notBackslash),
        ne_of_beq_false (Bool.eq_false_iff.mpr notQuote), dollarPlain,
        ne_of_beq_false (Bool.eq_false_iff.mpr notLineFeed),
        ne_of_beq_false (Bool.eq_false_iff.mpr notReturn),
        ne_of_beq_false (Bool.eq_false_iff.mpr notTab)⟩

namespace Spells

variable {language : Language} {c d : Char} {written other : List Char}

/-- The spellings of characters form a prefix code. -/
theorem append_inj (spelled : language.Spells c written) (otherwise : language.Spells d other)
    {x y : List Char} (same : written ++ x = other ++ y) : c = d ∧ x = y := by
  cases spelled with
  | plain isPlain =>
      cases otherwise with
      | plain _ => simpa using same
      | escape mark _ _ => exact absurd (List.cons.inj same).1 isPlain.ne_backslash
  | escape mark stands _ =>
      cases otherwise with
      | plain isPlain => exact absurd (List.cons.inj same).1.symm isPlain.ne_backslash
      | escape _ otherStands _ =>
          obtain ⟨rfl, rfl⟩ : mark = _ ∧ x = y := by simpa using same
          exact ⟨stands.symm.trans otherStands, rfl⟩

/-- No spelling begins with the closing quote. -/
theorem append_ne_quote (spelled : language.Spells c written) (x y : List Char) :
    written ++ x ≠ language.quote :: y := by
  intro same
  cases spelled with
  | plain isPlain => exact isPlain.ne_quote (List.cons.inj same).1
  | escape => exact language.quote_ne_backslash (List.cons.inj same).1.symm

/-- A spelling leaves no escape open. -/
theorem endsWithinEscape_eq (spelled : language.Spells c written) :
    endsWithinEscape written = false := by
  cases spelled with
  | plain isPlain => simpa [endsWithinEscape] using isPlain.ne_backslash
  | escape => simp [endsWithinEscape]

end Spells

/-- What may stand in a literal behind the given text: no line break and no tab, and a
quote only behind a backslash, as in Kotlin a dollar sign. -/
structure Admits (language : Language) (before : List Char) (c : Char) : Prop where
  unbroken : c ∉ ['\n', '\r', '\t']
  quote_escaped : c = language.quote → endsWithinEscape before = true
  dollar_escaped : language = kotlin → c = '$' → endsWithinEscape before = true

/-- A text without an open escape in front changes nothing. -/
theorem Admits.behind {language : Language} {before : List Char} {c : Char}
    (admits : language.Admits before c) {front : List Char}
    (closed : endsWithinEscape front = false) : language.Admits (front ++ before) c := by
  have same := endsWithinEscape_append closed before
  constructor
  · exact admits.unbroken
  · exact fun isQuote => same.trans (admits.quote_escaped isQuote)
  · exact fun inKotlin isDollar => same.trans (admits.dollar_escaped inKotlin isDollar)

theorem Spells.admits {language : Language} {c d : Char} {written before after : List Char}
    (spelled : language.Spells c written) (here : written = before ++ d :: after) :
    language.Admits before d := by
  cases spelled with
  | plain isPlain =>
      obtain ⟨rfl, rfl⟩ : before = [] ∧ d = c := by
        cases before <;> simp_all
      refine ⟨?_, fun isQuote => absurd isQuote isPlain.ne_quote,
        fun inKotlin isDollar => absurd isDollar (isPlain.ne_dollar inKotlin)⟩
      simp [isPlain.ne_lineFeed, isPlain.ne_return, isPlain.ne_tab]
  | escape mark _ unbroken =>
      cases before with
      | nil =>
          obtain ⟨rfl, _⟩ := List.cons.inj here
          exact ⟨by decide, fun isQuote => absurd isQuote.symm language.quote_ne_backslash,
            fun _ impossible => absurd impossible (by decide)⟩
      | cons first others =>
          obtain ⟨rfl, onOthers⟩ := List.cons.inj here
          cases others with
          | nil =>
              obtain ⟨rfl, _⟩ := List.cons.inj onOthers
              exact ⟨unbroken, fun _ => rfl, fun _ _ => rfl⟩
          | cons second further => simp at onOthers

variable (language : Language)

theorem endsWithinEscape_flatMap (value : List Char) :
    endsWithinEscape (value.flatMap language.literalChar) = false := by
  induction value with
  | nil => rfl
  | cons c rest ih =>
      have closed := (language.spells_literalChar c).endsWithinEscape_eq
      rw [List.flatMap_cons, endsWithinEscape_append closed]
      exact ih

theorem admits_flatMap {value before after : List Char} {d : Char}
    (here : value.flatMap language.literalChar = before ++ d :: after) :
    language.Admits before d := by
  induction value generalizing before with
  | nil => simp at here
  | cons c rest ih =>
      have spelled := language.spells_literalChar c
      rw [List.flatMap_cons] at here
      rcases List.append_eq_append_iff.mp here with
        ⟨further, rfl, onRest⟩ | ⟨further, onFirst, onAfter⟩
      · exact (ih onRest).behind spelled.endsWithinEscape_eq
      · cases further with
        | nil =>
            have behindFirst := (@ih [] onAfter.symm).behind spelled.endsWithinEscape_eq
            rwa [onFirst, List.append_nil, List.append_nil] at behindFirst
        | cons first others =>
            obtain ⟨rfl, _⟩ := List.cons.inj onAfter
            exact spelled.admits onFirst

/-- Up to the closing quote, the spelled characters tell the string. -/
theorem flatMap_literalChar_inj {a b x y : List Char}
    (same : a.flatMap language.literalChar ++ language.quote :: x =
      b.flatMap language.literalChar ++ language.quote :: y) : a = b ∧ x = y := by
  induction a generalizing b with
  | nil =>
      cases b with
      | nil => simpa using same
      | cons d others =>
          rw [List.flatMap_nil, List.nil_append, List.flatMap_cons, List.append_assoc] at same
          exact absurd same.symm ((language.spells_literalChar d).append_ne_quote _ _)
  | cons c rest ih =>
      rw [List.flatMap_cons, List.append_assoc] at same
      cases b with
      | nil => exact absurd same ((language.spells_literalChar c).append_ne_quote _ _)
      | cons d others =>
          rw [List.flatMap_cons, List.append_assoc] at same
          obtain ⟨rfl, sameRest⟩ :=
            (language.spells_literalChar c).append_inj (language.spells_literalChar d) same
          obtain ⟨rfl, sameText⟩ := ih sameRest
          exact ⟨rfl, sameText⟩

/-- A literal ends at its own closing quote, whatever stands behind it. -/
theorem literalChars_append_inj {a b x y : List Char}
    (same : language.literalChars a ++ x = language.literalChars b ++ y) : a = b ∧ x = y := by
  apply language.flatMap_literalChar_inj
  simpa [literalChars] using same

/-- A string can be read off the front of a text that begins with its literal in one way
only. Between its quotes a literal has no line break and no tab, every quote is escaped,
in Kotlin every dollar sign as well, and the closing quote is not escaped. -/
theorem stringLiteral_uniquely_readable (language : Language) :
    (∀ a b x y : String,
      language.stringLiteral a ++ x = language.stringLiteral b ++ y ↔ a = b ∧ x = y) ∧
    ∀ value : String, ∃ body : List Char,
      (language.stringLiteral value).toList = language.quote :: (body ++ [language.quote]) ∧
      (∀ c ∈ (language.stringLiteral value).toList, c ∉ ['\n', '\r', '\t']) ∧
      endsWithinEscape (language.quote :: body) = false ∧
      ∀ before c after, body = before ++ c :: after →
        (c = language.quote → endsWithinEscape (language.quote :: before) = true) ∧
        (language = kotlin → c = '$' →
          endsWithinEscape (language.quote :: before) = true) := by
  constructor
  · intro a b x y
    constructor
    · intro same
      have sameChars := congrArg String.toList same
      simp only [stringLiteral, String.toList_append, String.toList_ofList] at sameChars
      obtain ⟨sameValue, sameText⟩ := language.literalChars_append_inj sameChars
      exact ⟨String.toList_injective sameValue, String.toList_injective sameText⟩
    · rintro ⟨rfl, rfl⟩
      rfl
  · intro value
    have opened : endsWithinEscape [language.quote] = false := by
      simpa [endsWithinEscape] using language.quote_ne_backslash
    have literal : (language.stringLiteral value).toList =
        language.quote :: (value.toList.flatMap language.literalChar ++ [language.quote]) := by
      rw [stringLiteral, String.toList_ofList, literalChars]
    refine ⟨value.toList.flatMap language.literalChar, literal, ?_, ?_, ?_⟩
    · intro c member
      rw [literal, List.mem_cons, List.mem_append, List.mem_singleton] at member
      rcases member with rfl | inside | rfl
      · exact language.quote_notMem_breaks
      · obtain ⟨before, after, here⟩ := List.append_of_mem inside
        exact (language.admits_flatMap here).unbroken
      · exact language.quote_notMem_breaks
    · exact (endsWithinEscape_append opened _).trans
        (language.endsWithinEscape_flatMap value.toList)
    · intro before c after here
      have admitted := (language.admits_flatMap here).behind opened
      exact ⟨admitted.quote_escaped, admitted.dollar_escaped⟩

/-- A backslash at the end of a string does not escape the closing quote. -/
theorem literal_of_trailing_backslash :
    kotlin.stringLiteral "$\\" ++ "\"" ≠ kotlin.stringLiteral "$\\\"" ++ "" := by
  intro same
  have sameValue := ((stringLiteral_uniquely_readable kotlin).1 "$\\" "$\\\"" "\"" "").mp same
  exact absurd sameValue.1 (by decide)

end Language

end BuildScribe
