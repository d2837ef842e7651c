import BuildScribe.Proofs.Json.Taken

/-!
# What is taken for a string

A string that is read and a string that is skipped are both texts of strings. The reader
takes an escaped surrogate pair at once, the skipper takes its two escapes one by one.
-/

namespace BuildScribe

/-- From wherever it starts, the token is made of a part of the shape, and of the same
part whatever is left behind it. -/
def IsToken {α : Type} (shape : List Char → Prop)
    (token : Cursor → Except TokenFault (α × Cursor)) : Prop :=
  ∀ cursor value next, token cursor = .ok (value, next) →
    ∃ taken, shape taken ∧ cursor.rest = taken ++ next.rest ∧
      ∀ behind, token ⟨taken ++ behind, cursor.offset⟩ =
        .ok (value, ⟨behind, next.offset⟩)

theorem fourHexDigits_isToken : IsToken FourHexText fourHexDigits := by
  intro cursor value next read
  obtain ⟨text, offset⟩ := cursor
  unfold fourHexDigits at read
  split at read
  · next a b c d rest split =>
    dsimp only at split
    subst split
    dsimp only at read
    split at read
    · next first second third fourth isFirst isSecond isThird isFourth =>
      cases read
      refine ⟨[a, b, c, d], ⟨rfl, by simp [*]⟩, rfl, ?_⟩
      intro behind
      simp [fourHexDigits, *]
    · cases read
  · cases read

/-- An escape behind its backslash: with the rest of a string behind it, it is the rest of
a string. -/
def EscapeText (text : List Char) : Prop :=
  ∀ rest, StringTail rest → StringTail ('\\' :: (text ++ rest))

/-- A `\u` escape is read from one group of digits, or from two that are the surrogates of a
pair. -/
theorem unicodeEscape_eq_ok {cursor next : Cursor} {value : Char} :
    unicodeEscape cursor = .ok (value, next) ↔
      (∃ unit, fourHexDigits cursor = .ok (unit, next) ∧
        isTrailingSurrogate unit = false ∧ isLeadingSurrogate unit = false ∧
        value = Char.ofNat unit) ∨
      ∃ unit middle rest second, fourHexDigits cursor = .ok (unit, middle) ∧
        isTrailingSurrogate unit = false ∧ isLeadingSurrogate unit = true ∧
        middle.rest = '\\' :: 'u' :: rest ∧
        fourHexDigits ⟨rest, middle.offset + 2⟩ = .ok (second, next) ∧
        isTrailingSurrogate second = true ∧
        value = Char.ofNat ((unit - 0xd800) * 0x400 + (second - 0xdc00) + 0x10000) := by
  unfold unicodeEscape
  constructor
  · intro read
    cases first : fourHexDigits cursor with
    | error fault =>
        rw [first] at read
        cases read
    | ok found =>
        obtain ⟨unit, middle⟩ := found
        rw [first] at read
        dsimp only [bind, Except.bind] at read
        split at read
        · cases read
        next notTrailing =>
        have notTrailing : isTrailingSurrogate unit = false := by simpa using notTrailing
        split at read
        · next leading =>
          split at read
          any_goals cases read
          next rest pair =>
            cases more : fourHexDigits ⟨rest, middle.offset + 2⟩ with
            | error fault =>
                rw [more] at read
                cases read
            | ok found =>
                obtain ⟨second, last⟩ := found
                rw [more] at read
                dsimp only at read
                split at read
                · next trailing =>
                  simp only [Except.ok.injEq, Prod.mk.injEq] at read
                  obtain ⟨paired, rfl⟩ := read
                  exact .inr ⟨unit, middle, rest, second, rfl, notTrailing, leading, pair,
                    more, trailing, paired.symm⟩
                · cases read
        · next notLeading =>
          cases read
          exact .inl ⟨unit, rfl, notTrailing, by simpa using notLeading, rfl⟩
  · rintro (⟨unit, first, notTrailing, notLeading, rfl⟩ |
      ⟨unit, middle, rest, second, first, notTrailing, leading, pair, more, trailing, paired⟩)
    · simp [first, notTrailing, notLeading, bind, Except.bind]
    · simp [first, notTrailing, leading, pair, more, trailing, paired, bind, Except.bind]

theorem escapeTail_eq_ok {cursor next : Cursor} {value : Char} :
    escapeTail cursor = .ok (value, next) ↔
      (∃ c rest, cursor.rest = c :: rest ∧ simpleEscape? c = some value ∧
        next = ⟨rest, cursor.offset + 1⟩) ∨
      ∃ rest, cursor.rest = 'u' :: rest ∧
        unicodeEscape ⟨rest, cursor.offset + 1⟩ = .ok (value, next) := by
  obtain ⟨text, offset⟩ := cursor
  constructor
  · intro read
    unfold escapeTail at read
    split at read
    · cases read
    next c rest known =>
    split at read
    · next simple =>
      cases read
      exact .inl ⟨c, rest, known, simple, rfl⟩
    · split at read
      · next isUnicode =>
        have isUnicode : c = 'u' := by simpa using isUnicode
        subst isUnicode
        exact .inr ⟨rest, known, read⟩
      · cases read
  · rintro (⟨c, rest, rfl, simple, rfl⟩ | ⟨rest, rfl, unicode⟩)
    · simp [escapeTail, simple]
    · exact unicode

theorem skipEscape_eq_ok {cursor next : Cursor} :
    skipEscape cursor = .ok next ↔
      (∃ c rest, cursor.rest = c :: rest ∧ (simpleEscape? c).isSome ∧
        next = ⟨rest, cursor.offset + 1⟩) ∨
      ∃ rest unit, cursor.rest = 'u' :: rest ∧
        fourHexDigits ⟨rest, cursor.offset + 1⟩ = .ok (unit, next) := by
  obtain ⟨text, offset⟩ := cursor
  constructor
  · intro read
    unfold skipEscape at read
    split at read
    · cases read
    next c rest known =>
    split at read
    · next simple =>
      cases read
      exact .inl ⟨c, rest, known, simple, rfl⟩
    · split at read
      · next isUnicode =>
        have isUnicode : c = 'u' := by simpa using isUnicode
        subst isUnicode
        cases hex : fourHexDigits ⟨rest, offset + 1⟩ with
        | error fault =>
            rw [hex] at read
            cases read
        | ok found =>
            rw [hex] at read
            cases read
            exact .inr ⟨rest, found.1, known, hex⟩
      · cases read
  · rintro (⟨c, rest, rfl, simple, rfl⟩ | ⟨rest, unit, rfl, hex⟩)
    · simp [skipEscape, simple]
    · exact congrArg (Except.map (·.2)) hex

/-- The character stands for itself in a string. -/
def IsPlain (c : Char) : Prop :=
  c ≠ '"' ∧ c ≠ '\\' ∧ 0x20 ≤ c.toNat

/-- A step in a string meets its closing quote, an escape or a plain character. -/
theorem stringTail_succ_eq_ok {steps : Nat} {done text : List Char} {cursor next : Cursor} :
    stringTail (steps + 1) done cursor = .ok (text, next) ↔
      (∃ rest, cursor.rest = '"' :: rest ∧ text = done.reverse ∧
        next = ⟨rest, cursor.offset + 1⟩) ∨
      (∃ rest plain middle, cursor.rest = '\\' :: rest ∧
        escapeTail ⟨rest, cursor.offset + 1⟩ = .ok (plain, middle) ∧
        stringTail steps (plain :: done) middle = .ok (text, next)) ∨
      ∃ c rest, cursor.rest = c :: rest ∧ IsPlain c ∧
        stringTail steps (c :: done) ⟨rest, cursor.offset + c.utf8Size⟩ =
          .ok (text, next) := by
  obtain ⟨remaining, offset⟩ := cursor
  constructor
  · intro read
    unfold stringTail at read
    split at read
    · cases read
    next c rest known =>
    dsimp only at known
    subst known
    split at read
    · next quote =>
      have quote : c = '"' := by simpa using quote
      subst quote
      cases read
      exact .inl ⟨rest, rfl, rfl, rfl⟩
    next notQuote =>
    split at read
    · next backslash =>
      have backslash : c = '\\' := by simpa using backslash
      subst backslash
      split at read
      · next plain middle escape => exact .inr (.inl ⟨rest, plain, middle, rfl, escape, read⟩)
      · cases read
    next notBackslash =>
    split at read
    · cases read
    next printable =>
    have plain : IsPlain c :=
      ⟨by simpa using notQuote, by simpa using notBackslash, Nat.le_of_not_lt printable⟩
    exact .inr (.inr ⟨c, rest, rfl, plain, read⟩)
  · rintro (⟨rest, rfl, rfl, rfl⟩ | ⟨rest, plain, middle, rfl, escape, onward⟩ |
      ⟨c, rest, rfl, ⟨notQuote, notBackslash, printable⟩, onward⟩)
    · rfl
    · simpa [stringTail, escape] using onward
    · simpa [stringTail, notQuote, notBackslash, Nat.not_lt.mpr printable] using onward

theorem skipStringTail_succ_eq_ok {steps : Nat} {cursor next : Cursor} :
    skipStringTail (steps + 1) cursor = .ok next ↔
      (∃ rest, cursor.rest = '"' :: rest ∧ next = ⟨rest, cursor.offset + 1⟩) ∨
      (∃ rest middle, cursor.rest = '\\' :: rest ∧
        skipEscape ⟨rest, cursor.offset + 1⟩ = .ok middle ∧
        skipStringTail steps middle = .ok next) ∨
      ∃ c rest, cursor.rest = c :: rest ∧ IsPlain c ∧
        skipStringTail steps ⟨rest, cursor.offset + c.utf8Size⟩ = .ok next := by
  obtain ⟨remaining, offset⟩ := cursor
  constructor
  · intro read
    unfold skipStringTail at read
    split at read
    · cases read
    next c rest known =>
    dsimp only at known
    subst known
    split at read
    · next quote =>
      have quote : c = '"' := by simpa using quote
      subst quote
      cases read
      exact .inl ⟨rest, rfl, rfl⟩
    next notQuote =>
    split at read
    · next backslash =>
      have backslash : c = '\\' := by simpa using backslash
      subst backslash
      split at read
      · next middle escape => exact .inr (.inl ⟨rest, middle, rfl, escape, read⟩)
      · cases read
    next notBackslash =>
    split at read
    · cases read
    next printable =>
    have plain : IsPlain c :=
      ⟨by simpa using notQuote, by simpa using notBackslash, Nat.le_of_not_lt printable⟩
    exact .inr (.inr ⟨c, rest, rfl, plain, read⟩)
  · rintro (⟨rest, rfl, rfl⟩ | ⟨rest, middle, rfl, escape, onward⟩ |
      ⟨c, rest, rfl, ⟨notQuote, notBackslash, printable⟩, onward⟩)
    · rfl
    · simpa [skipStringTail, escape] using onward
    · simpa [skipStringTail, notQuote, notBackslash, Nat.not_lt.mpr printable] using onward

theorem unicodeEscape_isToken :
    IsToken (fun taken => EscapeText ('u' :: taken)) unicodeEscape := by
  intro cursor value next read
  rcases unicodeEscape_eq_ok.mp read with ⟨unit, hex, alone⟩ |
    ⟨unit, middle, rest, second, hex, notTrailing, leading, pair, more, paired⟩
  · obtain ⟨digits, isHex, split, again⟩ := fourHexDigits_isToken cursor unit next hex
    refine ⟨digits, fun rest => .unicode isHex, split, ?_⟩
    exact fun behind => unicodeEscape_eq_ok.mpr (.inl ⟨unit, again behind, alone⟩)
  · obtain ⟨digits, isHex, split, again⟩ := fourHexDigits_isToken cursor unit middle hex
    obtain ⟨others, areHex, onward, anew⟩ := fourHexDigits_isToken _ second next more
    dsimp only at onward
    subst onward
    refine ⟨digits ++ '\\' :: 'u' :: others, ?_, by simp [split, pair], ?_⟩
    · intro behind onBehind
      rw [List.cons_append, List.append_assoc]
      exact .unicode isHex (.unicode areHex onBehind)
    · intro behind
      rw [List.append_assoc]
      exact unicodeEscape_eq_ok.mpr (.inr ⟨unit, _, _, second, again _, notTrailing,
        leading, rfl, anew behind, paired⟩)

theorem escapeTail_isToken : IsToken EscapeText escapeTail := by
  intro ⟨text, offset⟩ value next read
  rcases escapeTail_eq_ok.mp read with ⟨c, rest, rfl, simple, rfl⟩ | ⟨rest, rfl, unicode⟩
  · refine ⟨[c], fun rest => .escaped (by simp [simple]), rfl, ?_⟩
    exact fun behind => escapeTail_eq_ok.mpr (.inl ⟨c, behind, rfl, simple, rfl⟩)
  · obtain ⟨taken, isEscape, split, again⟩ := unicodeEscape_isToken _ value next unicode
    refine ⟨'u' :: taken, isEscape, congrArg ('u' :: ·) split, ?_⟩
    exact fun behind => escapeTail_eq_ok.mpr (.inr ⟨_, rfl, again behind⟩)

/-- Each step takes a character, so a string is read in as many steps as its text has
characters. -/
theorem stringTail_takes {steps : Nat} {done text : List Char} {cursor next : Cursor}
    (read : stringTail steps done cursor = .ok (text, next)) :
    ∃ taken, StringTail taken ∧ cursor.rest = taken ++ next.rest ∧
      ∀ behind more, taken.length ≤ more →
        stringTail more done ⟨taken ++ behind, cursor.offset⟩ =
          .ok (text, ⟨behind, next.offset⟩) := by
  induction steps generalizing done cursor with
  | zero => cases read
  | succ steps ih =>
      obtain ⟨rest, offset⟩ := cursor
      rcases stringTail_succ_eq_ok.mp read with ⟨rest, rfl, rfl, rfl⟩ |
        ⟨rest, plain, middle, rfl, escape, onward⟩ | ⟨c, rest, rfl, plain, onward⟩
      · refine ⟨['"'], .close, rfl, ?_⟩
        rintro behind (_ | more) enough
        · cases enough
        · rfl
      · obtain ⟨escaped, isEscape, split, again⟩ := escapeTail_isToken _ plain middle escape
        obtain ⟨taken, isTail, remaining, anew⟩ := ih onward
        dsimp only at split
        refine ⟨'\\' :: (escaped ++ taken), isEscape taken isTail, ?_, ?_⟩
        · simp [split, remaining]
        · rintro behind (_ | more) enough
          · cases enough
          · have enough : taken.length ≤ more := by
              simp only [List.length_cons, List.length_append] at enough
              omega
            rw [List.cons_append, List.append_assoc]
            exact stringTail_succ_eq_ok.mpr (.inr (.inl ⟨_, plain, _, rfl, again _,
              anew behind more enough⟩))
      · obtain ⟨taken, isTail, remaining, anew⟩ := ih onward
        refine ⟨c :: taken, .plain plain.1 plain.2.1 plain.2.2 isTail,
          congrArg (c :: ·) remaining, ?_⟩
        rintro behind (_ | more) enough
        · cases enough
        · have enough : taken.length ≤ more := Nat.le_of_succ_le_succ enough
          exact stringTail_succ_eq_ok.mpr (.inr (.inr ⟨c, _, rfl, plain,
            anew behind more enough⟩))

/-- What is passed as an escape is one, whatever is left behind it. -/
theorem skipEscape_takes {cursor next : Cursor} (read : skipEscape cursor = .ok next) :
    ∃ taken, EscapeText taken ∧ cursor.rest = taken ++ next.rest ∧
      ∀ behind, skipEscape ⟨taken ++ behind, cursor.offset⟩ =
        .ok ⟨behind, next.offset⟩ := by
  obtain ⟨text, offset⟩ := cursor
  rcases skipEscape_eq_ok.mp read with ⟨c, rest, rfl, simple, rfl⟩ | ⟨rest, unit, rfl, hex⟩
  · refine ⟨[c], fun rest => .escaped simple, rfl, ?_⟩
    exact fun behind => skipEscape_eq_ok.mpr (.inl ⟨c, behind, rfl, simple, rfl⟩)
  · obtain ⟨digits, isHex, split, again⟩ := fourHexDigits_isToken _ unit next hex
    refine ⟨'u' :: digits, fun rest => .unicode isHex, congrArg ('u' :: ·) split, ?_⟩
    exact fun behind => skipEscape_eq_ok.mpr (.inr ⟨_, unit, rfl, again behind⟩)

theorem skipStringTail_takes {steps : Nat} {cursor next : Cursor}
    (read : skipStringTail steps cursor = .ok next) :
    ∃ taken, StringTail taken ∧ cursor.rest = taken ++ next.rest ∧
      ∀ behind more, taken.length ≤ more →
        skipStringTail more ⟨taken ++ behind, cursor.offset⟩ =
          .ok ⟨behind, next.offset⟩ := by
  induction steps generalizing cursor with
  | zero => cases read
  | succ steps ih =>
      obtain ⟨rest, offset⟩ := cursor
      rcases skipStringTail_succ_eq_ok.mp read with ⟨rest, rfl, rfl⟩ |
        ⟨rest, middle, rfl, escape, onward⟩ | ⟨c, rest, rfl, plain, onward⟩
      · refine ⟨['"'], .close, rfl, ?_⟩
        rintro behind (_ | more) enough
        · cases enough
        · rfl
      · obtain ⟨escaped, isEscape, split, again⟩ := skipEscape_takes escape
        obtain ⟨taken, isTail, remaining, anew⟩ := ih onward
        dsimp only at split
        refine ⟨'\\' :: (escaped ++ taken), isEscape taken isTail, ?_, ?_⟩
        · simp [split, remaining]
        · rintro behind (_ | more) enough
          · cases enough
          · have enough : taken.length ≤ more := by
              simp only [List.length_cons, List.length_append] at enough
              omega
            rw [List.cons_append, List.append_assoc]
            exact skipStringTail_succ_eq_ok.mpr (.inr (.inl ⟨_, _, rfl, again _,
              anew behind more enough⟩))
      · obtain ⟨taken, isTail, remaining, anew⟩ := ih onward
        refine ⟨c :: taken, .plain plain.1 plain.2.1 plain.2.2 isTail,
          congrArg (c :: ·) remaining, ?_⟩
        rintro behind (_ | more) enough
        · cases enough
        · have enough : taken.length ≤ more := Nat.le_of_succ_le_succ enough
          exact skipStringTail_succ_eq_ok.mpr (.inr (.inr ⟨c, _, rfl, plain,
            anew behind more enough⟩))

namespace Reading

/-- A string with both its quotes. -/
def QuotedText (text : List Char) : Prop :=
  ∃ tail, text = '"' :: tail ∧ StringTail tail

theorem string_takes {cursor : Cursor} (quote : cursor.rest.head? = some '"') :
    string.TakesAt (fun _ => QuotedText) cursor := by
  apply TakesAt.advance quote
  intro middle value next read
  dsimp only at read
  cases found : stringTail (middle.rest.length + 1) [] middle with
  | error fault =>
      rw [found] at read
      cases read
  | ok known =>
      obtain ⟨text, last⟩ := known
      rw [found] at read
      cases read
      obtain ⟨taken, isTail, split, again⟩ := stringTail_takes found
      refine ⟨taken, ⟨taken, rfl, isTail⟩, split, ?_⟩
      intro behind _
      dsimp only
      rw [again behind _ (by rw [List.length_append]; omega)]

theorem skipString_takes {cursor : Cursor} (quote : cursor.rest.head? = some '"') :
    skipString.TakesAt (fun _ => QuotedText) cursor := by
  apply TakesAt.advance quote
  intro middle value next read
  dsimp only at read
  cases found : skipStringTail (middle.rest.length + 1) middle with
  | error fault =>
      rw [found] at read
      cases read
  | ok last =>
      rw [found] at read
      cases read
      obtain ⟨taken, isTail, split, again⟩ := skipStringTail_takes found
      refine ⟨taken, ⟨taken, rfl, isTail⟩, split, ?_⟩
      intro behind _
      dsimp only
      rw [again behind _ (by rw [List.length_append]; omega)]

end Reading

end BuildScribe
