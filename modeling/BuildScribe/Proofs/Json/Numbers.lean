import BuildScribe.Proofs.Json.Taken

/-!
# What is taken for a number

A number that is read and a number that is skipped are both texts of numbers.
-/

namespace BuildScribe

theorem isDigitText_takeWhile {text : List Char} {c : Char} (head : text.head? = some c)
    (digit : isDigit c = true) : IsDigitText (text.takeWhile isDigit) := by
  refine ⟨?_, Reading.passes_takeWhile isDigit text⟩
  cases text with
  | nil => cases head
  | cons first rest =>
      cases head
      simp [digit]

theorem wholeText_takeWhile {text : List Char} {c : Char} (head : text.head? = some c)
    (digit : isDigit c = true) (nonzero : ¬(c == '0') = true) :
    WholeText (text.takeWhile isDigit) := by
  apply WholeText.digits (isDigitText_takeWhile head digit)
  cases text with
  | nil => cases head
  | cons first rest =>
      cases head
      simpa [digit] using nonzero

namespace Reading

/-- What is made of something that was read: a value that is known by now, or a fault,
wherever the reading of it began. -/
def Settles {β : Type} (finish : Cursor → Reading β) : Prop :=
  (∃ value, ∀ noted, finish noted = pure value) ∨
    ∀ noted place value next, ¬finish noted place = .ok value next

namespace Settles

variable {β : Type}

theorem value (value : β) : Settles fun _ => pure value :=
  .inl ⟨value, fun _ => rfl⟩

theorem ite {condition : Prop} [Decidable condition] {first second : Cursor → Reading β}
    (onFirst : Settles first) (onSecond : Settles second) :
    Settles fun noted => if condition then first noted else second noted := by
  by_cases holds : condition
  · simpa [holds] using onFirst
  · simpa [holds] using onSecond

theorem scaledNumber (negative : Bool) (significand : Nat) (scale : Int) :
    Settles fun _ => Reading.scaledNumber negative significand scale := by
  unfold Reading.scaledNumber
  split
  · exact value _
  · exact .inr fun _ _ _ _ => failHere_ne_ok

/-- The reading goes back to where it began to place its fault. -/
theorem failFrom (bytes : Nat) (fault : TextFault) :
    Settles fun noted => (do set noted; failAfter bytes fault : Reading β) :=
  .inr fun _ _ _ _ read => failAfter_ne_ok read

theorem takesAt {finish : Cursor → Reading β} (settles : Settles finish) (noted : Cursor)
    {shape : β → List Char → Prop} {cursor : Cursor}
    (shaped : ∀ value, shape value []) : (finish noted).TakesAt shape cursor := by
  rcases settles with ⟨value, settled⟩ | fails
  · rw [settled]
    exact .pure (shaped value)
  · exact .ofFails (fails noted cursor)

theorem regardless {finish : Cursor → Reading β} (settles : Settles finish)
    {noted place next : Cursor} (other : Cursor) {value : β}
    (read : finish noted place = .ok value next) : finish other place = .ok value next := by
  rcases settles with ⟨known, settled⟩ | fails
  · rwa [settled] at read ⊢
  · exact (fails noted place value next read).elim

end Settles

/-- Digits that must be there, and what is made of them. -/
theorem digits_takes {β : Type} {finish : Cursor → List Char → Reading β}
    (settles : ∀ digits, Settles fun noted => finish noted digits) :
    (do
      match ← peek with
      | none => failHere .endInValue
      | some c =>
          if !isDigit c then
            failAfter 1 .invalidNumber
          else
            let noted ← get
            let digits ← takeAscii isDigit
            finish noted digits : Reading β).Takes fun _ => IsDigitText := by
  intro cursor
  apply TakesAt.peek
  cases head : cursor.rest.head? with
  | none => exact .failHere _
  | some c =>
      dsimp only
      split
      · exact .failAfter _ _
      · next digit =>
        apply TakesAt.get
        · apply TakesAt.takeAscii
          rintro _ middle rfl
          apply (settles _).takesAt cursor
          intro value
          rw [List.append_nil]
          exact isDigitText_takeWhile head (by simpa using digit)
        · intro noted other place value next read
          obtain ⟨digits, middle, gathered, ended⟩ := bind_eq_ok.mp read
          rw [bind_of_ok gathered]
          exact (settles digits).regardless other ended

theorem exists_head?_of_beq {text : List Char} {first second : Char}
    (next : (text.head? == some first || text.head? == some second) = true) :
    ∃ c, text.head? = some c ∧ c ∈ [first, second] := by
  rcases Bool.or_eq_true_iff.mp next with isFirst | isSecond
  · exact ⟨first, by simpa using isFirst, by simp⟩
  · exact ⟨second, by simpa using isSecond, by simp⟩

theorem exponentPart_takes (negative : Bool) (significand : Nat) (scale : Int)
    {cursor : Cursor}
    (next : (cursor.rest.head? == some 'e' || cursor.rest.head? == some 'E') = true) :
    (exponentPart negative significand scale).TakesAt (fun _ => ExponentText) cursor := by
  obtain ⟨c, head, letter⟩ := exists_head?_of_beq next
  have behindSign (sign : List Char) {reading : Reading JsonNumber} {place : Cursor}
      (isSign : sign ∈ [[], ['+'], ['-']]) (onDigits : reading.Takes fun _ => IsDigitText) :
      reading.TakesAt (fun _ taken => ExponentText (c :: (sign ++ taken))) place :=
    (onDigits place).mono fun _ _ digits => .some letter isSign digits
  unfold exponentPart
  apply TakesAt.advance head
  intro behindLetter
  apply TakesAt.peek
  dsimp only
  split
  · next signed =>
    obtain ⟨sign, signHead, isSign⟩ := exists_head?_of_beq signed
    apply TakesAt.advance signHead
    intro _
    refine behindSign [sign] (by simpa using isSign) (digits_takes ?_)
    exact fun digits => .ite (.scaledNumber _ _ _) (.ite (.failFrom _ _) (.value _))
  · refine behindSign [] (by simp) (digits_takes ?_)
    exact fun digits => .ite (.scaledNumber _ _ _) (.ite (.failFrom _ _) (.value _))

/-- What may follow the digits before the point. -/
def RestOfNumber (text : List Char) : Prop :=
  ∃ fraction exponent, text = fraction ++ exponent ∧ FractionText fraction ∧
    ExponentText exponent

theorem fractionPart_takes (negative : Bool) (significand : Nat) (scale : Int)
    {cursor : Cursor} (head : cursor.rest.head? = some '.') :
    (fractionPart negative significand scale).TakesAt (fun _ => RestOfNumber) cursor := by
  apply TakesAt.advance head
  intro behindPoint
  apply TakesAt.takeAscii
  intro digits middle gathered
  dsimp only
  split
  · apply TakesAt.peek
    split
    · exact .failNext _
    · exact .failNext _
  · next present =>
    have fraction : FractionText ('.' :: digits) := by
      refine .some ⟨by simpa using present, ?_⟩
      rw [gathered]
      exact passes_takeWhile isDigit behindPoint.rest
    apply TakesAt.peek
    split
    · next letter =>
      apply (exponentPart_takes negative _ _ letter).mono
      intro _ exponent isExponent
      exact ⟨_, exponent, rfl, fraction, isExponent⟩
    · apply (Settles.scaledNumber _ _ _).takesAt middle
      exact fun _ => ⟨_, [], rfl, fraction, .none⟩

theorem numberTail_takes (negative : Bool) (significand left : Nat) :
    (numberTail negative significand left).Takes fun _ => RestOfNumber := by
  intro cursor
  have ends : RestOfNumber [] := ⟨[], [], rfl, .none, .none⟩
  apply TakesAt.peek
  split
  · next point => exact fractionPart_takes negative _ _ (by simpa using point)
  · split
    · next letter =>
      apply (exponentPart_takes negative significand left letter).mono
      intro _ exponent isExponent
      exact ⟨[], exponent, rfl, .none, isExponent⟩
    · split
      · exact (Settles.scaledNumber _ _ _).takesAt cursor fun _ => ends
      · split
        · exact .pure ends
        · split
          · exact .pure ends
          · exact .pure ends

/-- The text of a number without its sign. -/
def UnsignedText (text : List Char) : Prop :=
  ∃ whole rest, text = whole ++ rest ∧ WholeText whole ∧ RestOfNumber rest

theorem unsignedNumber_takes (negative : Bool) :
    (unsignedNumber negative).Takes fun _ => UnsignedText := by
  intro cursor
  apply TakesAt.peek
  cases head : cursor.rest.head? with
  | none => exact .failHere _
  | some c =>
      dsimp only
      split
      · next zero =>
        have head : cursor.rest.head? = some '0' := by simpa [head] using zero
        have behindZero {place : Cursor} :
            (numberTail negative 0 0).TakesAt (fun _ taken => UnsignedText ('0' :: taken))
              place :=
          (numberTail_takes negative 0 0 place).mono fun _ taken ends =>
            ⟨['0'], taken, rfl, .zero, ends⟩
        apply TakesAt.advance head
        intro middle
        apply TakesAt.peek
        split
        · split
          · exact .failNext _
          · exact behindZero
        · exact behindZero
      · next nonzero =>
        split
        · next digit =>
          apply TakesAt.takeAscii
          rintro digits middle rfl
          apply (numberTail_takes negative _ _ middle).mono
          intro _ taken ends
          exact ⟨_, taken, rfl, wholeText_takeWhile head digit nonzero, ends⟩
        · exact .failAfter _ _

theorem UnsignedText.numberText {text : List Char} (sign : List Char)
    (isSign : sign ∈ [[], ['-']]) (unsigned : UnsignedText text) :
    NumberText (sign ++ text) := by
  obtain ⟨whole, _, rfl, isWhole, fraction, exponent, rfl, isFraction, isExponent⟩ :=
    unsigned
  exact .number isSign isWhole isFraction isExponent

theorem number_takes : number.Takes fun _ => NumberText := by
  intro cursor
  apply TakesAt.peek
  split
  · next minus =>
    apply TakesAt.advance (c := '-') (by simpa using minus)
    intro middle
    apply (unsignedNumber_takes true _).mono
    exact fun _ _ unsigned => unsigned.numberText ['-'] (by simp)
  · apply (unsignedNumber_takes false cursor).mono
    exact fun _ _ unsigned => unsigned.numberText [] (by simp)

theorem skipExponent_takes {cursor : Cursor}
    (next : (cursor.rest.head? == some 'e' || cursor.rest.head? == some 'E') = true) :
    skipExponent.TakesAt (fun _ => ExponentText) cursor := by
  obtain ⟨c, head, letter⟩ := exists_head?_of_beq next
  have digits (place : Cursor) (sign : List Char) (isSign : sign ∈ [[], ['+'], ['-']]) :
      (do
        match ← peek with
        | none => failHere .invalidNumber
        | some c =>
            if isDigit c then
              let _ ← takeAscii isDigit
            else
              failAfter 1 .invalidNumber : Reading Unit).TakesAt
        (fun _ taken => ExponentText (c :: (sign ++ taken))) place := by
    apply TakesAt.peek
    cases digitHead : place.rest.head? with
    | none => exact .failHere _
    | some digit =>
        dsimp only
        split
        · next isDigit =>
          apply TakesAt.takeAscii
          rintro _ middle rfl
          apply TakesAt.pure
          rw [List.append_nil]
          exact .some letter isSign (isDigitText_takeWhile digitHead isDigit)
        · exact .failAfter _ _
  unfold skipExponent
  apply TakesAt.advance head
  intro behindLetter
  apply TakesAt.peek
  dsimp only
  split
  · next signed =>
    obtain ⟨sign, signHead, isSign⟩ := exists_head?_of_beq signed
    apply TakesAt.advance signHead
    intro middle
    exact digits middle [sign] (by simpa using isSign)
  · exact digits behindLetter [] (by simp)

theorem skipNumberTail_takes : skipNumberTail.Takes fun _ => RestOfNumber := by
  intro cursor
  have exponent (place : Cursor) (fraction : List Char) (isFraction : FractionText fraction) :
      (do
        let next ← peek
        if next == some 'e' || next == some 'E' then
          skipExponent : Reading Unit).TakesAt
        (fun _ taken => RestOfNumber (fraction ++ taken)) place := by
    apply TakesAt.peek
    split
    · next letter =>
      apply (skipExponent_takes letter).mono
      intro _ exponent isExponent
      exact ⟨fraction, exponent, rfl, isFraction, isExponent⟩
    · exact .pure ⟨fraction, [], rfl, isFraction, .none⟩
  unfold skipNumberTail
  apply TakesAt.peek
  dsimp only
  split
  · next point =>
    apply TakesAt.advance (c := '.') (by simpa using point)
    intro behindPoint
    apply TakesAt.takeAscii
    intro digits middle gathered
    split
    · exact .ofFails fun _ _ read => by
        obtain ⟨_, _, failed, _⟩ := bind_eq_ok.mp read
        exact failNext_ne_ok failed
    · next present =>
      apply exponent middle ('.' :: digits)
      refine .some ⟨by simpa using present, ?_⟩
      rw [gathered]
      exact passes_takeWhile isDigit behindPoint.rest
  · exact exponent cursor [] .none

/-- What is skipped of a number behind its sign. -/
def skipUnsigned : Reading Unit := do
  match ← peek with
  | none => failHere .invalidNumber
  | some c =>
      if c == '0' then
        advance
        match ← peek with
        | some next =>
            if isDigit next then failNext .invalidNumber else skipNumberTail
        | none => pure ()
      else if isDigit c then
        let _ ← takeAscii isDigit
        skipNumberTail
      else
        failAfter 1 .invalidNumber

theorem skipUnsigned_takes : skipUnsigned.Takes fun _ => UnsignedText := by
  intro place
  apply TakesAt.peek
  cases head : place.rest.head? with
  | none => exact .failHere _
  | some c =>
      dsimp only
      split
      · next zero =>
        apply TakesAt.advance (c := '0') (by simpa [head] using zero)
        intro middle
        apply TakesAt.peek
        split
        · split
          · exact .failNext _
          · apply (skipNumberTail_takes middle).mono
            exact fun _ taken ends => ⟨['0'], taken, rfl, .zero, ends⟩
        · exact .pure ⟨['0'], [], rfl, .zero, [], [], rfl, .none, .none⟩
      · next nonzero =>
        split
        · next digit =>
          apply TakesAt.takeAscii
          rintro digits middle rfl
          apply (skipNumberTail_takes middle).mono
          intro _ taken ends
          exact ⟨_, taken, rfl, wholeText_takeWhile head digit nonzero, ends⟩
        · exact .failAfter _ _

theorem skipNumber_takes : skipNumber.Takes fun _ => NumberText := by
  intro cursor
  unfold skipNumber
  apply TakesAt.peek
  dsimp only
  split
  · next minus =>
    apply TakesAt.advance (c := '-') (by simpa using minus)
    intro middle
    apply (skipUnsigned_takes middle).mono
    exact fun _ _ isUnsigned => isUnsigned.numberText ['-'] (by simp)
  · apply (skipUnsigned_takes cursor).mono
    exact fun _ _ isUnsigned => isUnsigned.numberText [] (by simp)

end Reading

end BuildScribe
