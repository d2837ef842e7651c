import BuildScribe.Proofs.Json.Run

/-!
# Numerals of integers

The numeral of an integer that fits 64 bits, with or without a sign, is read as that integer,
whatever follows it but what would go on with the number.
-/

namespace BuildScribe

/-- Nothing that would go on with a whole number comes next. -/
def EndsWhole (text : List Char) : Prop :=
  ∀ c ∈ text.head?, isDigit c = false ∧ c ≠ '.' ∧ c ≠ 'e' ∧ c ≠ 'E'

theorem isDigit_of_mem_toDigits {n : Nat} {c : Char} (isPart : c ∈ Nat.toDigits 10 n) :
    isDigit c = true :=
  Nat.isDigit_of_mem_toDigits (by decide) (by decide) isPart

theorem toList_toString_ofNat (n : Nat) :
    (toString (Int.ofNat n)).toList = Nat.toDigits 10 n :=
  Nat.toList_repr

theorem toList_toString_negSucc (n : Nat) :
    (toString (Int.negSucc n)).toList = '-' :: Nat.toDigits 10 (n + 1) := by
  change ("-" ++ (n + 1).repr).toList = _
  rw [String.toList_append, Nat.toList_repr]
  rfl

theorem isNumeral_of_mem_toString {value : Int} {c : Char}
    (isPart : c ∈ (toString value).toList) : (c == '-' || isDigit c) = true := by
  cases value with
  | ofNat n =>
      rw [toList_toString_ofNat] at isPart
      simp [isDigit_of_mem_toDigits isPart]
  | negSucc n =>
      rw [toList_toString_negSucc, List.mem_cons] at isPart
      rcases isPart with rfl | isPart
      · rfl
      · simp [isDigit_of_mem_toDigits isPart]

/-- A sign or a digit comes first in the numeral of an integer. -/
theorem exists_toString_eq_cons (value : Int) :
    ∃ c rest, (toString value).toList = c :: rest ∧ (c == '-' || isDigit c) = true := by
  have present : (toString value).toList ≠ [] := by
    cases value with
    | ofNat n =>
        rw [toList_toString_ofNat]
        exact Nat.toDigits_ne_nil
    | negSucc n =>
        rw [toList_toString_negSucc]
        exact List.cons_ne_nil _ _
  obtain ⟨c, rest, written⟩ := List.exists_cons_of_ne_nil present
  have isPart : c ∈ (toString value).toList := by
    rw [written]
    exact List.mem_cons_self
  exact ⟨c, rest, written, isNumeral_of_mem_toString isPart⟩

/-- Only the numeral of zero starts with a zero. -/
theorem head?_toDigits_ne_zero {n : Nat} (positive : n ≠ 0) :
    (Nat.toDigits 10 n).head? ≠ some '0' := by
  induction n using Nat.strongRecOn with
  | ind n ih =>
      by_cases single : n < 10
      · have table : ∀ digit < 10, digit ≠ 0 → [digit.digitChar].head? ≠ some '0' := by
          decide
        rw [Nat.toDigits_of_lt_base single]
        exact table n single positive
      · have leading := ih (n / 10) (by omega) (by omega)
        rw [Nat.toDigits_of_base_le (by decide) (by omega)]
        cases written : Nat.toDigits 10 (n / 10) with
        | nil => exact (Nat.toDigits_ne_nil written).elim
        | cons first rest =>
            rw [written] at leading
            exact leading

/-- Reading on never makes a number smaller. -/
theorem le_ofDigitChars (start : Nat) (digits : List Char) :
    start ≤ Nat.ofDigitChars 10 digits start := by
  induction digits generalizing start with
  | nil => exact Nat.le_refl start
  | cons digit rest ih =>
      rw [Nat.ofDigitChars_cons]
      exact Nat.le_trans (by omega) (ih _)

/-- Digits whose value stays below the bound are all gathered. -/
theorem gatherDigits_of_lt {bound significand : Nat} {digits : List Char}
    (fits : Nat.ofDigitChars 10 digits significand < bound) :
    gatherDigits bound significand digits =
      (Nat.ofDigitChars 10 digits significand, 0) := by
  induction digits generalizing significand with
  | nil => rfl
  | cons digit rest ih =>
      rw [Nat.ofDigitChars_cons] at fits ⊢
      have below := Nat.lt_of_le_of_lt (le_ofDigitChars _ rest) fits
      have next : significand * 10 + digitValue digit =
          10 * significand + (digit.toNat - '0'.toNat) := by
        rw [Nat.mul_comm, digitValue]
      rw [gatherDigits, next]
      simp only [below, if_true]
      exact ih fits

namespace Reading

variable {behind : List Char}

theorem numberTail_of_ends (ends : EndsWhole behind) (negative : Bool) (significand offset : Nat) :
    numberTail negative significand 0 ⟨behind, offset⟩ =
      (if !negative then pure (.integer significand)
        else if 0 < significand && significand ≤ Nat.pow 2 63 then pure (.integer (-significand))
        else pure (.double ((Binary64.ofNat significand).withSign true)) : Reading JsonNumber)
        ⟨behind, offset⟩ := by
  have noPoint : (behind.head? == some '.') = false := by
    cases head : behind.head? with
    | none => rfl
    | some c => simpa using (ends c head).2.1
  have noExponent : (behind.head? == some 'e' || behind.head? == some 'E') = false := by
    cases head : behind.head? with
    | none => rfl
    | some c => simpa using (ends c head).2.2
  rw [numberTail, peek_bind]
  simp only [noPoint, noExponent]
  rfl

/-- The digits of a number are read up to their end. -/
theorem unsignedNumber_toDigits (ends : EndsWhole behind) (negative : Bool) {n : Nat}
    (fits : n < Nat.pow 2 64) (offset : Nat) :
    ∃ place, unsignedNumber negative ⟨Nat.toDigits 10 n ++ behind, offset⟩ =
      numberTail negative n 0 ⟨behind, place⟩ := by
  have stops : ∀ c ∈ behind.head?, isDigit c = false := fun c isNext => (ends c isNext).1
  by_cases zero : n = 0
  · subst zero
    refine ⟨offset + 1, ?_⟩
    have written : Nat.toDigits 10 0 ++ behind = '0' :: behind := rfl
    have advanced : advance ⟨'0' :: behind, offset⟩ = .ok () ⟨behind, offset + 1⟩ := rfl
    rw [written, unsignedNumber, peek_bind]
    dsimp only [List.head?_cons]
    rw [if_pos (beq_self_eq_true '0'), bind_of_ok advanced, peek_bind]
    cases head : behind.head? with
    | none => rfl
    | some c => simp [stops c head]
  · cases written : Nat.toDigits 10 n with
    | nil => exact (Nat.toDigits_ne_nil written).elim
    | cons first rest =>
        have isDigits : ∀ c ∈ first :: rest, isDigit c = true := fun c isPart =>
          isDigit_of_mem_toDigits (written ▸ isPart)
        have notZero : (first == '0') = false := by
          have leading := head?_toDigits_ne_zero zero
          rw [written] at leading
          simpa using leading
        have gathered : gatherDigits (Nat.pow 2 64) 0 (first :: rest) = (n, 0) := by
          rw [← written, gatherDigits_of_lt] <;> rw [Nat.ofDigitChars_ten_toDigits]
          exact fits
        refine ⟨offset + (first :: rest).length, ?_⟩
        rw [unsignedNumber, peek_bind]
        dsimp only [List.cons_append, List.head?_cons]
        rw [if_neg (by simp [notZero]), if_pos (isDigits first List.mem_cons_self),
          ← List.cons_append, bind_of_ok (takeAscii_append isDigits stops offset), gathered]

/-- The numeral of an integer that a JSON number keeps exactly is read as that integer. -/
theorem number_toString (ends : EndsWhole behind) {value : Int}
    (kept : JsonNumber.holds value = true) (offset : Nat) :
    ∃ place, number ⟨(toString value).toList ++ behind, offset⟩ =
      .ok (.integer value) ⟨behind, place⟩ := by
  simp only [JsonNumber.holds, Bool.and_eq_true, decide_eq_true_eq] at kept
  cases value with
  | ofNat n =>
      have noSign : ((Nat.toDigits 10 n ++ behind).head? == some '-') = false := by
        cases digits : Nat.toDigits 10 n with
        | nil => exact (Nat.toDigits_ne_nil digits).elim
        | cons first rest =>
            have isDigit := isDigit_of_mem_toDigits (n := n) (c := first) (by simp [digits])
            rw [List.cons_append, List.head?_cons, beq_eq_false_iff_ne]
            rintro ⟨⟩
            cases isDigit
      obtain ⟨place, read⟩ := unsignedNumber_toDigits ends false (n := n)
        (Int.ofNat_lt.mp kept.2) offset
      refine ⟨place, ?_⟩
      rw [toList_toString_ofNat, number, peek_bind,
        if_neg (by rw [noSign]; exact Bool.false_ne_true), read, numberTail_of_ends ends]
      rfl
  | negSucc n =>
      have advanced : advance ⟨'-' :: Nat.toDigits 10 (n + 1) ++ behind, offset⟩ =
          .ok () ⟨Nat.toDigits 10 (n + 1) ++ behind, offset + 1⟩ := rfl
      have small : n + 1 ≤ Nat.pow 2 63 := by omega
      have fits : (decide (0 < n + 1) && decide (n + 1 ≤ Nat.pow 2 63)) = true := by
        rw [decide_eq_true n.succ_pos, decide_eq_true small, Bool.and_self]
      obtain ⟨place, read⟩ := unsignedNumber_toDigits ends true (n := n + 1)
        (Nat.lt_of_le_of_lt small (by decide)) (offset + 1)
      refine ⟨place, ?_⟩
      rw [toList_toString_negSucc, number, peek_bind, if_pos (by rfl), bind_of_ok advanced, read,
        numberTail_of_ends ends, Bool.not_true, if_neg Bool.false_ne_true, if_pos fits]
      rfl

theorem scalar?_of_number {c : Char} (opens : (c == '-' || isDigit c) = true) :
    scalar? c = some (.number <$> number) := by
  have differs (other : Char) (isOther : (other == '-' || isDigit other) = false) :
      (c == other) = false := by
    rw [beq_eq_false_iff_ne]
    rintro rfl
    rw [isOther] at opens
    cases opens
  simp [scalar?, differs 'n' rfl, differs 't' rfl, differs 'f' rfl, opens]

end Reading

/-- A text that is the numeral of an integer with at most 64 bits is that integer. -/
theorem Json.parse_toString {value : Int} (kept : JsonNumber.holds value = true) :
    Json.parse (toString value) = .ok (.integer value) := by
  obtain ⟨c, rest, written, opens⟩ := exists_toString_eq_cons value
  have noBlank : isJsonBlank c = false := by
    cases blank : isJsonBlank c with
    | false => rfl
    | true =>
        simp only [isJsonBlank, Bool.or_eq_true, beq_iff_eq] at blank
        obtain ((rfl | rfl) | rfl) | rfl := blank <;> cases opens
  have ends : EndsWhole [] := by simp [EndsWhole]
  obtain ⟨place, read⟩ := Reading.number_toString ends kept 0
  rw [List.append_nil] at read
  have skipped : Reading.skipBlanks ⟨(toString value).toList, 0⟩ =
      .ok () ⟨(toString value).toList, 0⟩ :=
    Reading.skipBlanks_of_stops (by rw [written]; simp [noBlank])
  have valued : Reading.value nestingLimit ⟨(toString value).toList, 0⟩ =
      .ok (.integer value) ⟨[], place⟩ := by
    have entered : Reading.value nestingLimit =
      Reading.valueOver (some (Reading.value 126)) := rfl
    rw [entered, Reading.valueOver, Reading.bind_of_ok skipped, Reading.peek_bind]
    simp only [written, List.head?_cons, Reading.scalar?_of_number opens]
    rw [← written, Reading.map_eq_ok]
    exact ⟨_, read, rfl⟩
  have document : Reading.document ⟨(toString value).toList, 0⟩ =
      .ok (.integer value) ⟨[], place⟩ := by
    rw [Reading.document, Reading.bind_of_ok valued]
    rfl
  rw [Json.parse, Reading.run, Cursor.start, document]

end BuildScribe
