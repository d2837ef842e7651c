import BuildScribe.Number.Numeral

/-!
# Whole numbers as doubles

Doubles of at least `2 ^ 52` are whole numbers, and between two powers of two they lie at
equal distances. A whole number of that size is rounded to the nearest of them, which is then
written with all of its digits.
-/

namespace BuildScribe

namespace Binary64

private theorem pow_52 : Nat.pow 2 52 = 4503599627370496 := rfl

private theorem pow_53 : Nat.pow 2 53 = 9007199254740992 := rfl

private theorem pow_63 : Nat.pow 2 63 = 9223372036854775808 := rfl

theorem roundedQuotient_cases (numerator denominator : Nat) :
    roundedQuotient numerator denominator = numerator / denominator ∧
        2 * (numerator % denominator) ≤ denominator ∨
      roundedQuotient numerator denominator = numerator / denominator + 1 ∧
        denominator ≤ 2 * (numerator % denominator) := by
  simp only [roundedQuotient, Bool.or_eq_true, decide_eq_true_eq, Bool.and_eq_true,
    beq_iff_eq]
  split
  · next above => exact .inr ⟨rfl, by omega⟩
  · next below => exact .inl ⟨rfl, by omega⟩

/-- The distance between neighbouring doubles around a whole number of at least
`2 ^ 52`. -/
def spacing (n : Nat) : Nat :=
  Nat.pow 2 (n.log2 - 52)

/-- The double nearest to a whole number of at least `2 ^ 52`, as a whole number. -/
def nearestWhole (n : Nat) : Nat :=
  roundedQuotient n (spacing n) * spacing n

theorem spacing_pos (n : Nat) : 0 < spacing n := Nat.two_pow_pos _

/-- Rounding moves a number by at most half of the distance between doubles. -/
theorem nearestWhole_near (n : Nat) :
    2 * n ≤ 2 * nearestWhole n + spacing n ∧ 2 * nearestWhole n ≤ 2 * n + spacing n := by
  have divided := Nat.div_add_mod n (spacing n)
  rw [Nat.mul_comm] at divided
  unfold nearestWhole
  rcases roundedQuotient_cases n (spacing n) with ⟨rounded, half⟩ | ⟨rounded, half⟩
  · rw [rounded]
    omega
  · have within := Nat.mod_lt n (spacing_pos n)
    rw [rounded, Nat.succ_mul (n / spacing n)]
    omega

/-- The rounded significand of a whole number has fifty-three bits, unless it has run over into
the next power of two. -/
theorem significand_bounds {n : Nat} (large : 52 ≤ n.log2) :
    Nat.pow 2 52 ≤ roundedQuotient n (spacing n) ∧
      roundedQuotient n (spacing n) ≤ Nat.pow 2 53 := by
  have positive : n ≠ 0 := by
    rintro rfl
    cases large
  have split (count : Nat) (enough : 52 ≤ count) :
      Nat.pow 2 count = Nat.pow 2 52 * Nat.pow 2 (count - 52) := by
    change 2 ^ count = 2 ^ 52 * 2 ^ (count - 52)
    rw [← Nat.pow_add]
    congr 1
    omega
  have atLeast : Nat.pow 2 52 ≤ n / spacing n := by
    rw [Nat.le_div_iff_mul_le (spacing_pos n), spacing, ← split _ large]
    exact Nat.log2_self_le positive
  have below : n / spacing n < Nat.pow 2 53 := by
    rw [Nat.div_lt_iff_lt_mul (spacing_pos n), spacing]
    have bound : n < Nat.pow 2 (n.log2 + 1) := Nat.lt_log2_self
    calc
      n < Nat.pow 2 (n.log2 + 1) := bound
      _ = Nat.pow 2 53 * Nat.pow 2 (n.log2 - 52) := by
        change 2 ^ (n.log2 + 1) = 2 ^ 53 * 2 ^ (n.log2 - 52)
        rw [← Nat.pow_add]
        congr 1
        omega
  rcases roundedQuotient_cases n (spacing n) with ⟨rounded, _⟩ | ⟨rounded, _⟩ <;> omega

/-- A positive double of at least `2 ^ 52`, by its exponent and its fraction. -/
theorem ratio_of_fields {x : Binary64} {field fraction : Nat}
    (bits : x.bits.toNat = field * Nat.pow 2 52 + fraction) (within : fraction < Nat.pow 2 52)
    (large : 1075 ≤ field) (finite : field ≤ 2046) :
    x.ratio = ((Nat.pow 2 52 + fraction) * Nat.pow 2 (field - 1075), 1) ∧
      x.isFinite = true ∧ x.negative = false := by
  rw [pow_52] at bits within
  have magnitude : x.magnitudeBits = x.bits.toNat := by
    rw [magnitudeBits, pow_63]
    omega
  have exponentField : x.exponentField = field := by
    rw [Binary64.exponentField, magnitude, pow_52]
    omega
  have fractionField : x.fractionField = fraction := by
    rw [Binary64.fractionField, magnitude, pow_52]
    omega
  have significand : x.significand = Nat.pow 2 52 + fraction := by
    rw [Binary64.significand, exponentField, fractionField, if_neg (by omega)]
  have exponent : x.exponent = (field - 1075 : Nat) := by
    rw [Binary64.exponent, exponentField]
    omega
  have noDenominator : (-x.exponent).toNat = 0 := by omega
  refine ⟨?_, ?_, ?_⟩
  · rw [ratio, significand, noDenominator, exponent, Int.toNat_natCast]
  · rw [isFinite, magnitude, infinityBits, pow_52, decide_eq_true_eq]
    omega
  · rw [negative, pow_63, decide_eq_false_iff_not]
    omega

theorem ratio_ofMagnitudeBits {count significand : Nat} (large : 1074 ≤ count)
    (finite : count ≤ 2044)
    (bounds : Nat.pow 2 52 ≤ significand ∧ significand ≤ Nat.pow 2 53) :
    (ofMagnitudeBits false (count * Nat.pow 2 52 + significand)).ratio =
        (significand * Nat.pow 2 (count - 1074), 1) ∧
      (ofMagnitudeBits false (count * Nat.pow 2 52 + significand)).isFinite = true ∧
      (ofMagnitudeBits false (count * Nat.pow 2 52 + significand)).negative = false := by
  rw [pow_53] at bounds
  have bits : (ofMagnitudeBits false (count * Nat.pow 2 52 + significand)).bits.toNat =
      count * Nat.pow 2 52 + significand := by
    apply UInt64.toNat_ofNat_of_lt
    rw [if_neg Bool.false_ne_true, pow_52, UInt64.size]
    omega
  rcases Nat.lt_or_eq_of_le bounds.2 with below | carried
  · have sameField : count * Nat.pow 2 52 + significand =
        (count + 1) * Nat.pow 2 52 + (significand - Nat.pow 2 52) := by
      simp only [pow_52] at bounds ⊢
      omega
    have parts := ratio_of_fields (bits.trans sameField)
      (by simp only [pow_52] at bounds ⊢; omega) (by omega) (by omega)
    rw [Nat.add_sub_cancel' bounds.1, show count + 1 - 1075 = count - 1074 by omega] at parts
    exact parts
  · have nextField : count * Nat.pow 2 52 + significand = (count + 2) * Nat.pow 2 52 + 0 := by
      simp only [pow_52]
      omega
    have parts := ratio_of_fields (bits.trans nextField) (Nat.two_pow_pos 52)
      (by omega) (by omega)
    have doubled : Nat.pow 2 (count + 2 - 1075) = Nat.pow 2 (count - 1074) * 2 := by
      rw [show count + 2 - 1075 = count - 1074 + 1 by omega]
      rfl
    have shifted : (Nat.pow 2 52 + 0) * Nat.pow 2 (count + 2 - 1075) =
        significand * Nat.pow 2 (count - 1074) := by
      rw [doubled, carried, pow_52]
      omega
    rw [shifted] at parts
    exact parts

theorem floorLog2_one {n : Nat} (positive : n ≠ 0) : floorLog2 n 1 = n.log2 := by
  have one : Nat.log2 1 = 0 := by decide
  simp only [floorLog2, one]
  rw [if_pos]
  · omega
  · simpa using Nat.log2_self_le positive

/-- A whole number of at least `2 ^ 52` becomes the double nearest to it. -/
theorem ratio_ofNat {n : Nat} (large : 52 ≤ n.log2) (finite : n.log2 ≤ 1022) :
    (ofNat n).ratio = (nearestWhole n, 1) ∧ (ofNat n).isFinite = true ∧
      (ofNat n).negative = false := by
  have positive : n ≠ 0 := by
    rintro rfl
    cases large
  have bounds := significand_bounds large
  have exponent : max ((n.log2 : Int) - 52) (-1074) = (n.log2 - 52 : Nat) := by omega
  have field : ((n.log2 - 52 : Nat) + 1074 : Int).toNat = n.log2 - 52 + 1074 := by omega
  have shift : (-(n.log2 - 52 : Nat) : Int).toNat = 0 := by omega
  have small : (n.log2 - 52 + 1074) * Nat.pow 2 52 + roundedQuotient n (spacing n) ≤
      infinityBits := by
    rw [infinityBits, pow_52]
    rw [pow_53] at bounds
    omega
  have written : ofNat n = ofMagnitudeBits false
      ((n.log2 - 52 + 1074) * Nat.pow 2 52 + roundedQuotient n (spacing n)) := by
    simp only [ofNat, ofRatio, if_neg positive, floorLog2_one positive, exponent]
    rw [field, shift, Int.toNat_natCast, ← spacing, Nat.one_mul]
    rw [show n * Nat.pow 2 0 = n from Nat.mul_one n, Nat.min_eq_left small]
  have atLeast : 1074 ≤ n.log2 - 52 + 1074 := by omega
  have parts := ratio_ofMagnitudeBits atLeast (by omega) bounds
  rw [Nat.add_sub_cancel] at parts
  rw [written]
  exact parts

/-- The digits of the nearest double, with `.0` behind them. -/
theorem wholeText_ofNat {n : Nat} (large : 52 ≤ n.log2) (finite : n.log2 ≤ 1022) :
    (ofNat n).isWhole = true ∧ (ofNat n).wholeText = toString (nearestWhole n) ++ ".0" := by
  obtain ⟨ratio, finite, sign⟩ := ratio_ofNat large finite
  constructor
  · rw [isWhole, ratio, finite, Nat.mod_one]
    rfl
  · apply String.toList_injective
    simp [wholeText, ratio, sign]

end Binary64

end BuildScribe
