import BuildScribe.Description.Value
import BuildScribe.Proofs.Json.Integers
import BuildScribe.Proofs.Layout.Phrase
import BuildScribe.Proofs.Number.Doubles

/-!
# Integers in scripts

An integer of a description that fits 64 bits with a sign is written as its numeral. A larger
one has become a double, so its nearest double is written, which is a multiple of 2048 and
shows a point.
-/

namespace BuildScribe

namespace DescribedValue

/-- How an integer stands in a script. -/
def integerText (value : Int) : String :=
  if value < Nat.pow 2 63 then
    toString value
  else
    toString (Binary64.nearestWhole value.toNat) ++ ".0"

theorem log2_of_large {value : Int} (kept : JsonNumber.holds value = true)
    (large : ¬value < Nat.pow 2 63) : value.toNat.log2 = 63 := by
  simp only [JsonNumber.holds, Bool.and_eq_true, decide_eq_true_eq] at kept
  have atLeast : Nat.pow 2 63 ≤ value.toNat := by omega
  have below : value.toNat < Nat.pow 2 64 := by omega
  have positive : value.toNat ≠ 0 := by
    intro zero
    rw [zero] at atLeast
    cases atLeast
  apply Nat.le_antisymm
  · exact Nat.le_of_lt_succ ((Nat.log2_lt positive).mpr below)
  · exact (Nat.le_log2 positive).mpr atLeast

/-- An integer is a literal that is written in the same way in both languages. -/
theorem literalText_integer {value : Int} (kept : JsonNumber.holds value = true)
    (language : Language) :
    language.literalText (numberLiteral (.integer value)) = integerText value := by
  by_cases small : value < Nat.pow 2 63
  · have isInteger : isScriptInteger value = true := by
      simp only [JsonNumber.holds, isScriptInteger, Bool.and_eq_true,
        decide_eq_true_eq] at kept ⊢
      exact ⟨kept.1, small⟩
    rw [numberLiteral, if_pos isInteger, integerText, if_pos small]
    rfl
  · have isDouble : isScriptInteger value = false := by
      rw [isScriptInteger, decide_eq_false small, Bool.and_false]
    have log2 := log2_of_large kept small
    have positive : ¬value < 0 := by omega
    have magnitude : value.natAbs = value.toNat := by omega
    have converted : Binary64.ofInt value = .ofNat value.toNat := by
      rw [Binary64.ofInt, Binary64.ofNat, decide_eq_false positive, magnitude]
    obtain ⟨whole, written⟩ := Binary64.wholeText_ofNat (n := value.toNat) (by omega) (by omega)
    rw [numberLiteral, isDouble, if_neg Bool.false_ne_true, integerText, if_neg small,
      converted, Language.literalText, LiteralValue.plainText, if_pos whole, written]
    exact fun _ isString => by cases isString

theorem integerText_ne_empty (value : Int) : integerText value ≠ "" := by
  unfold integerText
  split
  · obtain ⟨c, rest, written, _⟩ := exists_toString_eq_cons value
    rw [ne_eq, ← String.toList_eq_nil_iff, written]
    exact List.cons_ne_nil c rest
  · simp

/-- Only the text of a double has a point. -/
theorem integerText_eq_toString_iff (value : Int) :
    integerText value = toString value ↔ value < Nat.pow 2 63 := by
  constructor
  · intro same
    refine Decidable.byContradiction fun large => ?_
    rw [integerText, if_neg large] at same
    have point : '.' ∈ (toString value).toList := by simp [← same]
    cases isNumeral_of_mem_toString point
  · intro small
    rw [integerText, if_pos small]

/-- A larger integer is written as a whole number next to it. -/
theorem integerText_of_large {value : Int} (kept : JsonNumber.holds value = true)
    (large : ¬value < Nat.pow 2 63) :
    ∃ multiple : Nat, integerText value = toString (multiple * 2048) ++ ".0" ∧
      (multiple * 2048 : Int) ≤ value + 1024 ∧ value ≤ multiple * 2048 + 1024 := by
  have distance : Binary64.spacing value.toNat = 2048 := by
    rw [Binary64.spacing, log2_of_large kept large]
  have near := Binary64.nearestWhole_near value.toNat
  rw [Binary64.nearestWhole, distance] at near
  refine ⟨Binary64.roundedQuotient value.toNat 2048, ?_, ?_, ?_⟩
  · rw [integerText, if_neg large, Binary64.nearestWhole, distance]
  all_goals omega

/-- Wherever the node of an integer stands, the text of the integer is written. -/
theorem fragment_integer {value : Int} (kept : JsonNumber.holds value = true)
    (comments : Bool) (dispatch emitter : Generator) :
    Generator.fragment comments dispatch emitter
        (.ofLiteral (numberLiteral (.integer value))) =
      .text (integerText value) := by
  rw [Node.ofLiteral, Generator.fragment, literalText_integer kept]
  rfl

theorem generate_integer {value : Int} (kept : JsonNumber.holds value = true)
    (generator : Generator) (options : LayoutOptions) :
    ∃ rendering,
      generator.generate (.ofLiteral (numberLiteral (.integer value))) options =
          .ok rendering ∧
        rendering.text = integerText value ++ options.lineEnding := by
  obtain ⟨rendering, succeeds, text⟩ :=
    (Fragment.text (integerText value)).render_eq_linesText options rfl
  refine ⟨rendering, ?_, ?_⟩
  · rw [Generator.generate, fragment_integer kept]
    exact succeeds
  · have shown : (integerText value).isEmpty = false := by
      simpa using integerText_ne_empty value
    rw [text, (Fragment.IsPhrase.text _).layout (integerText_ne_empty value),
      linesText_singleton, Line.shown, shown]
    simp [Buffer.indentChars]

/-- An integer that is read exactly is written as the numeral it was read from if it fits 64
bits with a sign, and only then. Any other is written with a point, as a multiple of 2048 that
is at most 1024 away. -/
theorem integer_keeps_numeral_iff {value : Int} (kept : JsonNumber.holds value = true) :
    Json.parse (toString value) = .ok (.integer value) ∧
    ∃ node, (ofJson (.integer value)).toNode = .ok node ∧
    ∃ written : String,
      (∀ comments dispatch emitter,
        Generator.fragment comments dispatch emitter node = .text written) ∧
      (∀ (generator : Generator) (options : LayoutOptions),
        ∃ rendering, generator.generate node options = .ok rendering ∧
          rendering.text = written ++ options.lineEnding) ∧
      (written = toString value ↔ value < Nat.pow 2 63) ∧
      (¬value < Nat.pow 2 63 →
        ∃ multiple : Nat, written = toString (multiple * 2048) ++ ".0" ∧
          (multiple * 2048 : Int) ≤ value + 1024 ∧ value ≤ multiple * 2048 + 1024) :=
  ⟨Json.parse_toString kept, _, rfl, integerText value, fragment_integer kept,
    generate_integer kept, integerText_eq_toString_iff value, integerText_of_large kept⟩

theorem least_integer_keeps_numeral :
    JsonNumber.holds (-9223372036854775808) = true ∧
      Json.parse "-9223372036854775808" = .ok (.integer (-9223372036854775808)) ∧
      ∃ node, (ofJson (.integer (-9223372036854775808))).toNode = .ok node ∧
        ∃ rendering, (Generator.standard .groovy).generate node {} = .ok rendering ∧
          rendering.text = "-9223372036854775808\n" := by
  have kept : JsonNumber.holds (-9223372036854775808) = true := by decide
  obtain ⟨parsed, node, isNode, written, _, generated, numeral, _⟩ :=
    integer_keeps_numeral_iff kept
  obtain ⟨rendering, succeeds, text⟩ := generated (.standard .groovy) {}
  rw [numeral.mpr (by decide)] at text
  exact ⟨kept, parsed, node, isNode, rendering, succeeds, text⟩

/-- The largest integer that is read exactly is written as the double next to it. -/
theorem largest_integer_becomes_double :
    JsonNumber.holds 18446744073709551615 = true ∧
      ∃ node, (ofJson (.integer 18446744073709551615)).toNode = .ok node ∧
        ∃ rendering, (Generator.standard .kotlin).generate node {} = .ok rendering ∧
          rendering.text = "18446744073709551616.0\n" := by
  have kept : JsonNumber.holds 18446744073709551615 = true := by decide
  have written : integerText 18446744073709551615 = "18446744073709551616.0" := by
    decide +kernel
  obtain ⟨rendering, succeeds, text⟩ := generate_integer kept (.standard .kotlin) {}
  rw [written] at text
  exact ⟨kept, _, rfl, rendering, succeeds, text⟩

end DescribedValue

end BuildScribe
