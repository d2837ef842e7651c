import BuildScribe.Number.Shortest

/-!
# Written numbers

A `NumeralStyle` holds every decision about the text of a double: which
decimal exponents are written positionally, which way a tie between two
shortest decimals goes, and the words for the values that are no numbers.
-/

namespace BuildScribe

/-- The decisions behind the text of a double. -/
structure NumeralStyle where
  /-- The decimal exponents that are written positionally; all others carry an
  exponent with its sign. Without bounds every number is positional. -/
  positional : Option (Int × Int)
  /-- Which of two equally near shortest decimals is written. -/
  tie : DecimalTie
  nan : String
  infinity : String

namespace Decimal

/-- Positional text: digits around the point, padded with zeros, and `.0` after
a whole number. -/
def positionalText (decimal : Decimal) : List Char :=
  let count := decimal.digits.length
  if decimal.point ≤ 0 then
    '0' :: '.' :: (List.replicate (-decimal.point).toNat '0' ++ decimal.digits)
  else if decimal.point.toNat < count then
    decimal.digits.take decimal.point.toNat ++
      '.' :: decimal.digits.drop decimal.point.toNat
  else
    decimal.digits ++ List.replicate (decimal.point.toNat - count) '0' ++
      ['.', '0']

/-- Text with an exponent: one digit, the others after a point, then the signed
exponent. -/
def exponentText (decimal : Decimal) : List Char :=
  let exponent := decimal.point - 1
  let sign := if exponent < 0 then '-' else '+'
  let mantissa :=
    match decimal.digits with
    | [] => []
    | [digit] => [digit]
    | digit :: rest => digit :: '.' :: rest
  mantissa ++ 'e' :: sign :: Nat.toDigits 10 exponent.natAbs

end Decimal

namespace NumeralStyle

/-- JSON numbers: positional for decimal exponents from -5 to 15, a tie going
to the even digit. Values that are no numbers do not occur there. -/
def json : NumeralStyle :=
  { positional := some (-5, 15), tie := .toEven, nan := "NaN", infinity := "inf" }

/-- Numbers in scripts: always positional, a tie going up. -/
def script : NumeralStyle :=
  { positional := none, tie := .up, nan := "NaN", infinity := "inf" }

def magnitudeText (style : NumeralStyle) (x : Binary64) : List Char :=
  if x.isInfinite then
    style.infinity.toList
  else if x.isZero then
    ['0', '.', '0']
  else
    let decimal := x.shortest style.tie
    match style.positional with
    | none => decimal.positionalText
    | some (lowest, highest) =>
        if lowest ≤ decimal.point - 1 ∧ decimal.point - 1 ≤ highest then
          decimal.positionalText
        else
          decimal.exponentText

/-- The text of a double; a minus sign stands before every negative value but
a NaN. -/
def text (style : NumeralStyle) (x : Binary64) : String :=
  if x.isNaN then
    style.nan
  else if x.negative then
    String.ofList ('-' :: style.magnitudeText x)
  else
    String.ofList (style.magnitudeText x)

end NumeralStyle

/-- The exact digits of a double without a fractional part, followed by `.0`. -/
def Binary64.wholeText (x : Binary64) : String :=
  let digits := Nat.toDigits 10 (x.ratio.1 / x.ratio.2) ++ ['.', '0']
  String.ofList (if x.negative then '-' :: digits else digits)

end BuildScribe
