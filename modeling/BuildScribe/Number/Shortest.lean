import BuildScribe.Number.Binary64

/-!
# Shortest decimals

Among the decimals that read back as a given double, `Binary64.shortest` finds
the ones with the fewest digits and of those the nearest. For each number of
digits it tests the two neighbours of the double on that decimal grid, in
exact natural arithmetic.
-/

namespace BuildScribe

/-- The decimal `0.d₁d₂… * 10 ^ point`, without trailing zeros. -/
structure Decimal where
  digits : List Char
  point : Int
deriving DecidableEq, Repr

/-- Which of two equally near decimals of one length is chosen. -/
inductive DecimalTie where
  | up
  | toEven
deriving DecidableEq, Repr

namespace Decimal

def ofScaled (count : Nat) (scale : Int) : Decimal :=
  let written := Nat.toDigits 10 count
  let kept := (written.reverse.dropWhile (· == '0')).reverse
  ⟨kept, scale + written.length⟩

/-- The power of ten just above a positive ratio: the ratio is at least
`10 ^ (point - 1)` and below `10 ^ point`. -/
def pointOf (numerator denominator : Nat) : Int :=
  if denominator ≤ numerator then
    (Nat.toDigits 10 (numerator / denominator)).length
  else
    let zeros := (Nat.toDigits 10 (denominator / numerator)).length
    if denominator ≤ numerator * Nat.pow 10 (zeros - 1) then
      2 - (zeros : Int)
    else
      1 - (zeros : Int)

end Decimal

namespace Binary64

/-- The reals that round to a positive finite double, as bounds over one
denominator, together with the double itself. -/
structure RoundingInterval where
  low : Nat
  value : Nat
  high : Nat
  denominator : Nat
  /-- Whether the bounds themselves round to the double. -/
  closed : Bool

/-- The interval of a positive finite double. It is narrower below a power of
two, and closed exactly when the significand is even. -/
def roundingInterval (x : Binary64) : RoundingInterval :=
  let scale := Nat.pow 2 x.exponent.toNat
  let below :=
    if x.fractionField = 0 ∧ 1 < x.exponentField then 1 else 2
  { low := (4 * x.significand - below) * scale
    value := 4 * x.significand * scale
    high := (4 * x.significand + 2) * scale
    denominator := 4 * Nat.pow 2 (-x.exponent).toNat
    closed := x.significand % 2 == 0 }

/-- The decimal with the given number of digits that lies in the interval and
nearest to its value, if there is one. -/
def RoundingInterval.decimal? (interval : RoundingInterval) (tie : DecimalTie)
    (point : Int) (count : Nat) : Option Decimal :=
  let scale := point - count
  let grid := interval.denominator * Nat.pow 10 scale.toNat
  let spread := Nat.pow 10 (-scale).toNat
  let lower := interval.value * spread / grid
  let upper := lower + 1
  let lowerHits :=
    let bound := interval.low * spread
    bound < lower * grid || (interval.closed && bound == lower * grid)
  let upperHits :=
    let bound := interval.high * spread
    upper * grid < bound || (interval.closed && bound == upper * grid)
  let toLower := interval.value * spread - lower * grid
  let toUpper := upper * grid - interval.value * spread
  let preferLower :=
    toLower < toUpper ||
      (toLower == toUpper && tie == .toEven && lower % 2 == 0)
  match lowerHits, upperHits with
  | false, false => none
  | true, false => some (.ofScaled lower scale)
  | false, true => some (.ofScaled upper scale)
  | true, true => some (.ofScaled (if preferLower then lower else upper) scale)

/-- The shortest decimal that reads back as a positive finite double. Seventeen
digits always suffice. -/
def shortest (x : Binary64) (tie : DecimalTie) : Decimal :=
  let interval := x.roundingInterval
  let point := Decimal.pointOf interval.value interval.denominator
  match (List.range 17).findSome? fun index =>
      interval.decimal? tie point (index + 1) with
  | some decimal => decimal
  | none => ⟨[], 0⟩

end Binary64

end BuildScribe
