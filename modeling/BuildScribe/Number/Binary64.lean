/-!
# Double-precision numbers

A double is held as its 64 bits, and every operation works on exact natural
numbers: the value of a finite double is a whole number times a power of two,
and `ofRatio` rounds any ratio to the nearest double, a tie going to the even
significand.
-/

namespace BuildScribe

/-- A double-precision number, given by the 64 bits of its interchange format. -/
structure Binary64 where
  bits : UInt64
deriving DecidableEq, Repr, Inhabited

namespace Binary64

def negative (x : Binary64) : Bool :=
  x.bits.toNat ≥ Nat.pow 2 63

/-- The bits without the sign. -/
def magnitudeBits (x : Binary64) : Nat :=
  x.bits.toNat % Nat.pow 2 63

/-- The eleven bits of the exponent. -/
def exponentField (x : Binary64) : Nat :=
  x.magnitudeBits / Nat.pow 2 52

/-- The fifty-two stored bits of the significand. -/
def fractionField (x : Binary64) : Nat :=
  x.magnitudeBits % Nat.pow 2 52

def infinityBits : Nat :=
  2047 * Nat.pow 2 52

def isFinite (x : Binary64) : Bool :=
  x.magnitudeBits < infinityBits

def isInfinite (x : Binary64) : Bool :=
  x.magnitudeBits == infinityBits

def isNaN (x : Binary64) : Bool :=
  x.magnitudeBits > infinityBits

def isZero (x : Binary64) : Bool :=
  x.magnitudeBits == 0

/-- The whole number that, times `2 ^ exponent`, is the magnitude. -/
def significand (x : Binary64) : Nat :=
  if x.exponentField = 0 then x.fractionField else Nat.pow 2 52 + x.fractionField

/-- The power of two that scales the significand. -/
def exponent (x : Binary64) : Int :=
  (max x.exponentField 1 : Nat) - 1075

/-- The magnitude as a numerator over a denominator. -/
def ratio (x : Binary64) : Nat × Nat :=
  (x.significand * Nat.pow 2 x.exponent.toNat, Nat.pow 2 (-x.exponent).toNat)

/-- A finite double without a fractional part. -/
def isWhole (x : Binary64) : Bool :=
  x.isFinite && x.ratio.1 % x.ratio.2 == 0

def ofMagnitudeBits (negative : Bool) (magnitude : Nat) : Binary64 :=
  ⟨UInt64.ofNat (if negative then Nat.pow 2 63 + magnitude else magnitude)⟩

/-- The largest power of two that does not exceed a positive ratio. -/
def floorLog2 (numerator denominator : Nat) : Int :=
  let estimate : Int := (Nat.log2 numerator : Int) - Nat.log2 denominator
  if denominator * Nat.pow 2 estimate.toNat ≤ numerator * Nat.pow 2 (-estimate).toNat then
    estimate
  else
    estimate - 1

/-- Divides and rounds to the nearest whole number, a tie going to the even one. -/
def roundedQuotient (numerator denominator : Nat) : Nat :=
  let quotient := numerator / denominator
  let remainder := numerator % denominator
  if 2 * remainder > denominator ||
      (2 * remainder == denominator && quotient % 2 == 1) then
    quotient + 1
  else
    quotient

/-- The double nearest to a ratio; beyond the largest finite double it is an
infinity. -/
def ofRatio (negative : Bool) (numerator denominator : Nat) : Binary64 :=
  if numerator = 0 then
    ofMagnitudeBits negative 0
  else
    let exponent := max (floorLog2 numerator denominator - 52) (-1074)
    let significand :=
      roundedQuotient (numerator * Nat.pow 2 (-exponent).toNat)
        (denominator * Nat.pow 2 exponent.toNat)
    let magnitude := (exponent + 1074).toNat * Nat.pow 2 52 + significand
    ofMagnitudeBits negative (min magnitude infinityBits)

def ofNat (n : Nat) : Binary64 :=
  ofRatio false n 1

def ofInt (n : Int) : Binary64 :=
  ofRatio (n < 0) n.natAbs 1

/-- The product of two finite doubles, rounded once. -/
def mul (x y : Binary64) : Binary64 :=
  let (xNumerator, xDenominator) := x.ratio
  let (yNumerator, yDenominator) := y.ratio
  ofRatio (x.negative != y.negative) (xNumerator * yNumerator)
    (xDenominator * yDenominator)

/-- The quotient of a finite double by a finite double other than zero, rounded
once. -/
def div (x y : Binary64) : Binary64 :=
  let (xNumerator, xDenominator) := x.ratio
  let (yNumerator, yDenominator) := y.ratio
  ofRatio (x.negative != y.negative) (xNumerator * yDenominator)
    (xDenominator * yNumerator)

def withSign (x : Binary64) (negative : Bool) : Binary64 :=
  ofMagnitudeBits negative x.magnitudeBits

/-- Equality of values: both zeros are equal and no double equals a NaN. -/
def sameValue (x y : Binary64) : Bool :=
  !x.isNaN && !y.isNaN && (x.bits == y.bits || (x.isZero && y.isZero))

/-- The powers of ten that a double can hold, each rounded once. -/
def powerOfTen (n : Nat) : Binary64 :=
  ofNat (Nat.pow 10 n)

/-- Scales a non-negative double by a power of ten: one multiplication or one
division by a rounded power of ten, with divisions by `10 ^ 308` before it
while the exponent lies below `-308`. There is no result when it would exceed
every finite double. `steps` bounds those divisions; after three of them any
significand below `2 ^ 64` has become zero. -/
def scaleByPowerOfTen : (steps : Nat) → Binary64 → Int → Option Binary64
  | 0, x, _ => some x
  | steps + 1, x, exponent =>
      if exponent.natAbs ≤ 308 then
        if 0 ≤ exponent then
          let scaled := x.mul (powerOfTen exponent.natAbs)
          if scaled.isInfinite then none else some scaled
        else
          some (x.div (powerOfTen exponent.natAbs))
      else if x.isZero then
        some x
      else if 0 ≤ exponent then
        none
      else
        scaleByPowerOfTen steps (x.div (powerOfTen 308)) (exponent + 308)

/-- Reads `significand * 10 ^ exponent`: the significand is rounded to a double
first and then scaled, so the result may differ from the nearest double in its
last bit. -/
def ofDecimal (significand : Nat) (exponent : Int) : Option Binary64 :=
  scaleByPowerOfTen 4 (ofNat significand) exponent

def hexDigits (x : Binary64) : String :=
  let digits := Nat.toDigits 16 x.bits.toNat
  String.ofList (List.replicate (16 - digits.length) '0' ++ digits)

end Binary64

end BuildScribe
