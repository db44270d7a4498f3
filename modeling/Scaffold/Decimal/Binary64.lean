/-
**Finite doubles as exact numbers.**

A double is a sign, a whole mantissa below `2 ^ 53` and a power of two not below `2 ^ (-1074)`.
Every operation here rounds one exact ratio of natural numbers to the nearest double, ties to the
even mantissa, so no step depends on hardware arithmetic.
-/

namespace Scaffold

/-- The finite double `± mantissa * 2 ^ exponent`. -/
structure Binary64 where
  negative : Bool
  mantissa : Nat
  exponent : Int
  deriving DecidableEq, Repr

namespace Binary64

/-- The least exponent, that of zero and of the numbers below `2 ^ (-1022)`. -/
def leastExponent : Int := -1074

/-- The greatest exponent of a finite double. -/
def greatestExponent : Int := 971

/-- Zero with a sign. -/
def zero (negative : Bool) : Binary64 := ⟨negative, 0, leastExponent⟩

/-- The ratio `numerator / denominator * 2 ^ exponent` as a ratio of natural numbers. -/
def scale (numerator denominator : Nat) (exponent : Int) : Nat × Nat :=
  if 0 ≤ exponent then (numerator * Nat.pow 2 exponent.toNat, denominator)
  else (numerator, denominator * Nat.pow 2 (-exponent).toNat)

/-- The whole number nearest to a ratio; of two equally near ones the even one. -/
def divideToEven (numerator denominator : Nat) : Nat :=
  let quotient := numerator / denominator
  let twice := 2 * (numerator % denominator)
  if twice < denominator then quotient
  else if denominator < twice then quotient + 1
  else if quotient % 2 = 0 then quotient else quotient + 1

/-- The power of two at which the mantissa of a positive ratio has 53 bits, or the least one. -/
def fittingExponent (numerator denominator : Nat) : Int :=
  let estimate : Int := (numerator.log2 : Int) - (denominator.log2 : Int) - 52
  let scaled := scale numerator denominator (-estimate)
  let fitting := if scaled.1 < scaled.2 * Nat.pow 2 52 then estimate - 1 else estimate
  max fitting leastExponent

/-- The double nearest to a ratio, or nothing when it is beyond the greatest one. -/
def ofRatio? (negative : Bool) (numerator denominator : Nat) : Option Binary64 :=
  if numerator = 0 then some (zero negative)
  else
    let exponent := fittingExponent numerator denominator
    let scaled := scale numerator denominator (-exponent)
    let rounded := divideToEven scaled.1 scaled.2
    let (mantissa, exponent) :=
      if rounded = Nat.pow 2 53 then (Nat.pow 2 52, exponent + 1) else (rounded, exponent)
    if exponent ≤ greatestExponent then some ⟨negative, mantissa, exponent⟩ else none

/-- The magnitude of a double as a ratio. -/
def ratio (number : Binary64) : Nat × Nat := scale number.mantissa 1 number.exponent

/-- The product of two doubles, rounded; nothing when it is beyond the greatest double. -/
def multiply? (first second : Binary64) : Option Binary64 :=
  let left := first.ratio
  let right := second.ratio
  ofRatio? (first.negative != second.negative) (left.1 * right.1) (left.2 * right.2)

/-- The quotient of two doubles, rounded; nothing when it is beyond the greatest double. -/
def divide? (first second : Binary64) : Option Binary64 :=
  let left := first.ratio
  let right := second.ratio
  ofRatio? (first.negative != second.negative) (left.1 * right.2) (left.2 * right.1)

/-- Whether the double is one of the two zeros. -/
def isZero (number : Binary64) : Bool := number.mantissa == 0

/-- The same magnitude with a sign of one's own. -/
def withSign (negative : Bool) (number : Binary64) : Binary64 :=
  { number with negative := negative }

end Binary64

end Scaffold
