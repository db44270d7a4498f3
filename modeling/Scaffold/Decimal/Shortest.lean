/-
**The fewest decimal digits that name a double.**

Every real number between the midpoints to a double's two neighbours rounds to that double; the
midpoints themselves do if its mantissa is even. For one, two, up to seventeen digits the two
decimals next to the double are tested against that interval in exact arithmetic. The first number
of digits with a hit wins, of two hits the nearer one, and of two equally near ones the even one.
-/

import Scaffold.Decimal.Binary64
import Scaffold.Text.Basic

namespace Scaffold.Decimal

/-- A positive decimal `digits * 10 ^ exponent`. -/
structure Digits where
  digits : Nat
  exponent : Int
  deriving DecidableEq, Repr

/-- A double's magnitude and the ends of the interval that rounds to it, over one denominator. -/
structure Interval where
  low : Nat
  middle : Nat
  high : Nat
  denominator : Nat
  /-- Whether the ends belong to the interval. -/
  closed : Bool

/-- The interval of a double other than zero. Below a power of two the doubles are twice as close,
so there the lower end is half as far away. -/
def interval (number : Binary64) : Interval :=
  let below :=
    if number.mantissa = Nat.pow 2 52 ∧ Binary64.leastExponent < number.exponent then 1 else 2
  let scaled (quarters : Nat) := Binary64.scale quarters 4 number.exponent
  { low := (scaled (4 * number.mantissa - below)).1
    middle := (scaled (4 * number.mantissa)).1
    high := (scaled (4 * number.mantissa + 2)).1
    denominator := (scaled 0).2
    closed := number.mantissa % 2 == 0 }

/-- The number of decimal digits of a natural number. -/
def digitCount (number : Nat) : Nat := (Nat.toDigits 10 number).length

/-- The power of ten at the first digit of a positive ratio. -/
def leadingPower (numerator denominator : Nat) : Int :=
  if denominator ≤ numerator then (digitCount (numerator / denominator) : Int) - 1
  else -(digitCount ((denominator - 1) / numerator) : Int)

/-- Whether `digits * 10 ^ exponent` lies in the interval. -/
def Interval.holds (range : Interval) (digits : Nat) (exponent : Int) : Bool :=
  let (value, unit) :=
    if 0 ≤ exponent then (digits * Nat.pow 10 exponent.toNat * range.denominator, 1)
    else (digits * range.denominator, Nat.pow 10 (-exponent).toNat)
  if range.closed then range.low * unit ≤ value && value ≤ range.high * unit
  else range.low * unit < value && value < range.high * unit

/-- The decimal with digits down to `10 ^ exponent` in the interval, if there is one. -/
def nearest? (range : Interval) (exponent : Int) : Option Nat :=
  let (numerator, denominator) :=
    if 0 ≤ exponent then (range.middle, range.denominator * Nat.pow 10 exponent.toNat)
    else (range.middle * Nat.pow 10 (-exponent).toNat, range.denominator)
  let lower := numerator / denominator
  let twice := 2 * (numerator % denominator)
  match range.holds lower exponent, range.holds (lower + 1) exponent with
  | true, true =>
    if twice < denominator then some lower
    else if denominator < twice then some (lower + 1)
    else if lower % 2 = 0 then some lower else some (lower + 1)
  | true, false => some lower
  | false, true => some (lower + 1)
  | false, false => none

/-- Tries ever longer decimals, the coarsest first. -/
def search (range : Interval) (leading : Int) : (attempts tried : Nat) → Digits
  | 0, tried =>
    ⟨(nearest? range (leading - tried)).getD 0, leading - tried⟩
  | attempts + 1, tried =>
    match nearest? range (leading - tried) with
    | some digits => ⟨digits, leading - tried⟩
    | none => search range leading attempts (tried + 1)

/-- Moves zeros at the end of the digits into the exponent. -/
def dropZeros (digits : Nat) (exponent : Int) : (steps : Nat) → Digits
  | 0 => ⟨digits, exponent⟩
  | steps + 1 =>
    if digits % 10 = 0 ∧ digits ≠ 0 then dropZeros (digits / 10) (exponent + 1) steps
    else ⟨digits, exponent⟩

/-- The shortest decimal that rounds to a double other than zero. -/
def shortest (number : Binary64) : Digits :=
  let range := interval number
  let found := search range (leadingPower range.middle range.denominator) 17 0
  dropZeros found.digits found.exponent (digitCount found.digits)

end Scaffold.Decimal
