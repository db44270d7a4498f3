/-
**How the digits of a double are laid out.**

Two layouts share the shortest digits. The scientific layout switches to an exponent for very large
and very small numbers and otherwise always shows a fraction; the plain layout never uses an
exponent and shows a fraction only where there is one. A number of a document may also be an
infinity or the result of no computation (`Quantity`).
-/

import Scaffold.Decimal.Shortest

namespace Scaffold

namespace Decimal

/-- The decimal digits of a natural number. -/
def digitsOf (number : Nat) : Text := Nat.toDigits 10 number

/-- A number of zeros. -/
def zeros (count : Nat) : Text := List.replicate count '0'

/-- The digits of a whole number, with its sign. -/
def integerText (value : Int) : Text :=
  if value < 0 then '-' :: digitsOf value.natAbs else digitsOf value.natAbs

/-- Digits whose decimal point stands after the first `point` of them. -/
def positional (digits : Text) (point : Int) : Text :=
  if point ≤ 0 then "0.".toList ++ zeros (-point).toNat ++ digits
  else digits.take point.toNat ++ '.' :: digits.drop point.toNat

/-- How a number with an exponent is written. -/
structure ExponentForm where
  /-- Whether an exponent of at least zero has a plus. -/
  plus : Bool
  deriving DecidableEq, Repr

/-- An exponent after its mark. -/
def ExponentForm.text (form : ExponentForm) (power : Int) : Text :=
  'e' :: (if form.plus && 0 ≤ power then ['+'] else []) ++ integerText power

/-- Positional from `0.00001` up to sixteen digits before the point, then with an exponent. A whole
number ends in `.0`. -/
def scientific (form : ExponentForm) (number : Binary64) : Text :=
  let sign := if number.negative then ['-'] else []
  if number.isZero then sign ++ "0.0".toList
  else
    let decimal := shortest number
    let digits := digitsOf decimal.digits
    let point := (digits.length : Int) + decimal.exponent
    if 0 ≤ decimal.exponent ∧ point ≤ 16 then
      sign ++ digits ++ zeros decimal.exponent.toNat ++ ".0".toList
    else if -5 < point ∧ point ≤ 16 then sign ++ positional digits point
    else
      let power := form.text (point - 1)
      match digits with
      | [] => sign ++ power
      | [digit] => sign ++ digit :: power
      | digit :: more => sign ++ digit :: '.' :: more ++ power

/-- Positional at any size; a whole number has no point. -/
def plain (number : Binary64) : Text :=
  let sign := if number.negative then ['-'] else []
  if number.isZero then sign ++ ['0']
  else
    let decimal := shortest number
    let digits := digitsOf decimal.digits
    if 0 ≤ decimal.exponent then sign ++ digits ++ zeros decimal.exponent.toNat
    else sign ++ positional digits ((digits.length : Int) + decimal.exponent)

end Decimal

/-- A number that may have no finite value. -/
inductive Quantity where
  | finite (value : Binary64)
  | infinity (negative : Bool)
  | undefined
  deriving DecidableEq, Repr

/-- A quantity as text. -/
def Quantity.text : Quantity → Text
  | finite value => Decimal.plain value
  | infinity true => "-inf".toList
  | infinity false => "inf".toList
  | undefined => "NaN".toList

end Scaffold
