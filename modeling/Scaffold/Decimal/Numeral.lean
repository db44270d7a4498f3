/-
**Decimal numerals.**

A numeral is a sign, digits with an optional point among or around them, and an optional exponent.
Its value is exact, and the double it stands for is the one nearest to that value. A whole text has
to be the numeral: `Numeral.ofText?` leaves nothing unread.
-/

import Scaffold.Decimal.Binary64
import Scaffold.Text.Basic

namespace Scaffold

/-- The number `± digits * 10 ^ exponent`. -/
structure Numeral where
  negative : Bool
  digits : Nat
  exponent : Int
  deriving DecidableEq, Repr

namespace Numeral

/-- A sign at the front of a text, if there is one: whether it is a minus, and the text after it. -/
def readSign : Text → Bool × Text
  | '-' :: rest => (true, rest)
  | '+' :: rest => (false, rest)
  | text => (false, text)

/-- The value of a row of digits. -/
def valueOf (digits : Text) : Nat :=
  digits.foldl (fun value digit => value * 10 + (digit.toNat - '0'.toNat)) 0

/-- A whole number from `-2 ^ 63` up to `2 ^ 63 - 1`. -/
def signedWord? (value : Int) : Option Int :=
  if -9223372036854775808 ≤ value ∧ value ≤ 9223372036854775807 then some value else none

/-- Whether a text is one digit or more. -/
def isDigits (text : Text) : Bool := !text.isEmpty && text.all Char.isDigit

/-- The exponent that the end of a numeral gives: none is zero. -/
def readExponent? : Text → Option Int
  | [] => some 0
  | mark :: rest =>
    if mark = 'e' ∨ mark = 'E' then
      let (negative, digits) := readSign rest
      if isDigits digits then
        some (if negative then -(valueOf digits : Int) else valueOf digits)
      else none
    else none

/-- The numeral that a text is. -/
def ofText? (text : Text) : Option Numeral := do
  let (negative, unsigned) := readSign text
  let whole := unsigned.takeWhile Char.isDigit
  let (fraction, ending) :=
    match unsigned.dropWhile Char.isDigit with
    | '.' :: rest => (rest.takeWhile Char.isDigit, rest.dropWhile Char.isDigit)
    | other => ([], other)
  if whole.isEmpty && fraction.isEmpty then none
  else
    let exponent ← readExponent? ending
    return ⟨negative, valueOf (whole ++ fraction), exponent - fraction.length⟩

/-- The double nearest to a numeral; nothing when it is beyond the greatest double. Exponents that
decide alone are sorted out first: a number of `n` digits is below `10 ^ n`. -/
def toBinary64? (numeral : Numeral) : Option Binary64 :=
  let digitCount := (Nat.toDigits 10 numeral.digits).length
  if numeral.digits = 0 then some (.zero numeral.negative)
  else if 310 < numeral.exponent then none
  else if numeral.exponent + digitCount < -330 then some (.zero numeral.negative)
  else if 0 ≤ numeral.exponent then
    Binary64.ofRatio? numeral.negative (numeral.digits * Nat.pow 10 numeral.exponent.toNat) 1
  else Binary64.ofRatio? numeral.negative numeral.digits (Nat.pow 10 (-numeral.exponent).toNat)

end Numeral

end Scaffold
