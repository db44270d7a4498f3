/-
**Integer literals.**

A literal has digits in base ten, or in base sixteen after `0x`, and then letters of a suffix that
do not count. Values are 64-bit integers, so a magnitude above `2 ^ 63 - 1` has no value.
-/

import Scaffold.Token.Lexer

namespace Scaffold

/-- The greatest value of a member, `2 ^ 63 - 1`. -/
def greatestOrdinal : Int := 9223372036854775807

namespace Literal

/-- The value of a digit. -/
def digitValue? (base : Nat) (char : Char) : Option Nat :=
  let value :=
    if char.isDigit then some (char.toNat - '0'.toNat)
    else if 'a' ≤ char ∧ char ≤ 'f' then some (char.toNat - 'a'.toNat + 10)
    else if 'A' ≤ char ∧ char ≤ 'F' then some (char.toNat - 'A'.toNat + 10)
    else none
  value.filter (· < base)

/-- The number that digits stand for after a number already read. -/
def digitsValue? (base : Nat) (start : Nat) : Text → Option Nat
  | [] => some start
  | char :: rest =>
    (digitValue? base char).bind fun digit => digitsValue? base (start * base + digit) rest

/-- The magnitude that a literal stands for. -/
def magnitude? (literal : Text) : Option Nat :=
  let digits := literal.dropEndWhile Token.isNumberSuffix
  match digits with
  | '0' :: 'x' :: hex | '0' :: 'X' :: hex => if hex = [] then none else digitsValue? 16 0 hex
  | _ => if digits = [] then none else digitsValue? 10 0 digits

/-- The value of a literal, if it is one of a member. -/
def value? (literal : Text) : Option Int :=
  ((magnitude? literal).map Int.ofNat).filter (· ≤ greatestOrdinal)

end Literal

end Scaffold
