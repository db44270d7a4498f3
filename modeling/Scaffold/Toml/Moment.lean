/-
**Dates and times of a TOML document.**

A moment is a date, a time, or both with an optional offset from universal time. It is a value only
by its text, so reading one gives the text in its usual form: `T` between date and time, no needless
zeros in a fraction of a second, `Z` or a signed offset at the end.

A moment that is a value of a document keeps to strict limits. One that is the text of a string is
held to looser ones: the hour 24 and an offset of a whole day pass, and a space may stand for `T`.
-/

import Scaffold.Decimal.Numeral

namespace Scaffold.Toml

/-- The value of a text of exactly `width` digits. -/
def fixedDigits? (width : Nat) (text : Text) : Option Nat :=
  if text.length = width ∧ text.all Char.isDigit = true then some (Numeral.valueOf text) else none

/-- A number in at least two digits. -/
def twoDigits (number : Nat) : Text :=
  [Nat.digitChar (number / 10 % 10), Nat.digitChar (number % 10)]

/-- Whether a year has a leap day. -/
def isLeapYear (year : Nat) : Bool :=
  year % 4 == 0 && (year % 100 != 0 || year % 400 == 0)

/-- The number of days in a month. -/
def daysIn (year month : Nat) : Nat :=
  if month = 2 then if isLeapYear year then 29 else 28
  else if month = 4 ∨ month = 6 ∨ month = 9 ∨ month = 11 then 30
  else 31

/-- The date that a text is. -/
def date? : Text → Option Text
  | [y1, y2, y3, y4, '-', m1, m2, '-', d1, d2] => do
    let year ← fixedDigits? 4 [y1, y2, y3, y4]
    let month ← fixedDigits? 2 [m1, m2]
    let day ← fixedDigits? 2 [d1, d2]
    if 1 ≤ month ∧ month ≤ 12 ∧ 1 ≤ day ∧ day ≤ daysIn year month then
      some [y1, y2, y3, y4, '-', m1, m2, '-', d1, d2]
    else none
  | _ => none

/-- The first nine digits of a fraction of a second without the zeros at their end, after a point
if there are any. -/
def fractionText (digits : Text) : Text :=
  match Text.dropEndWhile (fun digit => digit == '0') (digits.take 9) with
  | [] => []
  | kept => '.' :: kept

/-- How far the numbers of a moment go. -/
structure MomentLimits where
  /-- The greatest hour of a time of day. -/
  hour : Nat
  /-- The greatest number of minutes beside the hours of an offset. -/
  offsetMinute : Nat
  /-- The greatest number of minutes that an offset amounts to. -/
  offset : Nat
  deriving DecidableEq, Repr

namespace MomentLimits

/-- The limits of a moment in a document. -/
def strict : MomentLimits := ⟨23, 59, 1439⟩

/-- The limits of a text that is to be a moment. -/
def loose : MomentLimits := ⟨24, 99, 1440⟩

end MomentLimits

/-- The time of day that a text is. -/
def time? (limits : MomentLimits) : Text → Option Text
  | h1 :: h2 :: ':' :: m1 :: m2 :: ':' :: s1 :: s2 :: rest => do
    let hour ← fixedDigits? 2 [h1, h2]
    let minute ← fixedDigits? 2 [m1, m2]
    let second ← fixedDigits? 2 [s1, s2]
    if hour ≤ limits.hour ∧ minute ≤ 59 ∧ second ≤ 60 then
      let whole := [h1, h2, ':', m1, m2, ':', s1, s2]
      match rest with
      | [] => some whole
      | '.' :: digits =>
        if Numeral.isDigits digits then some (whole ++ fractionText digits) else none
      | _ => none
    else none
  | _ => none

/-- The offset that a text is. One of no minutes has a plus. -/
def offset? (limits : MomentLimits) : Text → Option Text
  | ['Z'] => some ['Z']
  | ['z'] => some ['Z']
  | [sign, h1, h2, ':', m1, m2] => do
    let hours ← fixedDigits? 2 [h1, h2]
    let minutes ← fixedDigits? 2 [m1, m2]
    let total := hours * 60 + minutes
    if minutes ≤ limits.offsetMinute ∧ total ≤ limits.offset ∧ (sign = '+' ∨ sign = '-') then
      let shown := if total = 0 then '+' else sign
      some (shown :: twoDigits (total / 60) ++ ':' :: twoDigits (total % 60))
    else none
  | _ => none

/-- The time of day with an optional offset that a text is. -/
def offsetTime? (limits : MomentLimits) (text : Text) : Option Text :=
  let starts (char : Char) : Bool := char == 'Z' || char == 'z' || char == '+' || char == '-'
  let clock := text.takeWhile fun char => !starts char
  match text.dropWhile fun char => !starts char with
  | [] => time? limits clock
  | shift => do return (← time? limits clock) ++ (← offset? limits shift)

/-- The date and time that a text is, with one of some characters between them. -/
def dateTime? (limits : MomentLimits) (separators : List Char) (text : Text) : Option Text :=
  match text.drop 10 with
  | separator :: clock =>
    if separators.contains separator then do
      return (← date? (text.take 10)) ++ 'T' :: (← offsetTime? limits clock)
    else none
  | [] => none

/-- The moment that a word of a document is. -/
def moment? (text : Text) : Option Text :=
  (date? text).or ((time? .strict text).or (dateTime? .strict ['T', 't'] text))

/-- The moment that the text of a string is. -/
def spelledMoment? (text : Text) : Option Text :=
  (date? text).or ((time? .loose text).or (dateTime? .loose ['T', 't', ' '] text))

end Scaffold.Toml
