/-
**The scalars of a JSON literal.**

Each reader takes the text at its place and gives the value with the text after it, or a `Stop`:
the problem and how many bytes of the literal are left when it is noticed. A scalar takes at least
one character (`scalar_shorter`), which is why reading ends.

A number with a fraction or an exponent is a double, and so is a whole number that fits no 64-bit
word. Its digits are taken into one 64-bit significand while they fit; further digits before the
point raise the exponent, those after it are dropped.
-/

import Scaffold.Json.Basic
import Scaffold.Json.Problem

namespace Scaffold.Json

/-- Why and where reading stopped: `left` counts the bytes not yet read. -/
structure Stop where
  problem : Problem
  left : Nat
  deriving DecidableEq, Repr

/-- Stops before the next character. -/
def stopBefore {α : Type} (problem : Problem) (rest : Text) : Except Stop α :=
  .error ⟨problem, rest.size⟩

/-- Stops one byte into the next character, which is the one that does not fit. -/
def stopIn {α : Type} (problem : Problem) (rest : Text) : Except Stop α :=
  .error ⟨problem, rest.size - 1⟩

/-- The blanks of JSON. -/
def isSpace (char : Char) : Bool :=
  char == ' ' || char == '\n' || char == '\t' || char == '\r'

/-- The text without blanks at its start. -/
def skipSpace (text : Text) : Text := text.dropWhile isSpace

theorem skipSpace_length (text : Text) : (skipSpace text).length ≤ text.length :=
  (List.dropWhile_sublist _).length_le

/-- The rest of one of the words `null`, `true` and `false`. -/
def word : (expected text : Text) → Except Stop Text
  | [], rest => .ok rest
  | _ :: _, [] => stopBefore .unfinishedValue []
  | char :: expected, next :: rest =>
    if char = next then word expected rest else stopIn .wrongWord (next :: rest)

/-- The value of a hexadecimal digit. -/
def hexValue? (char : Char) : Option Nat :=
  if '0' ≤ char ∧ char ≤ '9' then some (char.toNat - '0'.toNat)
  else if 'a' ≤ char ∧ char ≤ 'f' then some (char.toNat - 'a'.toNat + 10)
  else if 'A' ≤ char ∧ char ≤ 'F' then some (char.toNat - 'A'.toNat + 10)
  else none

/-- The four hexadecimal digits of an escape. -/
def hexUnit : Text → Except Stop (Nat × Text)
  | first :: second :: third :: fourth :: rest =>
    match hexValue? first, hexValue? second, hexValue? third, hexValue? fourth with
    | some a, some b, some c, some d => .ok (((a * 16 + b) * 16 + c) * 16 + d, rest)
    | _, _, _, _ =>
      .error ⟨.invalidEscape, Text.size (first :: second :: third :: fourth :: rest) - 4⟩
  | short =>
    if Text.size short < 4 then .error ⟨.unfinishedString, 0⟩
    else .error ⟨.invalidEscape, Text.size short - 4⟩

/-- The character of an escape with hexadecimal digits; two surrogates make one character. -/
def unicodeEscape (text : Text) : Except Stop (Char × Text) := do
  let (unit, rest) ← hexUnit text
  if 0xDC00 ≤ unit ∧ unit ≤ 0xDFFF then stopBefore .loneSurrogate rest
  else if unit < 0xD800 ∨ 0xDBFF < unit then .ok (Char.ofNat unit, rest)
  else match rest with
    | [] => stopBefore .unfinishedString []
    | '\\' :: [] => stopBefore .unfinishedString []
    | '\\' :: 'u' :: more =>
      let (low, rest) ← hexUnit more
      if low < 0xDC00 ∨ 0xDFFF < low then stopBefore .loneSurrogate rest
      else .ok (Char.ofNat (0x10000 + (unit - 0xD800) * 0x400 + (low - 0xDC00)), rest)
    | '\\' :: other => stopIn .unfinishedSurrogatePair other
    | other => stopIn .unfinishedSurrogatePair other

/-- The character of an escape, after its backslash. -/
def escape : Text → Except Stop (Char × Text)
  | [] => stopBefore .unfinishedString []
  | '"' :: rest => .ok ('"', rest)
  | '\\' :: rest => .ok ('\\', rest)
  | '/' :: rest => .ok ('/', rest)
  | 'b' :: rest => .ok ('\x08', rest)
  | 'f' :: rest => .ok ('\x0c', rest)
  | 'n' :: rest => .ok ('\n', rest)
  | 'r' :: rest => .ok ('\r', rest)
  | 't' :: rest => .ok ('\t', rest)
  | 'u' :: rest => unicodeEscape rest
  | other => stopIn .invalidEscape other

theorem hexUnit_shorter {text rest : Text} {unit : Nat} (found : hexUnit text = .ok (unit, rest)) :
    rest.length < text.length := by
  unfold hexUnit at found
  split at found
  · split at found
    · simp only [Except.ok.injEq, Prod.mk.injEq] at found
      obtain ⟨-, rfl⟩ := found
      simp only [List.length_cons]
      omega
    · simp at found
  · split at found <;> simp at found

theorem unicodeEscape_shorter {text rest : Text} {char : Char}
    (found : unicodeEscape text = .ok (char, rest)) : rest.length < text.length := by
  unfold unicodeEscape at found
  cases first : hexUnit text with
  | error stop => simp [first, bind, Except.bind] at found
  | ok unit =>
      obtain ⟨unit, after⟩ := unit
      have shorter := hexUnit_shorter first
      simp only [first, bind, Except.bind] at found
      split at found
      · simp [stopBefore] at found
      · split at found
        · simp only [Except.ok.injEq, Prod.mk.injEq] at found
          obtain ⟨-, rfl⟩ := found
          exact shorter
        · split at found
          · simp [stopBefore] at found
          · simp [stopBefore] at found
          · rename_i more
            cases second : hexUnit more with
            | error stop => simp [second] at found
            | ok low =>
                obtain ⟨low, final⟩ := low
                have := hexUnit_shorter second
                simp only [second] at found
                split at found
                · simp [stopBefore] at found
                · simp only [Except.ok.injEq, Prod.mk.injEq] at found
                  obtain ⟨-, rfl⟩ := found
                  simp only [List.length_cons] at shorter
                  omega
          · simp [stopIn] at found
          · simp [stopIn] at found

theorem escape_shorter {text rest : Text} {char : Char} (found : escape text = .ok (char, rest)) :
    rest.length < text.length := by
  unfold escape at found
  split at found
  case h_1 => simp [stopBefore] at found
  case h_10 =>
    have := unicodeEscape_shorter found
    simp only [List.length_cons]
    omega
  case h_11 => simp [stopIn] at found
  all_goals
    simp only [Except.ok.injEq, Prod.mk.injEq] at found
    obtain ⟨-, rfl⟩ := found
    simp

/-- The characters of a string, after its opening quote. -/
def stringBody (text : Text) : Except Stop (Text × Text) :=
  match text with
  | [] => stopBefore .unfinishedString []
  | '"' :: rest => .ok ([], rest)
  | '\\' :: rest =>
    match found : escape rest with
    | .error stop => .error stop
    | .ok (char, after) =>
      have := escape_shorter found
      (stringBody after).map fun body => (char :: body.1, body.2)
  | char :: rest =>
    if char.toNat < 0x20 then stopIn .controlCharacter (char :: rest)
    else (stringBody rest).map fun body => (char :: body.1, body.2)
  termination_by text.length

theorem stringBody_shorter {text body rest : Text} (found : stringBody text = .ok (body, rest)) :
    rest.length < text.length := by
  fun_induction stringBody text generalizing body with
  | case1 => simp [stopBefore] at found
  | case2 rest' =>
      simp only [Except.ok.injEq, Prod.mk.injEq] at found
      obtain ⟨-, rfl⟩ := found
      simp
  | case3 => simp at found
  | case4 rest' char after escaped shorter ih =>
      cases inner : stringBody after with
      | error stop => simp [inner, Except.map] at found
      | ok pair =>
          simp only [inner, Except.map, Except.ok.injEq, Prod.mk.injEq] at found
          obtain ⟨read, after⟩ := pair
          have := @ih read (by rw [inner, ← found.2])
          simp only [List.length_cons]
          omega
  | case5 => simp [stopIn] at found
  | case6 char rest' _ _ _ ih =>
      cases inner : stringBody rest' with
      | error stop => simp [inner, Except.map] at found
      | ok pair =>
          simp only [inner, Except.map, Except.ok.injEq, Prod.mk.injEq] at found
          obtain ⟨read, after⟩ := pair
          have := @ih read (by rw [inner, ← found.2])
          simp only [List.length_cons]
          omega

/-- The greatest significand that is kept, `2 ^ 64 - 1`. -/
def greatestWord : Nat := 18446744073709551615

/-- The value of a decimal digit. -/
def digitValue (char : Char) : Nat := char.toNat - '0'.toNat

/-- Takes digits into a significand while they fit below `limit`. -/
def takeDigits (limit significand : Nat) : Text → Nat × Text
  | [] => (significand, [])
  | char :: rest =>
    if char.isDigit ∧ significand * 10 + digitValue char ≤ limit then
      takeDigits limit (significand * 10 + digitValue char) rest
    else (significand, char :: rest)

theorem takeDigits_length (limit significand : Nat) (text : Text) :
    (takeDigits limit significand text).2.length ≤ text.length := by
  induction text generalizing significand with
  | nil => simp [takeDigits]
  | cons char rest ih =>
      simp only [takeDigits]
      split
      · have := ih (significand * 10 + digitValue char)
        simp only [List.length_cons]
        omega
      · simp

/-- The text without digits at its start. -/
def skipDigits (text : Text) : Text := text.dropWhile Char.isDigit

/-- Whether a digit comes next. -/
def startsWithDigit : Text → Bool
  | [] => false
  | char :: _ => char.isDigit

/-- The double `10 ^ power`, for a power that a double reaches. -/
def powerOfTen (power : Nat) : Binary64 :=
  (Binary64.ofRatio? false (Nat.pow 10 power) 1).getD (.zero false)

/-- The greatest power of ten that one multiplication or division uses. -/
def greatestPower : Nat := 308

/-- Divides by a power of ten in steps of at most `10 ^ 308`, each of them rounded. -/
def divideByPower (number : Binary64) (power : Nat) : Binary64 :=
  if power ≤ greatestPower then (number.divide? (powerOfTen power)).getD number
  else if number.isZero then number
  else
    divideByPower ((number.divide? (powerOfTen greatestPower)).getD number)
      (power - greatestPower)
  termination_by power
  decreasing_by simp only [greatestPower] at *; omega

/-- The double `significand * 10 ^ exponent`: the significand is rounded, then scaled. -/
def scaleByTen (significand : Nat) (exponent : Int) : Option Binary64 := do
  let number ← Binary64.ofRatio? false significand 1
  if exponent < 0 then return divideByPower number (-exponent).toNat
  else if exponent.toNat ≤ greatestPower then number.multiply? (powerOfTen exponent.toNat)
  else if number.isZero then return number
  else none

/-- A double from the parts of a number; `rest` follows the number. -/
def finishReal (negative : Bool) (significand : Nat) (exponent : Int) (rest : Text) :
    Except Stop (Number × Text) :=
  match scaleByTen significand exponent with
  | some magnitude => .ok (.real (magnitude.withSign negative), rest)
  | none => stopBefore .numberOutOfRange rest

/-- The greatest exponent that is kept, `2 ^ 31 - 1`. -/
def greatestExponent : Nat := 2147483647

/-- An exponent, after its letter. -/
def exponentPart (negative : Bool) (significand : Nat) (start : Int) (text : Text) :
    Except Stop (Number × Text) :=
  let (raises, digits) : Bool × Text := match text with
    | '+' :: rest => (true, rest)
    | '-' :: rest => (false, rest)
    | other => (true, other)
  match digits with
  | [] => stopBefore .unfinishedValue []
  | first :: rest =>
    if !first.isDigit then stopIn .invalidNumber (first :: rest)
    else
      let (exponent, after) := takeDigits greatestExponent (digitValue first) rest
      match after with
      | next :: later =>
        if next.isDigit then
          if significand ≠ 0 ∧ raises then stopBefore .numberOutOfRange later
          else .ok (.real (.zero negative), skipDigits later)
        else
          finishReal negative significand (if raises then start + exponent else start - exponent)
            after
      | [] =>
        finishReal negative significand (if raises then start + exponent else start - exponent) []

/-- An exponent, if one comes next; the number is complete otherwise. -/
def exponentOrEnd (negative : Bool) (significand : Nat) (exponent : Int) :
    Text → Except Stop (Number × Text)
  | 'e' :: rest => exponentPart negative significand exponent rest
  | 'E' :: rest => exponentPart negative significand exponent rest
  | rest => finishReal negative significand exponent rest

/-- A fraction, after its point. `raised` is the exponent that digits before the point left. -/
def fractionPart (negative : Bool) (significand : Nat) (raised : Int) (text : Text) :
    Except Stop (Number × Text) :=
  let (taken, after) := takeDigits greatestWord significand text
  let exponent := raised - ((text.length - after.length : Nat) : Int)
  if startsWithDigit after then exponentOrEnd negative taken exponent (skipDigits after)
  else if after.length = text.length then
    match after with
    | [] => stopBefore .unfinishedValue []
    | other => stopIn .invalidNumber other
  else exponentOrEnd negative taken exponent after

/-- What follows the digits before the point, when they are all in the significand. -/
def integerEnd (negative : Bool) (significand : Nat) : Text → Except Stop (Number × Text)
  | '.' :: rest => fractionPart negative significand 0 rest
  | 'e' :: rest => exponentPart negative significand 0 rest
  | 'E' :: rest => exponentPart negative significand 0 rest
  | rest =>
    if !negative then .ok (.integer significand, rest)
    else if 1 ≤ significand ∧ significand ≤ 9223372036854775808 then
      .ok (.integer (-significand), rest)
    else finishReal true significand 0 rest

/-- A number, after its sign. -/
def numeral (negative : Bool) : Text → Except Stop (Number × Text)
  | [] => stopBefore .unfinishedValue []
  | '0' :: rest =>
    if startsWithDigit rest then stopIn .invalidNumber rest else integerEnd negative 0 rest
  | first :: rest =>
    if !first.isDigit then stopIn .invalidNumber (first :: rest)
    else
      let (significand, after) := takeDigits greatestWord (digitValue first) rest
      if startsWithDigit after then
        let later := skipDigits after
        let raised := ((after.length - later.length : Nat) : Int)
        match later with
        | '.' :: fraction => fractionPart negative significand raised fraction
        | other => exponentOrEnd negative significand raised other
      else integerEnd negative significand after

/-- A value that holds no other values. -/
def scalar : Text → Except Stop (Json × Text)
  | [] => stopBefore .unfinishedValue []
  | 'n' :: rest => (word "ull".toList rest).map fun after => (.null, after)
  | 't' :: rest => (word "rue".toList rest).map fun after => (.bool true, after)
  | 'f' :: rest => (word "alse".toList rest).map fun after => (.bool false, after)
  | '"' :: rest => (stringBody rest).map fun body => (.string body.1, body.2)
  | '-' :: rest => (numeral true rest).map fun read => (.number read.1, read.2)
  | first :: rest =>
    if first.isDigit then (numeral false (first :: rest)).map fun read => (.number read.1, read.2)
    else stopIn .missingValue (first :: rest)

theorem word_length {expected text rest : Text} (found : word expected text = .ok rest) :
    rest.length ≤ text.length := by
  induction expected generalizing text with
  | nil => simp only [word, Except.ok.injEq] at found; subst found; exact Nat.le_refl _
  | cons char expected ih =>
      cases text with
      | nil => simp [word, stopBefore] at found
      | cons next text =>
          simp only [word] at found
          split at found
          · have := ih found
            simp only [List.length_cons]
            omega
          · simp [stopIn] at found

theorem skipDigits_length (text : Text) : (skipDigits text).length ≤ text.length :=
  (List.dropWhile_sublist _).length_le

theorem finishReal_rest {negative : Bool} {significand : Nat} {exponent : Int} {text rest : Text}
    {result : Number} (found : finishReal negative significand exponent text = .ok (result, rest)) :
    rest = text := by
  unfold finishReal at found
  split at found
  · simp only [Except.ok.injEq, Prod.mk.injEq] at found
    exact found.2.symm
  · simp [stopBefore] at found

theorem exponentPart_length {negative : Bool} {significand : Nat} {start : Int} {text rest : Text}
    {result : Number} (found : exponentPart negative significand start text = .ok (result, rest)) :
    rest.length ≤ text.length := by
  unfold exponentPart at found
  split at found
  rename_i raises digits signed
  have bounded : digits.length ≤ text.length := by
    split at signed <;> simp only [Prod.mk.injEq] at signed <;> obtain ⟨-, rfl⟩ := signed <;> simp
  split at found
  · simp [stopBefore] at found
  · rename_i first more
    split at found
    · simp [stopIn] at found
    · have taken := takeDigits_length greatestExponent (digitValue first) more
      simp only [List.length_cons] at bounded
      split at found
      rename_i exponent after same
      rw [same] at taken
      split at found
      · rename_i next later
        simp only [List.length_cons] at taken
        split at found
        · split at found
          · simp [stopBefore] at found
          · simp only [Except.ok.injEq, Prod.mk.injEq] at found
            obtain ⟨-, rfl⟩ := found
            have := skipDigits_length later
            omega
        · have := finishReal_rest found
          subst this
          simp only [List.length_cons]
          omega
      · have := finishReal_rest found
        subst this
        simp

theorem exponentOrEnd_length {negative : Bool} {significand : Nat} {exponent : Int}
    {text rest : Text} {result : Number}
    (found : exponentOrEnd negative significand exponent text = .ok (result, rest)) :
    rest.length ≤ text.length := by
  unfold exponentOrEnd at found
  split at found
  · have := exponentPart_length found
    simp only [List.length_cons]
    omega
  · have := exponentPart_length found
    simp only [List.length_cons]
    omega
  · exact Nat.le_of_eq (congrArg List.length (finishReal_rest found))

theorem fractionPart_length {negative : Bool} {significand : Nat} {raised : Int} {text rest : Text}
    {result : Number} (found : fractionPart negative significand raised text = .ok (result, rest)) :
    rest.length ≤ text.length := by
  unfold fractionPart at found
  have taken := takeDigits_length greatestWord significand text
  split at found
  rename_i significand' after same
  rw [same] at taken
  simp only at found taken
  split at found
  · have := exponentOrEnd_length found
    have := skipDigits_length after
    omega
  · split at found
    · split at found
      · simp [stopBefore] at found
      · simp [stopIn] at found
    · have := exponentOrEnd_length found
      omega

theorem integerEnd_length {negative : Bool} {significand : Nat} {text rest : Text}
    {result : Number} (found : integerEnd negative significand text = .ok (result, rest)) :
    rest.length ≤ text.length := by
  unfold integerEnd at found
  split at found
  · have := fractionPart_length found
    simp only [List.length_cons]
    omega
  · have := exponentPart_length found
    simp only [List.length_cons]
    omega
  · have := exponentPart_length found
    simp only [List.length_cons]
    omega
  · split at found
    · simp only [Except.ok.injEq, Prod.mk.injEq] at found
      exact Nat.le_of_eq (congrArg List.length found.2.symm)
    · split at found
      · simp only [Except.ok.injEq, Prod.mk.injEq] at found
        exact Nat.le_of_eq (congrArg List.length found.2.symm)
      · exact Nat.le_of_eq (congrArg List.length (finishReal_rest found))

theorem numeral_shorter {negative : Bool} {text rest : Text} {result : Number}
    (found : numeral negative text = .ok (result, rest)) : rest.length < text.length := by
  unfold numeral at found
  split at found
  · simp [stopBefore] at found
  · split at found
    · simp [stopIn] at found
    · have := integerEnd_length found
      simp only [List.length_cons]
      omega
  · rename_i first more _
    split at found
    · simp [stopIn] at found
    · have taken := takeDigits_length greatestWord (digitValue first) more
      split at found
      rename_i significand after same
      rw [same] at taken
      simp only [List.length_cons]
      simp only at found taken
      have skipped := skipDigits_length after
      split at found
      · split at found
        · rename_i fraction later
          have := fractionPart_length found
          rw [later, List.length_cons] at skipped
          omega
        · have := exponentOrEnd_length found
          omega
      · have := integerEnd_length found
        omega

/-- A scalar takes at least one character. -/
theorem scalar_shorter {text rest : Text} {result : Json}
    (found : scalar text = .ok (result, rest)) : rest.length < text.length := by
  have mapped : ∀ {α : Type} {read : Except Stop (α × Text)} {encode : α → Json},
      (read.map fun pair => (encode pair.1, pair.2)) = .ok (result, rest) →
      ∃ item, read = .ok (item, rest) := by
    intro α read encode same
    cases read with
    | error stop => simp [Except.map] at same
    | ok pair =>
        simp only [Except.map, Except.ok.injEq, Prod.mk.injEq] at same
        exact ⟨pair.1, by rw [← same.2]⟩
  have named : ∀ {expected more : Text} {value : Json},
      ((word expected more).map fun after => (value, after)) = .ok (result, rest) →
      rest.length ≤ more.length := by
    intro expected more value same
    cases read : word expected more with
    | error stop => simp [read, Except.map] at same
    | ok after =>
        simp only [read, Except.map, Except.ok.injEq, Prod.mk.injEq] at same
        rw [← same.2]
        exact word_length read
  unfold scalar at found
  split at found
  · simp [stopBefore] at found
  · have := named found
    simp only [List.length_cons]
    omega
  · have := named found
    simp only [List.length_cons]
    omega
  · have := named found
    simp only [List.length_cons]
    omega
  · obtain ⟨body, read⟩ := @mapped _ _ Json.string found
    have := stringBody_shorter read
    simp only [List.length_cons]
    omega
  · obtain ⟨item, read⟩ := @mapped _ _ Json.number found
    have := numeral_shorter read
    simp only [List.length_cons]
    omega
  · split at found
    · obtain ⟨item, read⟩ := @mapped _ _ Json.number found
      exact numeral_shorter read
    · simp [stopIn] at found

end Scaffold.Json
