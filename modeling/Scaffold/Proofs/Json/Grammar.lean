/-
**The texts that are JSON.**

A value is written as a word, a number, a string, a list or an object. Nothing is asked here of how
deep a value is nested, of how large a number is, or of what a string stands for, so these are more
texts than the reader accepts. A scan for the end of a group knows brackets and double quotes only,
and it finds its way through all of them:

* `isNeutral_of_written`: each part of such a text is passed and changes nothing;
* `groupFrom_of_written`: the group that the brace of an object opens is the object.
-/

import Scaffold.Proofs.Json.Groups

namespace Scaffold.Json

open Excerpt (Nesting closerOf?)

/-! ### What may be written -/

/-- The blanks of JSON, or nothing. -/
def IsSpaces (text : Text) : Prop := ∀ char ∈ text, isSpace char = true

/-- What may follow the backslash of an escape of one character. -/
def escapeMarks : List Char := ['"', '\\', '/', 'b', 'f', 'n', 'r', 't']

/-- The characters of a string and the quote that ends it. Four hexadecimal digits may be any, also
those of half a pair. -/
inductive IsStringBody : Text → Prop
  | ended : IsStringBody ['"']
  | char {char : Char} {rest : Text} : char ≠ '"' → char ≠ '\\' → ¬ char.toNat < 0x20 →
      IsStringBody rest → IsStringBody (char :: rest)
  | escape {mark : Char} {rest : Text} : mark ∈ escapeMarks → IsStringBody rest →
      IsStringBody ('\\' :: mark :: rest)
  | unicode {digits rest : Text} : digits.length = 4 →
      (∀ digit ∈ digits, (hexValue? digit).isSome = true) → IsStringBody rest →
      IsStringBody ('\\' :: 'u' :: (digits ++ rest))

/-- At least one digit. -/
def IsDigits (text : Text) : Prop := text ≠ [] ∧ ∀ char ∈ text, char.isDigit = true

/-- The digits before the point; a zero comes first only if it is the only one. -/
inductive IsWhole : Text → Prop
  | zero : IsWhole ['0']
  | digits {first : Char} {rest : Text} : first ≠ '0' → IsDigits (first :: rest) →
      IsWhole (first :: rest)

/-- The point and the digits after it, or nothing. -/
inductive IsFraction : Text → Prop
  | absent : IsFraction []
  | point {digits : Text} : IsDigits digits → IsFraction ('.' :: digits)

/-- The exponent, or nothing. -/
inductive IsExponent : Text → Prop
  | absent : IsExponent []
  | mark {letter : Char} {sign digits : Text} : letter ∈ ['e', 'E'] → sign ∈ [[], ['+'], ['-']] →
      IsDigits digits → IsExponent (letter :: (sign ++ digits))

/-- A number. -/
inductive IsNumber : Text → Prop
  | parts {minus whole fraction exponent : Text} : minus ∈ [[], ['-']] → IsWhole whole →
      IsFraction fraction → IsExponent exponent →
      IsNumber (minus ++ (whole ++ (fraction ++ exponent)))

/-- What a text is written for. -/
inductive Part where
  | value
  | list
  | object
  /-- A value with the blanks around it. -/
  | item
  | items
  /-- A key and an item, with the blanks around the key. -/
  | member
  | members

/-- The text is written for a part of a literal. -/
inductive Written : Part → Text → Prop
  | word {text : Text} : text ∈ ["null".toList, "true".toList, "false".toList] → Written .value text
  | number {text : Text} : IsNumber text → Written .value text
  | string {body : Text} : IsStringBody body → Written .value ('"' :: body)
  | ofList {text : Text} : Written .list text → Written .value text
  | ofObject {text : Text} : Written .object text → Written .value text
  | emptyList {blanks : Text} : IsSpaces blanks → Written .list ('[' :: (blanks ++ [']']))
  | list {inner : Text} : Written .items inner → Written .list ('[' :: (inner ++ [']']))
  | emptyObject {blanks : Text} : IsSpaces blanks →
      Written .object ('\x7b' :: (blanks ++ ['\x7d']))
  | object {inner : Text} : Written .members inner → Written .object ('\x7b' :: (inner ++ ['\x7d']))
  | item {before text after : Text} : IsSpaces before → Written .value text → IsSpaces after →
      Written .item (before ++ (text ++ after))
  | lastItem {text : Text} : Written .item text → Written .items text
  | nextItem {text rest : Text} : Written .item text → Written .items rest →
      Written .items (text ++ ',' :: rest)
  | member {before key between value : Text} : IsSpaces before → IsStringBody key →
      IsSpaces between → Written .item value →
      Written .member (before ++ '"' :: (key ++ (between ++ ':' :: value)))
  | lastMember {text : Text} : Written .member text → Written .members text
  | nextMember {text rest : Text} : Written .member text → Written .members rest →
      Written .members (text ++ ',' :: rest)

/-! ### What a scan for the end of a group makes of it -/

theorem isInner_of_forall {digits : Text}
    (hex : ∀ digit ∈ digits, (hexValue? digit).isSome = true) : IsInner digits := by
  induction digits with
  | nil => exact isInner_nil
  | cons digit digits ih =>
    obtain ⟨first, others⟩ := List.forall_mem_cons.mp hex
    exact (isInner_of_isSome_hexValue? first).append (ih others)

/-- A string ends where a quote is met outside of an escape. -/
theorem IsStringBody.quotedFrom {body : Text} (written : IsStringBody body) :
    Text.QuotedFrom '"' body := by
  induction written with
  | ended => exact .ended
  | char noQuote noSlash _ _ ih => exact .char noQuote noSlash ih
  | escape _ _ ih => exact .escaped _ ih
  | unicode _ hex _ ih => exact .escaped 'u' (isInner_of_forall hex _ ih)

theorem IsNumeric.append {first second : Text} (numeric : IsNumeric first)
    (others : IsNumeric second) : IsNumeric (first ++ second) :=
  List.forall_mem_append.mpr ⟨numeric, others⟩

theorem IsNumber.isNumeric {text : Text} (number : IsNumber text) : IsNumeric text := by
  have signs : ∀ sign ∈ [[], ['+'], ['-']], IsNumeric sign := by
    simp only [List.forall_mem_cons]
    exact ⟨isNumeric_nil, isNumeric_nil.cons rfl, isNumeric_nil.cons rfl, nofun⟩
  obtain ⟨minus, whole, fraction, exponent⟩ := number
  refine .append (signs _ ?_) (.append ?_ (.append ?_ ?_))
  · exact (by decide : [[], ['-']] ⊆ [[], ['+'], ['-']]) minus
  · cases whole with
    | zero => exact isNumeric_nil.cons rfl
    | digits _ digits => exact isNumeric_of_isDigit digits.2
  · cases fraction with
    | absent => exact isNumeric_nil
    | point digits => exact (isNumeric_of_isDigit digits.2).cons rfl
  · cases exponent with
    | absent => exact isNumeric_nil
    | mark isLetter isSign digits =>
      have letter := List.all_eq_true.mp (by decide : ['e', 'E'].all isNumeral = true) _ isLetter
      exact ((signs _ isSign).append (isNumeric_of_isDigit digits.2)).cons letter

/-- **Whatever is written for a part of a literal** is passed by the scan for the end of a group. -/
theorem isNeutral_of_written {part : Part} {text : Text} (written : Written part text) :
    IsNeutral text := by
  have quoted : ∀ {body : Text}, IsStringBody body → IsNeutral ('"' :: body) := fun body =>
    Nesting.isNeutral_literal List.mem_cons_self (by decide) body.quotedFrom
  have comma : ∀ {rest : Text}, IsNeutral rest → IsNeutral (',' :: rest) :=
    isNeutral_char (by decide)
  induction written with
  | word known =>
    simp only [List.mem_cons, List.not_mem_nil, or_false] at known
    obtain rfl | rfl | rfl := known
    all_goals exact Nesting.isNeutral_of_forall (List.forall_iff_forall_mem.mp (by decide))
  | number number => exact isNeutral_of_isNumeric number.isNumeric
  | string body => exact quoted body
  | ofList _ ih | ofObject _ ih | lastItem _ ih | lastMember _ ih => exact ih
  | emptyList blanks | emptyObject blanks =>
    exact (isNeutral_of_isSpace blanks).group rfl (by decide) (by decide)
  | list _ ih | object _ ih => exact ih.group rfl (by decide) (by decide)
  | item before _ after ih =>
    exact (isNeutral_of_isSpace before).append (ih.append (isNeutral_of_isSpace after))
  | nextItem _ _ first others | nextMember _ _ first others => exact first.append (comma others)
  | member before key between _ ih =>
    exact (isNeutral_of_isSpace before).append ((quoted key).append
      ((isNeutral_of_isSpace between).append (isNeutral_char (by decide) ih)))

/-- **The group that the brace of an object opens** is the object, whatever follows it. -/
theorem groupFrom_of_written {literal : Text} (object : Written .object literal) (rest : Text) :
    Excerpt.groupFrom ['"'] .outside (literal ++ rest) = some (literal, rest) := by
  have grouped : ∀ {inner : Text}, IsNeutral inner →
      Excerpt.groupFrom ['"'] .outside ('\x7b' :: (inner ++ ['\x7d']) ++ rest) =
        some ('\x7b' :: (inner ++ ['\x7d']), rest) := by
    intro inner neutral
    rw [List.cons_append, List.append_assoc, List.singleton_append]
    exact Excerpt.groupFrom_of_isNeutral neutral rfl (by decide) (by decide) rest
  cases object with
  | emptyObject blanks => exact grouped (isNeutral_of_isSpace blanks)
  | object members => exact grouped (isNeutral_of_written members)

end Scaffold.Json
