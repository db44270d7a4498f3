/-
**How far the reader of a number looks.**

A number is taken off a text up to the first character that is none of a number, whatever stands
behind that (`isLocal_numeral`). The parts of a number are readers on their own, of the digits, of a
fraction and of an exponent, and each of them is local.
-/

import Scaffold.Proofs.Json.Locality
import Scaffold.Proofs.Tag.Grammar

namespace Scaffold.Json

variable {α : Type} {good : Text → Prop} {read : Reader α}

/-! ### Numbers -/

/-- A character of a number. -/
def isNumeral (char : Char) : Bool := char.isDigit || char ∈ ['.', 'e', 'E', '+', '-']

/-- The text has characters of numbers only. -/
def IsNumeric (text : Text) : Prop := ∀ char ∈ text, isNumeral char = true

theorem isNumeric_nil : IsNumeric [] := fun _ absent => absurd absent List.not_mem_nil

theorem IsNumeric.cons {char : Char} {text : Text} (numeral : isNumeral char = true)
    (numeric : IsNumeric text) : IsNumeric (char :: text) :=
  List.forall_mem_cons.mpr ⟨numeral, numeric⟩

theorem isNumeric_of_isDigit {text : Text} (digits : ∀ char ∈ text, char.isDigit = true) :
    IsNumeric text := fun char member => by rw [isNumeral, digits char member, Bool.true_or]

/-- What is split off a text are characters of numbers, and what follows them decides where. -/
def SplitsLocally {γ : Type} (front : Text → γ × Text) : Prop :=
  ∀ text, ∃ taken, text = taken ++ (front text).2 ∧ IsNumeric taken ∧
    ∀ other, other.head? = (front text).2.head? → front (taken ++ other) = ((front text).1, other)

theorem takeDigits_splitsLocally (limit start : Nat) : SplitsLocally (takeDigits limit start) := by
  intro text
  induction text generalizing start with
  | nil =>
    refine ⟨[], rfl, isNumeric_nil, fun other head => ?_⟩
    rw [List.head?_eq_none_iff.mp head]
    rfl
  | cons char rest ih =>
    by_cases fits : char.isDigit = true ∧ start * 10 + digitValue char ≤ limit
    · obtain ⟨taken, split, numeric, again⟩ := ih (start * 10 + digitValue char)
      rw [takeDigits, if_pos fits]
      refine ⟨char :: taken, congrArg (char :: ·) split, numeric.cons ?_, fun other head => ?_⟩
      · rw [isNumeral, fits.1, Bool.true_or]
      · rw [List.cons_append, takeDigits, if_pos fits, again other head]
    · rw [takeDigits, if_neg fits]
      refine ⟨[], rfl, isNumeric_nil, fun other head => ?_⟩
      obtain ⟨after, rfl⟩ := List.head?_eq_some_iff.mp head
      rw [List.nil_append, takeDigits, if_neg fits]

theorem skipDigits_splitsLocally : SplitsLocally fun text => ((), skipDigits text) := by
  intro text
  obtain ⟨split, digits, stops⟩ := Tag.takeWhile_eq_and_dropWhile_eq_iff.mp
    ⟨(rfl : text.takeWhile Char.isDigit = _), (rfl : text.dropWhile Char.isDigit = _)⟩
  refine ⟨_, split, isNumeric_of_isDigit digits, fun other head => Prod.ext rfl ?_⟩
  refine (Tag.takeWhile_eq_and_dropWhile_eq_iff.mpr ⟨rfl, digits, fun char member => ?_⟩).2
  exact stops char (head ▸ member)

/-- What a reader takes after that may depend on what was split off and on how much it was. -/
theorem IsLocal.split {γ : Type} {front : Text → γ × Text} (splits : SplitsLocally front)
    {next : γ → Nat → Reader α} (isLocal : ∀ value count, IsLocal IsNumeric (next value count)) :
    IsLocal IsNumeric fun text =>
      next (front text).1 (text.length - (front text).2.length) (front text).2 := by
  intro text item rest found
  obtain ⟨first, split, numeric, again⟩ := splits text
  obtain ⟨taken, after, numericAfter, againAfter⟩ := isLocal _ _ _ item rest found
  refine ⟨first ++ taken, ?_, List.forall_mem_append.mpr ⟨numeric, numericAfter⟩,
    fun other head => ?_⟩
  · rw [List.append_assoc, ← after, ← split]
  · have read := again (taken ++ other) (by rw [after, head?_append_of_head? head])
    have count : (first ++ (taken ++ other)).length - (taken ++ other).length =
        text.length - (front text).2.length := by
      have whole := congrArg List.length split
      simp only [List.length_append] at whole ⊢
      omega
    dsimp only
    rw [List.append_assoc, read]
    dsimp only
    rw [count, againAfter other head]

theorem isLocal_finishReal (negative : Bool) (significand : Nat) (exponent : Int) :
    IsLocal IsNumeric (finishReal negative significand exponent) := by
  unfold finishReal
  cases scaleByTen significand exponent with
  | none => exact .stop fun text => ⟨.numberOutOfRange, text.size⟩
  | some magnitude => exact .stay isNumeric_nil _

/-- What follows the digits of an exponent that are taken into account. -/
def exponentEnd (negative : Bool) (significand : Nat) (start : Int) (raises : Bool)
    (exponent : Nat) (text : Text) : Except Stop (Number × Text) :=
  match text with
  | next :: later =>
    if next.isDigit then
      if significand ≠ 0 ∧ raises then stopBefore .numberOutOfRange later
      else .ok (.real (.zero negative), skipDigits later)
    else finishReal negative significand (if raises then start + exponent else start - exponent)
      text
  | [] => finishReal negative significand (if raises then start + exponent else start - exponent) []

/-- The digits of an exponent, after its sign. -/
def exponentDigits (negative : Bool) (significand : Nat) (start : Int) (raises : Bool) :
    Reader Number
  | [] => stopBefore .unfinishedValue []
  | first :: rest =>
    if !first.isDigit then stopIn .invalidNumber (first :: rest)
    else
      exponentEnd negative significand start raises
        (takeDigits greatestExponent (digitValue first) rest).1
        (takeDigits greatestExponent (digitValue first) rest).2

theorem exponentPart_eq (negative : Bool) (significand : Nat) (start : Int) (text : Text) :
    exponentPart negative significand start text =
      match text with
      | '+' :: rest => exponentDigits negative significand start true rest
      | '-' :: rest => exponentDigits negative significand start false rest
      | other => exponentDigits negative significand start true other := by
  unfold exponentDigits
  split
  · rfl
  · rfl
  · rename_i noPlus noMinus
    unfold exponentPart
    split
    rename_i signed
    split at signed
    · exact absurd rfl (noPlus _)
    · exact absurd rfl (noMinus _)
    · cases signed
      rfl

/-! #### The parts of a number -/

section Numbers

variable {char : Char}

theorem isNumeral_of_isDigit (digit : char.isDigit = true) : isNumeral char = true := by
  rw [isNumeral, digit, Bool.true_or]

theorem isLocal_skipDigits {next : Nat → Reader α}
    (isLocal : ∀ count, IsLocal IsNumeric (next count)) :
    IsLocal IsNumeric fun text =>
      next (text.length - (skipDigits text).length) (skipDigits text) :=
  .split skipDigits_splitsLocally fun _ => isLocal

theorem isLocal_exponentEnd (negative : Bool) (significand : Nat) (start : Int) (raises : Bool)
    (exponent : Nat) :
    IsLocal IsNumeric (exponentEnd negative significand start raises exponent) := by
  have ended := isLocal_finishReal negative significand
    (if raises then start + exponent else start - exponent)
  refine .of_head fun head => ?_
  cases head with
  | none =>
    refine .of_isLocal ended fun text nothing => ?_
    rw [List.head?_eq_none_iff.mp nothing]
    rfl
  | some char =>
    by_cases digit : char.isDigit = true
    · by_cases overflows : significand ≠ 0 ∧ raises = true
      · refine .past (.stop fun later => ⟨.numberOutOfRange, later.size⟩)
          (fun _ => .cons (isNumeral_of_isDigit digit)) fun rest => ?_
        rw [exponentEnd, if_pos digit, if_pos overflows]
        rfl
      · refine .past (isLocal_skipDigits fun _ => .stay isNumeric_nil (.real (.zero negative)))
          (fun _ => .cons (isNumeral_of_isDigit digit)) fun rest => ?_
        rw [exponentEnd, if_pos digit, if_neg overflows]
    · refine .of_isLocal ended fun text starts => ?_
      obtain ⟨rest, rfl⟩ := List.head?_eq_some_iff.mp starts
      rw [exponentEnd, if_neg digit]

theorem isLocal_exponentDigits (negative : Bool) (significand : Nat) (start : Int)
    (raises : Bool) :
    IsLocal IsNumeric (exponentDigits negative significand start raises) := by
  refine .of_head fun head => ?_
  cases head with
  | none =>
    refine .of_isLocal (.stop fun text => ⟨.unfinishedValue, text.size⟩) fun text nothing => ?_
    rw [List.head?_eq_none_iff.mp nothing]
    rfl
  | some char =>
    by_cases digit : char.isDigit = true
    · refine .past (.split (takeDigits_splitsLocally greatestExponent (digitValue char))
        fun exponent _ => isLocal_exponentEnd negative significand start raises exponent)
        (fun _ => .cons (isNumeral_of_isDigit digit)) fun rest => ?_
      rw [exponentDigits, digit, Bool.not_true, if_neg Bool.false_ne_true]
    · refine .of_isLocal (.stop fun text => ⟨.invalidNumber, text.size - 1⟩) fun text starts => ?_
      obtain ⟨rest, rfl⟩ := List.head?_eq_some_iff.mp starts
      rw [exponentDigits, Bool.eq_false_iff.mpr digit]
      rfl

theorem isLocal_exponentPart (negative : Bool) (significand : Nat) (start : Int) :
    IsLocal IsNumeric (exponentPart negative significand start) := by
  have isLocal := isLocal_exponentDigits negative significand start
  refine .of_head fun head => ?_
  by_cases plus : head = some '+'
  · rw [plus]
    exact .past (isLocal true) (fun _ => .cons (by decide)) fun rest => exponentPart_eq _ _ _ _
  · by_cases minus : head = some '-'
    · rw [minus]
      exact .past (isLocal false) (fun _ => .cons (by decide)) fun rest => exponentPart_eq _ _ _ _
    · refine .of_isLocal (isLocal true) fun text starts => ?_
      rw [exponentPart_eq]
      split
      · exact absurd starts.symm plus
      · exact absurd starts.symm minus
      · rfl

theorem isLocal_exponentOrEnd (negative : Bool) (significand : Nat) (exponent : Int) :
    IsLocal IsNumeric (exponentOrEnd negative significand exponent) := by
  have isLocal := isLocal_exponentPart negative significand exponent
  refine .of_head fun head => ?_
  by_cases small : head = some 'e'
  · rw [small]
    exact .past isLocal (fun _ => .cons (by decide)) fun rest => rfl
  · by_cases great : head = some 'E'
    · rw [great]
      exact .past isLocal (fun _ => .cons (by decide)) fun rest => rfl
    · refine .of_isLocal (isLocal_finishReal negative significand exponent) fun text starts => ?_
      unfold exponentOrEnd
      split
      · exact absurd starts.symm small
      · exact absurd starts.symm great
      · rfl

theorem startsWithDigit_eq (text : Text) : startsWithDigit text = text.head?.any Char.isDigit := by
  cases text <;> rfl

/-- A choice by whether a digit comes next. -/
theorem IsLocal.byDigit {first second : Reader α} (isLocal : IsLocal good first)
    (isLocalOther : IsLocal good second) :
    IsLocal good fun text => if startsWithDigit text then first text else second text := by
  refine .of_head fun head => ?_
  by_cases digit : head.any Char.isDigit = true
  · refine .of_isLocal isLocal fun text starts => if_pos ?_
    rw [startsWithDigit_eq, starts, digit]
  · refine .of_isLocal isLocalOther fun text starts => if_neg ?_
    rwa [startsWithDigit_eq, starts]

/-- What follows the digits of a fraction that are taken into account, and so many they are. -/
def fractionEnd (negative : Bool) (raised : Int) (significand count : Nat) (text : Text) :
    Except Stop (Number × Text) :=
  if startsWithDigit text then
    exponentOrEnd negative significand (raised - count) (skipDigits text)
  else if count = 0 then
    match text with
    | [] => stopBefore .unfinishedValue []
    | other => stopIn .invalidNumber other
  else exponentOrEnd negative significand (raised - count) text

theorem fractionPart_eq (negative : Bool) (significand : Nat) (raised : Int) (text : Text) :
    fractionPart negative significand raised text =
      fractionEnd negative raised (takeDigits greatestWord significand text).1
        (text.length - (takeDigits greatestWord significand text).2.length)
        (takeDigits greatestWord significand text).2 := by
  have shorter := takeDigits_length greatestWord significand text
  have nothing : (takeDigits greatestWord significand text).2.length = text.length ↔
      text.length - (takeDigits greatestWord significand text).2.length = 0 := by omega
  unfold fractionPart fractionEnd
  exact if_congr Iff.rfl rfl (if_congr nothing rfl rfl)

theorem isLocal_fractionPart (negative : Bool) (significand : Nat) (raised : Int) :
    IsLocal IsNumeric (fractionPart negative significand raised) := by
  have ends : ∀ taken count, IsLocal IsNumeric (fractionEnd negative raised taken count) := by
    intro taken count
    have isLocal := isLocal_exponentOrEnd negative taken (raised - count)
    refine .byDigit (isLocal_skipDigits fun _ => isLocal) ?_
    by_cases none : count = 0
    · simp only [none, if_true]
      intro text item rest found
      cases text <;> cases found
    · simp only [none, if_false]
      exact isLocal
  rw [funext (fractionPart_eq negative significand raised)]
  exact .split (takeDigits_splitsLocally greatestWord significand) ends

theorem isLocal_integerEnd (negative : Bool) (significand : Nat) :
    IsLocal IsNumeric (integerEnd negative significand) := by
  refine .of_head fun head => ?_
  by_cases point : head = some '.'
  · rw [point]
    exact .past (isLocal_fractionPart negative significand 0) (fun _ => .cons (by decide))
      fun rest => rfl
  by_cases small : head = some 'e'
  · rw [small]
    exact .past (isLocal_exponentPart negative significand 0) (fun _ => .cons (by decide))
      fun rest => rfl
  by_cases great : head = some 'E'
  · rw [great]
    exact .past (isLocal_exponentPart negative significand 0) (fun _ => .cons (by decide))
      fun rest => rfl
  · have whole : IsLocal IsNumeric fun text =>
        if !negative then .ok (.integer significand, text)
        else if 1 ≤ significand ∧ significand ≤ 9223372036854775808 then
          .ok (.integer (-significand), text)
        else finishReal true significand 0 text := by
      cases negative
      · exact .stay isNumeric_nil _
      · by_cases fits : 1 ≤ significand ∧ significand ≤ 9223372036854775808
        · simp only [fits, Bool.not_true, Bool.false_eq_true, if_false]
          exact .stay isNumeric_nil _
        · simp only [fits, Bool.not_true, Bool.false_eq_true, if_false]
          exact isLocal_finishReal true significand 0
    refine .of_isLocal whole fun text starts => ?_
    unfold integerEnd
    split
    · exact absurd starts.symm point
    · exact absurd starts.symm small
    · exact absurd starts.symm great
    · rfl

/-- What follows the digits before the point that are taken into account, when there are more. -/
def numeralEnd (negative : Bool) (significand raised : Nat) : Reader Number
  | '.' :: fraction => fractionPart negative significand raised fraction
  | other => exponentOrEnd negative significand raised other

theorem isLocal_numeralEnd (negative : Bool) (significand raised : Nat) :
    IsLocal IsNumeric (numeralEnd negative significand raised) := by
  refine .of_head fun head => ?_
  by_cases point : head = some '.'
  · rw [point]
    exact .past (isLocal_fractionPart negative significand raised) (fun _ => .cons (by decide))
      fun rest => rfl
  · refine .of_isLocal (isLocal_exponentOrEnd negative significand raised) fun text starts => ?_
    unfold numeralEnd
    split
    · exact absurd starts.symm point
    · rfl

theorem numeral_cons (negative : Bool) {first : Char} (rest : Text) (noZero : first ≠ '0') :
    numeral negative (first :: rest) =
      if !first.isDigit then stopIn .invalidNumber (first :: rest)
      else
        let read := takeDigits greatestWord (digitValue first) rest
        if startsWithDigit read.2 then
          numeralEnd negative read.1 (read.2.length - (skipDigits read.2).length)
            (skipDigits read.2)
        else integerEnd negative read.1 read.2 := by
  unfold numeral numeralEnd
  split
  · rename_i nothing
    cases nothing
  · rename_i zero
    exact absurd (List.cons.inj zero).1 noZero
  · rename_i same
    cases same
    rfl

/-- **Numbers are local.** -/
theorem isLocal_numeral (negative : Bool) : IsLocal IsNumeric (numeral negative) := by
  refine .of_head fun head => ?_
  cases head with
  | none =>
    refine .of_isLocal (.stop fun text => ⟨.unfinishedValue, text.size⟩) fun text nothing => ?_
    rw [List.head?_eq_none_iff.mp nothing]
    rfl
  | some char =>
    by_cases zero : char = '0'
    · rw [zero]
      exact .past (.byDigit (.stop fun text => ⟨.invalidNumber, text.size - 1⟩)
        (isLocal_integerEnd negative 0)) (fun _ => .cons (by decide)) fun rest => rfl
    by_cases digit : char.isDigit = true
    · have ends : ∀ taken _count : Nat, IsLocal IsNumeric fun after =>
          if startsWithDigit after then
            numeralEnd negative taken (after.length - (skipDigits after).length) (skipDigits after)
          else integerEnd negative taken after := fun taken _ =>
        .byDigit (isLocal_skipDigits fun count => isLocal_numeralEnd negative taken count)
          (isLocal_integerEnd negative taken)
      refine .past (.split (takeDigits_splitsLocally greatestWord (digitValue char)) ends)
        (fun _ => .cons (isNumeral_of_isDigit digit)) fun rest => ?_
      rw [numeral_cons negative rest zero, digit, Bool.not_true, if_neg Bool.false_ne_true]
    · refine .of_isLocal (.stop fun text => ⟨.invalidNumber, text.size - 1⟩) fun text starts => ?_
      obtain ⟨rest, rfl⟩ := List.head?_eq_some_iff.mp starts
      rw [numeral_cons negative rest zero, Bool.eq_false_iff.mpr digit]
      rfl

end Numbers

end Scaffold.Json
