/-
**What integer literals denote.**

A literal denotes the number that its digits spell: in base sixteen after `0x` or `0X`, in base ten
otherwise, leading zeros included. Letters of a suffix do not count. `Literal.Denotes` says so
without a reader, and the reader agrees with it:

* `digitsValue?_eq_some_iff`: digits are read as the number they spell;
* `magnitude?_eq_some_iff`: a literal has the magnitude that it denotes;
* `value?_eq_some_iff`: and it has a value exactly if that is at most `2 ^ 63 - 1`.
-/

import Mathlib.Data.Nat.Digits.Defs
import Scaffold.Extraction.Literal
import Scaffold.Proofs.Text.Trimming

namespace Scaffold.Literal

/-! ### Numbers -/

/-- The value of a digit, in any letter case: its place among all digits. -/
def digit (char : Char) : Nat := "0123456789abcdef".toList.idxOf char.toLower

/-- The number that digits spell, the most significant one first. -/
def spelled (base : Nat) (digits : Text) : Nat := Nat.ofDigits base (digits.reverse.map digit)

theorem spelled_cons (base : Nat) (char : Char) (rest : Text) :
    spelled base (char :: rest) = digit char * base ^ rest.length + spelled base rest := by
  rw [spelled, List.reverse_cons, List.map_append, Nat.ofDigits_append, List.length_map,
    List.length_reverse, List.map_singleton, Nat.ofDigits_singleton, Nat.add_comm, Nat.mul_comm]
  rfl

/-- The literal denotes the number. -/
inductive Denotes : Text → Nat → Prop
  | decimal {digits suffix : Text} (filled : digits ≠ [])
      (isDigits : ∀ char ∈ digits, char.isDigit = true)
      (ends : ∀ char ∈ suffix, Token.isNumberSuffix char = true) :
      Denotes (digits ++ suffix) (spelled 10 digits)
  | hexadecimal {mark : Char} {digits suffix : Text} (marked : mark = 'x' ∨ mark = 'X')
      (filled : digits ≠ []) (isDigits : ∀ char ∈ digits, Token.isHexDigit char = true)
      (ends : ∀ char ∈ suffix, Token.isNumberSuffix char = true) :
      Denotes ('0' :: mark :: (digits ++ suffix)) (spelled 16 digits)

/-! ### Digits -/

theorem not_le_of_beyond {char last : Char} (ascii : last.toNat < 128)
    (beyond : 128 ≤ char.toNat) : ¬ char ≤ last := by
  rw [Char.le_def, UInt32.le_iff_toNat_le]
  exact Nat.not_le_of_lt (Nat.lt_of_lt_of_le ascii beyond)

theorem isHexDigit_of_isDigit {char : Char} (isDigit : char.isDigit = true) :
    Token.isHexDigit char = true := by
  rw [Token.isHexDigit, isDigit, Bool.true_or, Bool.true_or]

theorem isHexDigit_eq_false {char : Char} (beyond : 128 ≤ char.toNat) :
    Token.isHexDigit char = false := by
  have noDecimal : ¬ char ≤ '9' := not_le_of_beyond (by decide) beyond
  have noUpper : ¬ char ≤ 'F' := not_le_of_beyond (by decide) beyond
  have noLower : ¬ char ≤ 'f' := not_le_of_beyond (by decide) beyond
  have noDigit : char.isDigit = false := by
    rw [Char.isDigit, Bool.and_eq_false_iff]
    exact Or.inr (decide_eq_false noDecimal)
  simp [Token.isHexDigit, noDigit, noUpper, noLower]

/-- What a base reads digits as has to be looked at in ASCII only. -/
theorem digitValue?_eq {base : Nat} {isDigit : Char → Bool}
    (isHex : ∀ char, isDigit char = true → Token.isHexDigit char = true)
    (ascii : ∀ code < 128, digitValue? base (Char.ofNat code) =
      if isDigit (Char.ofNat code) then some (digit (Char.ofNat code)) else none) (char : Char) :
    digitValue? base char = if isDigit char then some (digit char) else none := by
  by_cases isAscii : char.toNat < 128
  · rw [← Char.ofNat_toNat char]
    exact ascii char.toNat isAscii
  · have noHex := isHexDigit_eq_false (Nat.le_of_not_lt isAscii)
    have noDigit : isDigit char = false :=
      Bool.eq_false_iff.mpr fun holds => Bool.false_ne_true (noHex ▸ isHex char holds)
    simp only [Token.isHexDigit, Bool.or_eq_false_iff, Bool.and_eq_false_imp, decide_eq_true_eq,
      decide_eq_false_iff_not] at noHex
    obtain ⟨⟨noDecimal, noLower⟩, noUpper⟩ := noHex
    rw [digitValue?, if_neg (by simp [noDecimal]), if_neg fun both => noLower both.1 both.2,
      if_neg fun both => noUpper both.1 both.2, noDigit]
    rfl

theorem digitValue?_ten (char : Char) :
    digitValue? 10 char = if char.isDigit then some (digit char) else none :=
  digitValue?_eq (fun _ => isHexDigit_of_isDigit) (by decide +kernel) char

theorem digitValue?_sixteen (char : Char) :
    digitValue? 16 char = if Token.isHexDigit char then some (digit char) else none :=
  digitValue?_eq (fun _ => id) (by decide +kernel) char

/-- **Digits are read as the number they spell**, after what was read before them. -/
theorem digitsValue?_eq_some_iff {base start number : Nat} {isDigit : Char → Bool} {digits : Text}
    (reads : ∀ char, digitValue? base char = if isDigit char then some (digit char) else none) :
    digitsValue? base start digits = some number ↔
      (∀ char ∈ digits, isDigit char = true) ∧
        number = start * base ^ digits.length + spelled base digits := by
  induction digits generalizing start with
  | nil =>
    rw [digitsValue?, List.length_nil, pow_zero, Nat.mul_one]
    constructor
    · rintro ⟨⟩
      exact ⟨fun _ absent => absurd absent List.not_mem_nil, rfl⟩
    · rintro ⟨-, rfl⟩
      rfl
  | cons char rest ih =>
    rw [digitsValue?, reads char, List.forall_mem_cons]
    by_cases isOne : isDigit char = true
    · rw [if_pos isOne, Option.bind_some, ih, and_assoc, and_iff_right isOne, spelled_cons,
        List.length_cons, Nat.pow_succ, Nat.add_mul, Nat.add_assoc, Nat.mul_assoc,
        Nat.mul_comm base]
    · rw [if_neg isOne]
      exact iff_of_false nofun fun found => isOne found.1.1

/-! ### Literals -/

theorem not_isNumberSuffix {char : Char} (isDigit : Token.isHexDigit char = true) :
    Token.isNumberSuffix char = false := by
  refine Bool.eq_false_iff.mpr fun isSuffix => ?_
  rw [Token.isNumberSuffix, Bool.or_eq_true, Bool.or_eq_true, Bool.or_eq_true, beq_iff_eq,
    beq_iff_eq, beq_iff_eq, beq_iff_eq] at isSuffix
  rcases isSuffix with ((rfl | rfl) | rfl) | rfl <;> revert isDigit <;> decide

/-- The suffix is what is dropped of a literal that has digits before it. -/
theorem dropSuffix_eq (lead : Text) {digits suffix : Text} (filled : digits ≠ [])
    (isDigits : ∀ char ∈ digits, Token.isHexDigit char = true)
    (ends : ∀ char ∈ suffix, Token.isNumberSuffix char = true) :
    Text.dropEndWhile Token.isNumberSuffix (lead ++ digits ++ suffix) = lead ++ digits := by
  refine Text.dropEndWhile_append ends fun char last => ?_
  rw [List.getLast?_append_of_ne_nil _ filled] at last
  exact not_isNumberSuffix (isDigits char (List.mem_of_getLast? last))

theorem spells_of_magnitude? {literal : Text} {number : Nat}
    (found : magnitude? literal = some number) :
    let digits := literal.dropEndWhile Token.isNumberSuffix
    (digits ≠ [] ∧ (∀ char ∈ digits, char.isDigit = true) ∧ number = spelled 10 digits) ∨
      ∃ mark hex, (mark = 'x' ∨ mark = 'X') ∧ digits = '0' :: mark :: hex ∧ hex ≠ [] ∧
        (∀ char ∈ hex, Token.isHexDigit char = true) ∧ number = spelled 16 hex := by
  have hexadecimal : ∀ {hex : Text},
      (if hex = [] then none else digitsValue? 16 0 hex) = some number →
      hex ≠ [] ∧ (∀ char ∈ hex, Token.isHexDigit char = true) ∧ number = spelled 16 hex := by
    intro hex found
    split at found
    · cases found
    · rename_i filled
      obtain ⟨isDigits, rfl⟩ := (digitsValue?_eq_some_iff digitValue?_sixteen).mp found
      exact ⟨filled, isDigits, by rw [Nat.zero_mul, Nat.zero_add]⟩
  unfold magnitude? at found
  generalize literal.dropEndWhile Token.isNumberSuffix = digits at found ⊢
  dsimp only at found ⊢
  split at found
  · exact Or.inr ⟨'x', _, Or.inl rfl, rfl, hexadecimal found⟩
  · exact Or.inr ⟨'X', _, Or.inr rfl, rfl, hexadecimal found⟩
  · split at found
    · cases found
    · rename_i filled
      obtain ⟨isDigits, rfl⟩ := (digitsValue?_eq_some_iff digitValue?_ten).mp found
      exact Or.inl ⟨filled, isDigits, by rw [Nat.zero_mul, Nat.zero_add]⟩

/-- **A literal has the magnitude that it denotes.** -/
theorem magnitude?_eq_some_iff {literal : Text} {number : Nat} :
    magnitude? literal = some number ↔ Denotes literal number := by
  constructor
  · intro found
    obtain ⟨suffix, split, ends, -⟩ := Text.dropEndWhile_eq_iff.mp
      (rfl : Text.dropEndWhile Token.isNumberSuffix literal = _)
    rw [split]
    rcases spells_of_magnitude? found with ⟨filled, isDigits, rfl⟩ |
      ⟨mark, hex, marked, same, filled, isDigits, rfl⟩
    · exact .decimal filled isDigits ends
    · rw [same]
      exact .hexadecimal marked filled isDigits ends
  · rintro (@⟨digits, suffix, filled, isDigits, ends⟩ |
      @⟨mark, digits, suffix, marked, filled, isDigits, ends⟩)
    · have kept := dropSuffix_eq [] filled
        (fun char member => isHexDigit_of_isDigit (isDigits char member)) ends
      have noMark : ∀ mark hex, digits = '0' :: mark :: hex → mark.isDigit = true := by
        rintro mark hex rfl
        exact isDigits mark (List.mem_cons_of_mem _ List.mem_cons_self)
      have read : digitsValue? 10 0 digits = some (spelled 10 digits) :=
        (digitsValue?_eq_some_iff digitValue?_ten).mpr
          ⟨isDigits, by rw [Nat.zero_mul, Nat.zero_add]⟩
      rw [List.nil_append] at kept
      rw [magnitude?, kept]
      split
      · exact absurd (noMark _ _ rfl) (by decide)
      · exact absurd (noMark _ _ rfl) (by decide)
      · rw [if_neg filled, read]
    · have kept := dropSuffix_eq ['0', mark] filled isDigits ends
      have read : digitsValue? 16 0 digits = some (spelled 16 digits) :=
        (digitsValue?_eq_some_iff digitValue?_sixteen).mpr
          ⟨isDigits, by rw [Nat.zero_mul, Nat.zero_add]⟩
      have whole : '0' :: mark :: (digits ++ suffix) = ['0', mark] ++ digits ++ suffix := rfl
      rw [magnitude?, whole, kept]
      rcases marked with rfl | rfl <;> exact (if_neg filled).trans read

/-- **A literal has a value** exactly if it denotes a number up to `2 ^ 63 - 1`. -/
theorem value?_eq_some_iff {literal : Text} {value : Int} :
    value? literal = some value ↔
      ∃ number : Nat, Denotes literal number ∧ value = number ∧ value ≤ 2 ^ 63 - 1 := by
  simp only [value?, Option.filter_eq_some_iff, Option.map_eq_some_iff, magnitude?_eq_some_iff,
    decide_eq_true_eq]
  constructor
  · rintro ⟨⟨number, denotes, rfl⟩, bounded⟩
    exact ⟨number, denotes, rfl, bounded⟩
  · rintro ⟨number, denotes, rfl, bounded⟩
    exact ⟨⟨number, denotes, rfl⟩, bounded⟩

end Scaffold.Literal
