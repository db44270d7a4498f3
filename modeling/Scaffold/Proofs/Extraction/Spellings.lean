/-
**Spellings of values.**

A value may be written in base ten or in base sixteen, with leading zeros and with a suffix, and
after a minus. Where a source is extracted with `0` for the value of a member, it is extracted with
any spelling of any value between `-2 ^ 63` and `2 ^ 63`, and the member has that value; no other
value is taken (`Extractor.exists_parse_iff_of_spelling`). The ends are not taken: a literal is
read without its sign, and `2 ^ 63` is too large to be read.

* `Token.exists_assigned`: the tokens of a value that is written behind a name;
* `Extractor.exists_parse_of_assigned`: another value may be written for a member.
-/

import Scaffold.Proofs.Extraction.Cutting
import Scaffold.Proofs.Extraction.Renumbered

namespace Scaffold

open Tag (Stops stops_cons)

/-- The value as it stands in a source. -/
def WrittenValue.spelling (written : WrittenValue) : Text :=
  if written.negative then '-' :: written.literal else written.literal

/-- What is written denotes one value. -/
theorem WrittenValue.Denotes.unique {written : WrittenValue} {value other : Int}
    (denotes : written.Denotes value) (denotesOther : written.Denotes other) : value = other := by
  obtain ⟨number, reads, rfl⟩ := denotes
  obtain ⟨again, readsAgain, rfl⟩ := denotesOther
  rw [← Literal.magnitude?_eq_some_iff] at reads readsAgain
  rw [Option.some.inj (reads.symm.trans readsAgain)]

/-! ### Tokens of a spelling -/

namespace Token

theorem stops_of_denotes {literal : Text} {number : Nat} (denotes : Literal.Denotes literal number)
    (rest : Text) : Stops isSpacing (literal ++ rest) := by
  cases denotes with
  | decimal filled isDigits =>
    obtain ⟨first, digits, rfl⟩ := List.exists_cons_of_ne_nil filled
    have digit := isDigits first List.mem_cons_self
    exact stops_cons (isSpacing_eq_false (continuesIdentifier_of_isDigit digit)) _
  | hexadecimal => exact stops_cons rfl _

/-- **A spelling** is cut into a literal and the minus before it. -/
theorem exists_spelling_tokens {written : WrittenValue} {value : Int}
    (denotes : written.Denotes value) (offset : Nat) :
    ∃ lead start, (∀ {space gap : Tokens} {equals : Token} (rest : Tokens), Layout.IsSpacing space →
        equals.kind = .equals → Layout.IsSpacing gap →
        Layout.Assigned (some written) (space ++ equals :: (gap ++ (lead ++ rest))) rest) ∧
      ∀ rest : Text, Stops Text.continuesIdentifier rest →
        Stops isSpacing (written.spelling ++ rest) ∧
        tokensFrom offset (written.spelling ++ rest) = (tokensFrom start rest).map (lead ++ ·) := by
  obtain ⟨negative, literal⟩ := written
  obtain ⟨number, denotes, -⟩ := denotes
  cases negative with
  | false =>
    refine ⟨[⟨.number, literal, offset⟩], _, ?_, fun rest ends =>
      ⟨stops_of_denotes denotes rest, tokensFrom_number denotes ends offset⟩⟩
    intro space gap equals rest spacing isEquals blank
    exact @Layout.Assigned.literal space gap equals ⟨.number, literal, offset⟩ rest spacing isEquals
      blank rfl
  | true =>
    refine ⟨[⟨.minus, ['-'], offset⟩, ⟨.number, literal, offset + Text.size ['-']⟩],
      offset + Text.size ['-'] + literal.size, ?_, fun rest ends => ⟨stops_cons rfl _, ?_⟩⟩
    · intro space gap equals rest spacing isEquals blank
      exact @Layout.Assigned.negated space gap [] equals ⟨.minus, ['-'], offset⟩
        ⟨.number, literal, offset + Text.size ['-']⟩ rest spacing isEquals blank rfl
        (List.forall_mem_nil _) rfl
    · have minus : lexeme '-' (literal ++ rest) = some (.minus, ['-'], literal ++ rest) := rfl
      show tokensFrom offset ('-' :: (literal ++ rest)) = _
      rw [tokensFrom_cons minus, tokensFrom_number denotes ends]
      cases tokensFrom (offset + Text.size ['-'] + literal.size) rest <;> rfl

/-- **A value behind a name** is cut into the tokens of a value, whatever follows it. -/
theorem exists_assigned {first blanks : Text} {front space : Tokens} {name equals : Token}
    {written : WrittenValue} {value : Int}
    (cut : tokenize (first ++ ['=']) = .ok (front ++ name :: (space ++ [equals])))
    (whole : Tokens.text (front ++ name :: space) = first) (spacing : Layout.IsSpacing space)
    (areBlank : ∀ char ∈ blanks, isSpacing char = true) (denotes : written.Denotes value) :
    ∃ lead start, (∀ rest, Layout.Assigned (some written) (lead ++ rest) rest) ∧
      ∀ rest : Text, Stops Text.continuesIdentifier rest →
        tokenize (first ++ '=' :: (blanks ++ (written.spelling ++ rest))) =
          (tokensFrom start rest).map fun later => front ++ name :: (lead ++ later) := by
  have split : front ++ name :: (space ++ [equals]) = (front ++ name :: space) ++ [equals] := by
    simp
  rw [split, tokenize] at cut
  obtain ⟨gap, blank, -, gapTokens⟩ :=
    exists_spacing_tokens areBlank (0 + first.size + Text.size ['='])
  obtain ⟨lead, start, assigned, leadTokens⟩ :=
    exists_spelling_tokens denotes (0 + first.size + Text.size ['='] + blanks.size)
  refine ⟨space ++ ⟨.equals, ['='], 0 + first.size⟩ :: (gap ++ lead), start, fun rest => ?_,
    fun rest ends => ?_⟩
  · simpa only [List.append_assoc, List.cons_append] using assigned rest spacing rfl blank
  · have sign : ∀ rest, lexeme '=' rest = some (.equals, ['='], rest) := fun _ => rfl
    have ahead : ∀ other, SameAhead ['='] ('=' :: other) :=
      fun other => ⟨List.prefix_rfl, fun marks => by simp at marks⟩
    obtain ⟨solid, spelled⟩ := leadTokens rest ends
    rw [tokenize, tokensFrom_append cut whole (ahead _), tokensFrom_cons (sign _),
      gapTokens _ solid, spelled]
    cases tokensFrom start rest with
    | error defect => rfl
    | ok later => simp only [Except.map, List.append_assoc, List.cons_append]

end Token

namespace Extractor

variable {extractor : Extractor} {front : Tokens} {name : Token} {written : WrittenValue}
  {value : Int} {count : Nat}

/-! ### Values and sources -/

/-- **A member with a value** has an entry with the value that is denoted. -/
theorem exists_entry_of_assigned {source : Text} {classes : List Class} {tokens rest : Tokens}
    (parsed : extractor.parse source = .ok classes)
    (cut : Token.tokenize source = .ok (front ++ name :: tokens))
    (place : Layout.InBody count front) (kind : name.kind = .identifier)
    (assigned : Layout.Assigned (some written) tokens rest) (denotes : written.Denotes value) :
    (-(2 ^ 63) < value ∧ value < 2 ^ 63) ∧ ∃ cls, classes[count]? = some cls ∧
      (name.text, value) ∈ cls.properties.map Property.entry := by
  obtain ⟨entered, cls, last, found, read, entries⟩ := exists_entries parsed cut place kind
  obtain ⟨-, denoted, again, least, most, goesOn⟩ := Outline.body_of_assigned assigned kind read
  obtain rfl := denotes.unique again
  refine ⟨⟨least, most⟩, cls, found, ?_⟩
  rw [entries, goesOn]
  exact List.mem_append_right _ List.mem_cons_self

/-- **Another value** may be written for a member. -/
theorem exists_parse_of_assigned {first second : Text} {other : WrittenValue}
    {tokens others rest later : Tokens} {classes : List Class}
    (parsed : extractor.parse first = .ok classes)
    (cut : Token.tokenize first = .ok (front ++ name :: tokens))
    (cutOther : Token.tokenize second = .ok (front ++ name :: others))
    (place : Layout.InBody count front) (kind : name.kind = .identifier)
    (assigned : Layout.Assigned (some written) tokens rest)
    (assignedOther : Layout.Assigned (some other) others later)
    (same : Redaction.unplaced.tokens rest = Redaction.unplaced.tokens later)
    (denotes : other.Denotes value) (least : -(2 ^ 63) < value) (most : value < 2 ^ 63) :
    ∃ classes, extractor.parse second = .ok classes := by
  refine (exists_parse_iff_of_sameNotes cut cutOther ?_).mp ⟨classes, parsed⟩
  have complete := ((parse_ok_iff_of_tokenize cut).mp parsed).1
  obtain ⟨items, entered, -, arrives⟩ :=
    Outline.exists_of_inBody place (Or.inr (Or.inl kind)) complete
  rw [Outline.ofSource, arrives] at complete
  obtain ⟨last, read⟩ := Outline.Entered.exists_of_complete complete
  obtain ⟨isNew, value', after, valued⟩ := Outline.exists_of_name kind read
  obtain ⟨rfl, number, rfl, -⟩ := (Outline.memberValue_eq_ok_iff assigned _).mp valued
  have valuedOther : Outline.memberValue second.size name.text others = .ok (some value, later) :=
    (Outline.memberValue_eq_ok_iff assignedOther _).mpr ⟨rfl, value, rfl, denotes, least, most⟩
  rw [Outline.ofSource, Outline.ofSource, arrives, arrives]
  exact (Outline.Entered.sameNotes kind isNew valued valuedOther same).continuing items

/-- **Spellings of values**. A source with any spelling of a value is extracted exactly if the
value is less than `2 ^ 63` and more than `-2 ^ 63` and the source is extracted with a zero in
place of it. The member has the value then. -/
theorem exists_parse_iff_of_spelling {first second blanks : Text} {space : Tokens} {equals : Token}
    (cut : Token.tokenize (first ++ ['=']) = .ok (front ++ name :: (space ++ [equals])))
    (whole : Tokens.text (front ++ name :: space) = first) (place : Layout.InBody count front)
    (kind : name.kind = .identifier) (spacing : Layout.IsSpacing space)
    (areBlank : ∀ char ∈ blanks, Token.isSpacing char = true) (denotes : written.Denotes value)
    (ends : Stops Text.continuesIdentifier second) :
    ((∃ classes, extractor.parse (first ++ '=' :: (blanks ++ (written.spelling ++ second))) =
        .ok classes) ↔
      (-(2 ^ 63) < value ∧ value < 2 ^ 63) ∧
        ∃ classes, extractor.parse (first ++ '=' :: (blanks ++ '0' :: second)) = .ok classes) ∧
    ∀ classes, extractor.parse (first ++ '=' :: (blanks ++ (written.spelling ++ second))) =
        .ok classes →
      ∃ cls, classes[count]? = some cls ∧ (name.text, value) ∈
        cls.properties.map fun property => (property.enumName, property.ordinal) := by
  have zero : WrittenValue.Denotes ⟨false, ['0']⟩ 0 :=
    ⟨0, @Literal.Denotes.decimal ['0'] [] nofun (List.forall_mem_singleton.mpr rfl) nofun, rfl⟩
  obtain ⟨lead, start, assigned, cutFrom⟩ :=
    Token.exists_assigned cut whole spacing areBlank denotes
  obtain ⟨leadZero, startZero, assignedZero, cutZeroFrom⟩ :=
    Token.exists_assigned cut whole spacing areBlank zero
  have cutHere := cutFrom second ends
  have cutZero := cutZeroFrom second ends
  have member : ∀ {classes},
      extractor.parse (first ++ '=' :: (blanks ++ (written.spelling ++ second))) = .ok classes →
      (-(2 ^ 63) < value ∧ value < 2 ^ 63) ∧ ∃ cls, classes[count]? = some cls ∧
        (name.text, value) ∈ cls.properties.map Property.entry := by
    intro classes parsed
    obtain ⟨tokens, read, -⟩ := parse_ok_iff.mp parsed
    obtain ⟨rest, -, rfl⟩ := map_eq_ok_iff.mp (cutHere.symm.trans read)
    exact exists_entry_of_assigned parsed read place kind (assigned rest) denotes
  refine ⟨⟨?_, ?_⟩, fun classes parsed => (member parsed).2⟩
  · rintro ⟨classes, parsed⟩
    obtain ⟨tokens, read, -⟩ := parse_ok_iff.mp parsed
    obtain ⟨rest, later, rfl⟩ := map_eq_ok_iff.mp (cutHere.symm.trans read)
    obtain ⟨restZero, laterZero, same⟩ := Token.exists_tokensFrom later startZero
    rw [laterZero] at cutZero
    exact ⟨(member parsed).1, exists_parse_of_assigned parsed read cutZero place kind
      (assigned rest) (assignedZero restZero) (Tokens.unplaced_eq same) zero (by decide)
      (by decide)⟩
  · rintro ⟨⟨least, most⟩, classes, parsed⟩
    obtain ⟨tokens, read, -⟩ := parse_ok_iff.mp parsed
    obtain ⟨restZero, laterZero, rfl⟩ := map_eq_ok_iff.mp (cutZero.symm.trans read)
    obtain ⟨rest, later, same⟩ := Token.exists_tokensFrom laterZero start
    rw [later] at cutHere
    exact exists_parse_of_assigned parsed read cutHere place kind (assignedZero restZero)
      (assigned rest) (Tokens.unplaced_eq same) denotes least most

/-- The least value that is taken, in base sixteen and with a suffix. -/
theorem exists_parse_iff_of_spelling_hexadecimal : ∃ classes,
    standard.parse "enum E\x7bA = -0x7FFFFFFFFFFFFFFFul\x7d;".toList = .ok classes ∧
    WrittenValue.Denotes ⟨true, "0x7FFFFFFFFFFFFFFFul".toList⟩ (-9223372036854775807) ∧
    ∃ cls, classes[0]? = some cls ∧ ("A".toList, -9223372036854775807) ∈
      cls.properties.map fun property => (property.enumName, property.ordinal) := by
  have denotes : WrittenValue.Denotes ⟨true, "0x7FFFFFFFFFFFFFFFul".toList⟩
      (-9223372036854775807) :=
    ⟨9223372036854775807, Literal.magnitude?_eq_some_iff.mp (by decide +kernel), rfl⟩
  obtain ⟨zeros, parsed⟩ := Option.isSome_iff_exists.mp
    (show (standard.parse ("enum E\x7bA ".toList ++ '=' ::
        (" ".toList ++ '0' :: "\x7d;".toList))).toOption.isSome = true by decide +kernel)
  obtain ⟨extracted, valued⟩ := @exists_parse_iff_of_spelling standard
    [⟨.identifier, "enum".toList, 0⟩, ⟨.whitespace, " ".toList, 4⟩,
      ⟨.identifier, "E".toList, 5⟩, ⟨.openBrace, "\x7b".toList, 6⟩]
    ⟨.identifier, "A".toList, 7⟩ _ _ 0 "enum E\x7bA ".toList "\x7d;".toList " ".toList
    [⟨.whitespace, " ".toList, 8⟩] ⟨.equals, "=".toList, 9⟩ (by decide +kernel) (by decide)
    (.first (by decide) rfl rfl (by decide) (by decide) rfl .nil) rfl
    (List.forall_mem_singleton.mpr rfl) (List.forall_mem_singleton.mpr rfl) denotes
    (stops_cons rfl _)
  obtain ⟨classes, ran⟩ := extracted.mpr ⟨by decide, zeros, ok_of_toOption parsed⟩
  exact ⟨classes, ran, denotes, valued classes ran⟩

/-- The least integer of 64 bits is not taken. -/
theorem parse_leastInteger :
    WrittenValue.Denotes ⟨true, "9223372036854775808".toList⟩ (-(2 ^ 63)) ∧
    ∀ classes, standard.parse "enum E\x7bA = -9223372036854775808\x7d;".toList ≠ .ok classes := by
  refine ⟨⟨9223372036854775808, Literal.magnitude?_eq_some_iff.mp (by decide +kernel), by decide⟩,
    fun classes parsed => ?_⟩
  have none :
      (standard.parse "enum E\x7bA = -9223372036854775808\x7d;".toList).toOption = none := by
    decide +kernel
  rw [parsed] at none
  cases none

end Extractor

end Scaffold
