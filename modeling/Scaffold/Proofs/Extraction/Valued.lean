/-
**Members with values of their own.**

A member of a source is given by the tokens before its name. A value that is written for it is read
exactly if it is less than `2 ^ 63` and more than `-2 ^ 63` (`memberValue_eq_ok_iff`), and the body
goes on behind its comma and its comment (`body_of_assigned`). In what is extracted, the member is
an entry of the class whose number is the number of enums before it (`Extractor.exists_entries`).
-/

import Scaffold.Proofs.Extraction.Arrival
import Scaffold.Proofs.Extraction.Described

namespace Scaffold

/-! ### Values as they are written -/

namespace Outline

open Tokens

variable {sourceEnd : Nat} {tokens rest : Tokens}

theorem signedValue_of_digits {member : Text} {number : Token} {negative : Bool}
    (signed : (tokens.skipSpacing.peek? == some .minus) = negative)
    (digits : unsigned tokens = number :: rest) (isNumber : number.kind = .number) :
    signedValue sourceEnd member tokens =
      match Literal.value? number.text with
      | some value => .ok (if negative then -value else value, rest)
      | none => .error (.malformed (.valueNotInteger member) number.offset) := by
  cases valued : Literal.value? number.text with
  | none => simp only [signedValue_eq, digits, if_pos isNumber, valued]
  | some value => simp only [signedValue_eq, digits, if_pos isNumber, signed, valued]

theorem skipSpacing_of_isSpacing {space : Tokens} {token : Token} {kind : TokenKind}
    (spacing : Layout.IsSpacing space) (same : token.kind = kind) (solid : kind ≠ .whitespace)
    (tokens : Tokens) : skipSpacing (space ++ token :: tokens) = token :: tokens := by
  rw [skipSpacing_append fun blank among => beq_iff_eq.mpr (spacing blank among),
    skipSpacing_of_ne (same ▸ solid)]

variable (sourceEnd) in
/-- What is written for a value is a literal after its sign. -/
theorem memberValue_of_assigned {written : WrittenValue}
    (assigned : Layout.Assigned (some written) tokens rest) (member : Text) :
    ∃ offset, memberValue sourceEnd member tokens =
      match Literal.value? written.literal with
      | some value => .ok (some (if written.negative then -value else value), rest)
      | none => .error (.malformed (.valueNotInteger member) offset) := by
  have given {space following : Tokens} {equals : Token} (spacing : Layout.IsSpacing space)
      (isEquals : equals.kind = .equals) :
      memberValue sourceEnd member (space ++ equals :: following) =
        (signedValue sourceEnd member following).map fun value => (some value.1, value.2) := by
    rw [memberValue, skipSpacing_of_isSpacing spacing isEquals (by decide)]
    exact if_pos isEquals
  cases assigned with
  | @literal space gap equals number _ spacing isEquals blank isNumber =>
    have next := skipSpacing_of_isSpacing blank isNumber (by decide) rest
    have noMinus : (Tokens.peek? (number :: rest) == some .minus) = false := by
      simp [peek?, isNumber]
    have digits : unsigned (gap ++ number :: rest) = number :: rest := by
      rw [unsigned, next, if_neg (by simp [noMinus])]
    refine ⟨number.offset, ?_⟩
    rw [given spacing isEquals,
      signedValue_of_digits (by rw [next, noMinus]) digits isNumber]
    cases Literal.value? number.text <;> rfl
  | @negated space gap between equals minus number _ spacing isEquals blank isMinus apart
      isNumber =>
    have next := skipSpacing_of_isSpacing blank isMinus (by decide) (between ++ number :: rest)
    have isSigned :
        (Tokens.peek? (minus :: (between ++ number :: rest)) == some .minus) = true := by
      simp [peek?, isMinus]
    have digits : unsigned (gap ++ minus :: (between ++ number :: rest)) = number :: rest := by
      rw [unsigned, next, if_pos isSigned, dropOne, if_pos isMinus,
        skipSpacing_of_isSpacing apart isNumber (by decide)]
    refine ⟨number.offset, ?_⟩
    rw [given spacing isEquals,
      signedValue_of_digits (by rw [next, isSigned]) digits isNumber]
    cases Literal.value? number.text <;> rfl

/-- **A value is read** exactly if it is less than `2 ^ 63` and more than `-2 ^ 63`. -/
theorem memberValue_eq_ok_iff {written : WrittenValue} {value : Option Int} {after : Tokens}
    (assigned : Layout.Assigned (some written) tokens rest) (member : Text) :
    memberValue sourceEnd member tokens = .ok (value, after) ↔
      after = rest ∧ ∃ number, value = some number ∧ written.Denotes number ∧
        -(2 ^ 63) < number ∧ number < 2 ^ 63 := by
  obtain ⟨offset, read⟩ := memberValue_of_assigned sourceEnd assigned member
  rw [read]
  constructor
  · intro found
    cases valued : Literal.value? written.literal with
    | none =>
      rw [valued] at found
      cases found
    | some signless =>
      rw [valued] at found
      cases found
      obtain ⟨number, denotes, rfl, bounded⟩ := Literal.value?_eq_some_iff.mp valued
      refine ⟨rfl, _, rfl, ⟨number, denotes, rfl⟩, ?_⟩
      split <;> omega
  · rintro ⟨rfl, value, rfl, ⟨number, denotes, rfl⟩, least, most⟩
    have bounded : (number : Int) ≤ 2 ^ 63 - 1 := by
      revert least most
      split <;> omega
    rw [Literal.value?_eq_some_iff.mpr ⟨number, denotes, rfl, bounded⟩]

/-- **A member with a value** has that value, and the body goes on behind it. -/
theorem body_of_assigned {written : WrittenValue} {name : Token} {declaration : Text}
    {seen : List Text} {ordinal : Int} {last : Tokens}
    (assigned : Layout.Assigned (some written) tokens rest) (kind : name.kind = .identifier)
    (read : (body sourceEnd declaration seen ordinal (name :: tokens)).after = .ok last) :
    name.text ∉ seen ∧ ∃ value, written.Denotes value ∧ -(2 ^ 63) < value ∧ value < 2 ^ 63 ∧
      body sourceEnd declaration seen ordinal (name :: tokens) =
        (body sourceEnd declaration (name.text :: seen) (nextOrdinal value)
          (afterMember rest)).startingWith
          [⟨name.text, value, (rest.skipSpacing.dropOne .comma).trailingComment.1⟩] := by
  obtain ⟨isNew, value, after, valued⟩ := exists_of_name kind read
  obtain ⟨rfl, number, rfl, denotes, least, most⟩ := (memberValue_eq_ok_iff assigned _).mp valued
  exact ⟨isNew, number, denotes, least, most, body_of_member kind isNew valued declaration ordinal⟩

end Outline

/-! ### Members of classes -/

namespace Extractor

/-- **The entries of a class**, at a member in the body of its enum. -/
theorem exists_entries {extractor : Extractor} {source : Text} {classes : List Class}
    {front tail : Tokens} {name : Token} {count : Nat}
    (parsed : extractor.parse source = .ok classes)
    (cut : Token.tokenize source = .ok (front ++ name :: tail))
    (place : Layout.InBody count front) (kind : name.kind = .identifier) :
    ∃ (entered : Outline.Entered) (cls : Class) (last : Tokens), classes[count]? = some cls ∧
      (Outline.body source.size entered.name entered.seen entered.due (name :: tail)).after =
        .ok last ∧
      cls.properties.map Property.entry = entered.members.map Member.entry ++
        (Outline.body source.size entered.name entered.seen entered.due
          (name :: tail)).members.map Member.entry := by
  obtain ⟨complete, -⟩ := (parse_ok_iff_of_tokenize cut).mp parsed
  have listed := skeletons_of_parse cut parsed
  obtain ⟨items, entered, counted, arrives⟩ :=
    Outline.exists_of_inBody place (Or.inr (Or.inl kind)) complete
  rw [Outline.ofSource, arrives] at complete listed
  obtain ⟨last, read⟩ := Outline.Entered.exists_of_complete complete
  rw [Outline.Entered.outline_of_after read, skeletons, Outline.continuing, Outline.startingWith,
    List.filterMap_append, OutlineItem.filterMap_declaration, List.map_append, List.map_cons]
    at listed
  have here := congrArg (·[count]?) listed
  rw [List.getElem?_append_right (by rw [List.length_map, counted]), List.length_map, counted,
    Nat.sub_self, List.getElem?_cons_zero, List.getElem?_map, Option.map_eq_some_iff] at here
  obtain ⟨cls, found, same⟩ := here
  have entries := congrArg Prod.snd same
  refine ⟨entered, cls, last, found, read, ?_⟩
  rw [← List.map_append]
  exact entries

end Extractor

end Scaffold
