/-
**What adjoins a value.**

The literal of a value ends where its digits and its suffix end. If a letter or a digit comes right
after it, this starts a token of its own, and since a comma between members may be left out, an
identifier there is the next member. A number there is no member, so nothing else can adjoin a value
in a source that is extracted (`Extractor.Adjoins`). This holds for each member of each class, since
it has its name at a place in the source, and for each place (`Extractor.adjoining_of_parse`).

* `Token.identifier_of_adjoining`: the token after a literal, if a letter or a digit starts it;
* `Outline.afterMember_of_adjoining`: such a token is what a body goes on with.
-/

import Scaffold.Proofs.Extraction.Bodies
import Scaffold.Proofs.Extraction.Cutting
import Scaffold.Proofs.Extraction.Valued

namespace Scaffold

open Tag (Stops)

/-! ### The token that adjoins a literal -/

/-- **A letter or a digit** starts an identifier or a number. -/
theorem Token.identifier_of_adjoining {offset : Nat} {text : Text} {token : Token} {tokens : Tokens}
    (cut : tokensFrom offset text = .ok (token :: tokens))
    (adjoins : ¬ Stops Text.continuesIdentifier text) :
    token.kind = .number ∨ token.kind = .identifier ∧ Text.isIdentifier token.text = true ∧
      ∃ follow, text = token.text ++ follow ∧ Stops Text.continuesIdentifier follow := by
  obtain ⟨first, taken, after, rfl, isText, -, found, -⟩ := exists_of_tokensFrom cut
  have continues : Text.continuesIdentifier first = true := by
    by_contra ends
    exact adjoins (Tag.stops_cons (Bool.not_eq_true _ ▸ ends) _)
  rw [lexeme_of_continuesIdentifier continues] at found
  have read := Option.some.inj found
  by_cases starts : Text.startsIdentifier first = true
  · rw [if_pos starts] at read
    obtain ⟨kind, parts⟩ := Prod.mk.inj read
    obtain ⟨takes, drops⟩ := Prod.mk.inj parts
    obtain ⟨-, others, stops⟩ :=
      Tag.takeWhile_eq_and_dropWhile_eq_iff.mp ⟨(List.cons.inj takes).2, drops⟩
    refine Or.inr ⟨kind.symm, ?_, after, by rw [isText], stops⟩
    rw [isText, Text.isIdentifier, starts, Bool.true_and]
    exact List.all_eq_true.mpr others
  · rw [if_neg starts] at read
    exact Or.inl ((congrArg Prod.fst read).symm.trans (numeral_kind first _))

/-! ### What a body goes on with -/

/-- A value ends with its literal. -/
theorem Layout.Assigned.exists_literal {written : WrittenValue} {tokens rest : Tokens}
    (assigned : Assigned (some written) tokens rest) :
    ∃ lead number, tokens = lead ++ number :: rest ∧ number.text = written.literal := by
  cases assigned with
  | @literal space gap equals number =>
    exact ⟨space ++ equals :: gap, number, by simp, rfl⟩
  | @negated space gap between equals minus number =>
    exact ⟨space ++ equals :: (gap ++ minus :: between), number, by simp, rfl⟩

namespace Outline

open Tokens

variable {sourceEnd : Nat} {token : Token}

/-- A name or a number is no gap, no comma and no comment. -/
theorem afterMember_of_adjoining (kind : token.kind = .number ∨ token.kind = .identifier)
    (rest : Tokens) : afterMember (token :: rest) = token :: rest := by
  have solid : token.kind ≠ .whitespace ∧ token.kind ≠ .comma ∧ token.kind.isComment = false := by
    rcases kind with same | same <;> rw [same] <;> decide
  obtain ⟨noBlank, noComma, noComment⟩ := solid
  rw [afterMember, skipSpacing_of_ne noBlank, dropOne, if_neg noComma, trailingComment,
    skipSpacing_of_ne noBlank]
  exact congrArg Prod.snd (if_neg (by simp [noComment]))

/-- **A name** that a body goes on with is a member. -/
theorem exists_member_of_body {declaration : Text} {seen : List Text} {ordinal : Int}
    {tokens last : Tokens} (kind : token.kind = .number ∨ token.kind = .identifier)
    (read : (body sourceEnd declaration seen ordinal (token :: tokens)).after = .ok last) :
    token.kind = .identifier ∧ ∃ value later,
      (body sourceEnd declaration seen ordinal (token :: tokens)).members.map Member.entry =
        (token.text, value) :: later := by
  have isName : token.kind = .identifier := by
    have significant : token.kind.isTrivia = false := by
      rcases kind with same | same <;> rw [same] <;> rfl
    refine kind.resolve_left fun number => ?_
    rcases kind_of_body significant read with other | other | other <;>
      · rw [number] at other
        cases other
  obtain ⟨isNew, value, after, valued⟩ := exists_of_name isName read
  refine ⟨isName, ?_⟩
  rw [body_of_member isName isNew valued]
  exact ⟨_, _, rfl⟩

end Outline

namespace Extractor

/-- A member of a class has the value that is written, and the literal of the value stands in the
source right before what follows the value. This starts with no letter and no digit, or it starts
with an identifier, which is then the name of the next member. -/
def Adjoins (source : Text) (cls : Class) (name : Text) (written : WrittenValue) (rest : Tokens) :
    Prop :=
  ∃ lead before value after,
    cls.properties.map (fun property => (property.enumName, property.ordinal)) =
      before ++ (name, value) :: after ∧
    written.Denotes value ∧ source = lead ++ (written.literal ++ Tokens.text rest) ∧
    (Stops Text.continuesIdentifier (Tokens.text rest) ∨
      ∃ word follow ordinal later, Tokens.text rest = word ++ follow ∧
        Text.isIdentifier word = true ∧ Stops Text.continuesIdentifier follow ∧
        after = (word, ordinal) :: later)

theorem adjoins_of_place {extractor : Extractor} {source : Text} {classes : List Class}
    {front tail rest : Tokens} {name : Token} {written : WrittenValue} {count : Nat}
    (parsed : extractor.parse source = .ok classes)
    (cut : Token.tokenize source = .ok (front ++ name :: tail))
    (place : Layout.InBody count front) (kind : name.kind = .identifier)
    (assigned : Layout.Assigned (some written) tail rest) :
    ∃ cls, classes[count]? = some cls ∧ Adjoins source cls name.text written rest := by
  obtain ⟨entered, cls, last, found, read, entries⟩ := exists_entries parsed cut place kind
  obtain ⟨-, value, denotes, -, -, goesOn⟩ := Outline.body_of_assigned assigned kind read
  obtain ⟨lead, number, rfl, literal⟩ := assigned.exists_literal
  rw [goesOn] at read entries
  have split : front ++ name :: (lead ++ number :: rest) =
      (front ++ name :: (lead ++ [number])) ++ rest := by simp
  obtain ⟨whole, cutRest⟩ := Token.tokenize_append (split ▸ cut)
  refine ⟨cls, found, Tokens.text (front ++ name :: lead), entered.members.map Member.entry, value,
    _, entries, denotes, ?_, ?_⟩
  · rw [whole, ← literal]
    simp only [Tokens.text_append, Tokens.text_cons, List.append_assoc]
    rfl
  by_cases stops : Stops Text.continuesIdentifier (Tokens.text rest)
  · exact Or.inl stops
  cases rest with
  | nil => exact absurd nofun stops
  | cons token rest =>
    have starts := Token.identifier_of_adjoining cutRest stops
    have known := starts.imp_right And.left
    rw [Outline.afterMember_of_adjoining known] at read ⊢
    obtain ⟨isName, ordinal, later, next⟩ := Outline.exists_member_of_body known read
    rcases starts with number | ⟨-, isWord, follow, text, ends⟩
    · rw [isName] at number
      cases number
    · exact Or.inr ⟨token.text, follow, ordinal, later, text, isWord, ends, next⟩

/-- **What adjoins a value**, for each member of each class: its name is at a place in the body of
the enum, and if a value is written for it, this is its ordinal and adjoins nothing but a gap or the
next member. The same holds of what is written at each place. -/
theorem adjoining_of_parse {extractor : Extractor} {source : Text} {classes : List Class}
    (parsed : extractor.parse source = .ok classes) :
    (∀ count cls property, classes[count]? = some cls → property ∈ cls.properties →
      ∃ front name tail rest written?, Token.tokenize source = .ok (front ++ name :: tail) ∧
        Layout.InBody count front ∧ name.kind = .identifier ∧ name.text = property.enumName ∧
        Layout.Assigned written? tail rest ∧
        ∀ written ∈ written?, written.Denotes property.ordinal ∧
          Adjoins source cls property.enumName written rest) ∧
    ∀ count front name tail rest written, Token.tokenize source = .ok (front ++ name :: tail) →
      Layout.InBody count front → name.kind = .identifier →
      Layout.Assigned (some written) tail rest →
      ∃ cls, classes[count]? = some cls ∧ Adjoins source cls name.text written rest := by
  refine ⟨?_, fun _ _ _ _ _ _ cut place kind assigned =>
    adjoins_of_place parsed cut place kind assigned⟩
  intro count cls property found among
  obtain ⟨tokens, cut, -⟩ := parse_ok_iff.mp parsed
  obtain ⟨front, name, tail, rest, written?, rfl, place, kind, named, assigned, denotes⟩ :=
    exists_place_of_parse parsed cut found among
  refine ⟨front, name, tail, rest, written?, cut, place, kind, named, assigned, ?_⟩
  rintro written ⟨⟩
  obtain ⟨same, foundToo, adjoins⟩ := adjoins_of_place parsed cut place kind assigned
  cases found.symm.trans foundToo
  exact ⟨denotes written rfl, named ▸ adjoins⟩

/-- A hexadecimal literal with a suffix that is not known as a whole: the letter behind it is the
next member. -/
theorem adjoining_of_parse_suffix : ∃ classes front name tail rest cls property,
    standard.parse "enum E\x7bA = 0x10uz\x7d;".toList = .ok classes ∧
    Token.tokenize "enum E\x7bA = 0x10uz\x7d;".toList = .ok (front ++ name :: tail) ∧
    Layout.InBody 0 front ∧ Layout.Assigned (some ⟨false, "0x10u".toList⟩) tail rest ∧
    classes[0]? = some cls ∧ property ∈ cls.properties ∧
    (∃ front name tail rest written?,
      Token.tokenize "enum E\x7bA = 0x10uz\x7d;".toList = .ok (front ++ name :: tail) ∧
      Layout.InBody 0 front ∧ name.kind = .identifier ∧ name.text = property.enumName ∧
      Layout.Assigned written? tail rest ∧
      ∀ written ∈ written?, written.Denotes property.ordinal ∧
        Adjoins "enum E\x7bA = 0x10uz\x7d;".toList cls property.enumName written rest) ∧
    Adjoins "enum E\x7bA = 0x10uz\x7d;".toList cls name.text ⟨false, "0x10u".toList⟩ rest := by
  obtain ⟨classes, parsed⟩ := Option.isSome_iff_exists.mp
    (show (standard.parse "enum E\x7bA = 0x10uz\x7d;".toList).toOption.isSome = true by
      decide +kernel)
  have ran := ok_of_toOption parsed
  obtain ⟨front, name, tail, rest, cut, place, kind, assigned⟩ : ∃ front name tail rest,
      Token.tokenize "enum E\x7bA = 0x10uz\x7d;".toList = .ok (front ++ name :: tail) ∧
      Layout.InBody 0 front ∧ name.kind = .identifier ∧
      Layout.Assigned (some ⟨false, "0x10u".toList⟩) tail rest :=
    ⟨[⟨.identifier, "enum".toList, 0⟩, ⟨.whitespace, " ".toList, 4⟩,
        ⟨.identifier, "E".toList, 5⟩, ⟨.openBrace, "\x7b".toList, 6⟩],
      ⟨.identifier, "A".toList, 7⟩,
      [⟨.whitespace, " ".toList, 8⟩] ++ ⟨.equals, "=".toList, 9⟩ ::
        ([⟨.whitespace, " ".toList, 10⟩] ++ ⟨.number, "0x10u".toList, 11⟩ ::
          [⟨.identifier, "z".toList, 16⟩, ⟨.closeBrace, "\x7d".toList, 17⟩,
            ⟨.semicolon, ";".toList, 18⟩]),
      _, by decide +kernel, .first (by decide) rfl rfl (by decide) (by decide) rfl .nil, rfl,
      @Layout.Assigned.literal [_] [_] _ ⟨.number, "0x10u".toList, 11⟩ _
        (List.forall_mem_singleton.mpr rfl) rfl (List.forall_mem_singleton.mpr rfl) rfl⟩
  obtain ⟨members, places⟩ := adjoining_of_parse ran
  obtain ⟨cls, found, adjoins⟩ := places 0 front name tail rest _ cut place kind assigned
  have filled : cls.properties ≠ [] := by
    obtain ⟨lead, before, value, after, entries, -⟩ := adjoins
    intro none
    rw [none] at entries
    simp at entries
  obtain ⟨property, among⟩ := List.exists_mem_of_ne_nil _ filled
  exact ⟨classes, front, name, tail, rest, cls, property, ran, cut, place, assigned, found, among,
    members 0 cls property found among, adjoins⟩

/-- A binary literal is taken for a zero and for a member behind it. -/
theorem parse_binary : ∃ classes,
    standard.parse "enum E\x7bA = 0b101\x7d;".toList = .ok classes ∧
    classes.map (fun cls => cls.properties.map fun property =>
        (property.enumName, property.ordinal)) =
      [[("A".toList, 0), ("b101".toList, 1)]] := by
  obtain ⟨classes, parsed, entries⟩ := Option.map_eq_some_iff.mp
    (show (standard.parse "enum E\x7bA = 0b101\x7d;".toList).toOption.map
        (List.map fun cls => cls.properties.map fun property =>
          (property.enumName, property.ordinal)) =
      some [[("A".toList, 0), ("b101".toList, 1)]] by decide +kernel)
  exact ⟨classes, ok_of_toOption parsed, entries⟩

end Extractor

end Scaffold
