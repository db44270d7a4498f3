/-
**Names and values of members.**

The members of an enum have distinct names. A member has the value that is written for it; without
one it has the value after the member before it, up to the greatest value of 64 bits, and the first
member has zero (`Numbered`). Whatever stands around an enum does not matter, so numbers start again
in each of them.

* `numbered_of_body`: the members that are read off a body are numbered so;
* `enums_of_walks`: and so are those of all enums of a walk;
* `enums_of_parse`: in what is extracted from a source, each class has the names and the values of
  an enum that is written in it, in the order of the source.
-/

import Scaffold.Proofs.Extraction.Enumerators
import Scaffold.Proofs.Extraction.Structure

namespace Scaffold

/-- Members and their values, when the first of them has the value `due` unless one is written. -/
inductive Numbered : (due : Int) → List (Text × Option WrittenValue) → List (Text × Int) → Prop
  | nil (due : Int) : Numbered due [] []
  | counted {due : Int} {name : Text} {members : List (Text × Option WrittenValue)}
      {entries : List (Text × Int)} :
      Numbered (min (due + 1) (2 ^ 63 - 1)) members entries →
      Numbered due ((name, none) :: members) ((name, due) :: entries)
  | given {due value : Int} {name : Text} {written : WrittenValue}
      {members : List (Text × Option WrittenValue)} {entries : List (Text × Int)} :
      written.Denotes value → Numbered (min (value + 1) (2 ^ 63 - 1)) members entries →
      Numbered due ((name, some written) :: members) ((name, value) :: entries)

/-- The names and values are those of an enum. -/
structure WrittenEnum.IsReadAs (written : WrittenEnum) (name : Text)
    (entries : List (Text × Int)) : Prop where
  named : name = written.name
  distinct : (entries.map Prod.fst).Nodup
  /-- The first member has the value zero unless one is written. -/
  numbered : Numbered 0 written.members entries
  /-- No value is beyond 64 bits. -/
  fits : ∀ entry ∈ entries, -(2 ^ 63) ≤ entry.2 ∧ entry.2 < 2 ^ 63

namespace Outline

open Tokens

variable {sourceEnd : Nat} {tokens rest : Tokens}

/-! ### Bodies -/

/-- The names of a body are new and distinct, up to the place where reading ends. -/
theorem names_of_body (sourceEnd : Nat) (declaration : Text) (seen : List Text) (ordinal : Int)
    (tokens : Tokens) :
    ((body sourceEnd declaration seen ordinal tokens).members.map Member.name).Nodup ∧
      ∀ member ∈ (body sourceEnd declaration seen ordinal tokens).members,
        member.name ∉ seen := by
  fun_induction body sourceEnd declaration seen ordinal tokens with
  | case1 | case2 | case4 | case5 | case7 =>
    exact ⟨List.nodup_nil, fun _ absent => absurd absent List.not_mem_nil⟩
  | case3 seen ordinal tokens shorter token later next inner kind bounded ih => exact ih
  | case6 seen ordinal tokens shorter token later next inner kind isNew value after valued comment
      last trailing bounded fits own more ih =>
    obtain ⟨distinct, areNew⟩ := ih
    refine ⟨List.nodup_cons.mpr ⟨fun again => ?_, distinct⟩,
      List.forall_mem_cons.mpr ⟨isNew, fun member among taken => ?_⟩⟩
    · obtain ⟨member, among, same⟩ := List.mem_map.mp again
      exact areNew member among (same ▸ List.mem_cons_self)
    · exact areNew member among (List.mem_cons_of_mem _ taken)

/-- The value that is due next fits, if the last one does. -/
theorem nextOrdinal_fits {ordinal : Int} (fits : -(2 ^ 63) < ordinal) :
    -(2 ^ 63) < nextOrdinal ordinal ∧ nextOrdinal ordinal < 2 ^ 63 := by
  unfold nextOrdinal greatestOrdinal
  omega

/-- The values of a body fit, if the one that is due first does. -/
theorem fits_of_body (sourceEnd : Nat) (declaration : Text) (seen : List Text) {ordinal : Int}
    (tokens : Tokens) (least : -(2 ^ 63) < ordinal) (most : ordinal < 2 ^ 63) :
    ∀ member ∈ (body sourceEnd declaration seen ordinal tokens).members,
      -(2 ^ 63) < member.ordinal ∧ member.ordinal < 2 ^ 63 := by
  fun_induction body sourceEnd declaration seen ordinal tokens with
  | case1 | case2 | case4 | case5 | case7 => exact fun _ absent => absurd absent List.not_mem_nil
  | case3 seen ordinal tokens shorter token later next inner kind bounded ih => exact ih least most
  | case6 seen ordinal tokens shorter token later next inner kind isNew value after valued comment
      last trailing bounded fits own more ih =>
    have ownFits : -(2 ^ 63) < own ∧ own < 2 ^ 63 := by
      obtain ⟨written, rest, -, -, agrees⟩ := assigned_of_memberValue valued
      cases agrees with
      | nothing => exact ⟨least, most⟩
      | given denotes least most => exact ⟨least, most⟩
    obtain ⟨nextLeast, nextMost⟩ := nextOrdinal_fits ownFits.1
    exact List.forall_mem_cons.mpr ⟨ownFits, ih nextLeast nextMost⟩

/-- What follows a member is written after its comma, if it has one. -/
theorem enumerators_of_afterMember {members : List (Text × Option WrittenValue)}
    {name : Token} {written : Option WrittenValue} {next after : Tokens}
    (kind : name.kind = .identifier) (assigned : Layout.Assigned written tokens next)
    (same : next.skipSpacing = after.skipSpacing)
    (more : Layout.Enumerators members (afterMember after) rest) :
    Layout.Enumerators ((name.text, written) :: members) (name :: tokens) rest := by
  have following := Layout.Enumerators.of_trailingComment more
  by_cases comma : after.skipSpacing.peek? = some .comma
  · obtain ⟨token, split, isComma⟩ := exists_cons_of_peek? comma
    obtain ⟨space, spacing, apart⟩ := Layout.exists_spacing next
    rw [same, split] at apart
    exact .separated kind (apart ▸ assigned) spacing isComma following
  · rw [dropOne_of_ne comma, ← same] at following
    exact .member kind assigned (.of_skipSpacing following)

/-- **The members of a body** are written in it, and they are numbered. -/
theorem numbered_of_body {declaration : Text} {seen : List Text} {ordinal : Int}
    (read : (body sourceEnd declaration seen ordinal tokens).after = .ok rest) :
    ∃ members, Layout.Enumerators members tokens rest ∧ Numbered ordinal members
      ((body sourceEnd declaration seen ordinal tokens).members.map Member.entry) := by
  fun_induction body sourceEnd declaration seen ordinal tokens with
  | case1 | case4 | case5 | case7 => cases read
  | case2 seen ordinal tokens shorter token later next inner kind =>
    cases read
    exact ⟨[], .of_skipTrivia (next ▸ .closed rest kind), .nil ordinal⟩
  | case3 seen ordinal tokens shorter token later next inner kind bounded ih =>
    obtain ⟨members, written, numbered⟩ := ih read
    refine ⟨members, .of_skipTrivia ?_, numbered⟩
    rcases skipPast_cases .newline later with ⟨line, feed, others, isFeed, split⟩ | ⟨-, nothing⟩
    · rw [next, split]
      exact .line kind others isFeed written
    · rw [Tokens.skipLine, nothing] at written
      cases written
  | case6 seen ordinal tokens shorter token later next inner kind isNew value after valued comment
      last trailing bounded fits own more ih =>
    obtain ⟨members, written, numbered⟩ := ih read
    obtain ⟨value', following, assigned, same, agrees⟩ := assigned_of_memberValue valued
    have place : afterMember after = last := congrArg Prod.snd trailing
    refine ⟨(token.text, value') :: members, .of_skipTrivia ?_, ?_⟩
    · rw [next]
      exact enumerators_of_afterMember kind assigned same (place ▸ written)
    · cases agrees with
      | nothing => exact .counted numbered
      | given denotes => exact .given denotes numbered

/-- What an enum has before its body is written before it. -/
theorem layout_of_enumHead {name : Text} {found : Option (List Excerpt)}
    (head : enumHead sourceEnd tokens = .ok (name, found, rest)) :
    ∃ stop comments after, Layout.EnumName name tokens after ∧
      Layout.Head comments after (stop :: rest) ∧
      (stop.kind = .openBrace ∧ found = some comments ∨ stop.kind = .semicolon ∧ found = none) := by
  unfold enumHead at head
  split at head
  · cases head
  · rename_i token after named
    obtain ⟨result, read, same⟩ := map_eq_ok_iff.mp head
    cases same
    obtain ⟨stop, comments, written, ends⟩ := head_of_declarationHead read
    exact ⟨stop, comments, after, enumName_of_identifier? named, written, ends⟩

/-! ### Walks -/

/-- **The enums of a walk** that ends without a defect are written in its tokens. -/
theorem enums_of_walks {outline : Outline} (walks : Walks sourceEnd tokens outline)
    (complete : outline.defect = none) :
    ∃ enums, Layout.Enums enums tokens ∧
      List.Forall₂ (fun read written => WrittenEnum.IsReadAs written read.1 read.2)
        ((outline.items.filterMap OutlineItem.declaration?).map fun declaration =>
          (declaration.name, declaration.members.map Member.entry))
        enums := by
  induction walks with
  | ended => exact ⟨[], .ended [], .nil⟩
  | failed | unfinished => cases complete
  | skipped suffix walks ih =>
    obtain ⟨enums, written, listed⟩ := ih complete
    exact ⟨enums, .of_suffix suffix written, listed⟩
  | scope walks ih | forward walks ih =>
    obtain ⟨enums, written, listed⟩ := ih complete
    exact ⟨enums, written, by rwa [startingWith, List.filterMap_cons_none rfl]⟩
  | @declaration keyword tokens opened last path name comments outline word head ended walks ih =>
    obtain ⟨enums, written, listed⟩ := ih complete
    obtain ⟨opening, comments, after, named, before, ⟨opens, -⟩ | ⟨-, absent⟩⟩ :=
      layout_of_enumHead head
    case inr => cases absent
    obtain ⟨members, listing, numbered⟩ := numbered_of_body ended
    refine ⟨⟨name, members⟩ :: enums,
      .enum word named before opens (.of_trailingComment listing) written, ?_⟩
    rw [startingWith, OutlineItem.filterMap_declaration, List.map_cons]
    refine .cons ⟨rfl, ?_, numbered, fun entry among => ?_⟩ listed
    · rw [List.map_map]
      exact (names_of_body sourceEnd name [] 0 opened.trailingComment.2).1
    · obtain ⟨member, listed, rfl⟩ := List.mem_map.mp among
      obtain ⟨least, most⟩ := fits_of_body sourceEnd name [] opened.trailingComment.2
        (by decide) (by decide) member listed
      exact ⟨least.le, most⟩

end Outline

namespace Extractor

/-- Classes are found only if the outline has no defect. -/
theorem defect_eq_none_of_outline {extractor : Extractor} {outline : Outline} {classes : List Class}
    (done : (extractor.outline outline).result = .ok classes) : outline.defect = none := by
  rw [Extractor.outline, Outcome.result_bind] at done
  obtain ⟨frames, -, ended⟩ := bind_eq_ok_iff.mp done
  cases found : outline.defect with
  | none => rfl
  | some defect =>
    rw [found] at ended
    cases ended

/-- **Names and values of members**. The classes that are extracted from a source belong to enums
that are written in its tokens, in the order of the source. A class has the name of its enum, and
its members have distinct names and the values that are due: the one that is written, or the one
after the last member, at most `2 ^ 63 - 1`, or zero at the start of each enum. -/
theorem enums_of_parse {extractor : Extractor} {source : Text} {classes : List Class}
    (parsed : extractor.parse source = .ok classes) :
    ∃ tokens enums, Token.tokenize source = .ok tokens ∧ Layout.Enums enums tokens ∧
      List.Forall₂ (fun cls written => WrittenEnum.IsReadAs written cls.name
        (cls.properties.map fun property => (property.enumName, property.ordinal)))
      classes enums := by
  obtain ⟨tokens, cut, outlined⟩ := outline_of_parse parsed
  obtain ⟨enums, written, listed⟩ := Outline.enums_of_walks
    (Outline.walks_ofTokens source.size [] 0 tokens) (defect_eq_none_of_outline outlined)
  have same : classes.map (fun cls => (cls.name, cls.properties.map Property.entry)) =
      ((Outline.ofSource source tokens).items.filterMap OutlineItem.declaration?).map
        fun declaration => (declaration.name, declaration.members.map Member.entry) := by
    have skeletons := congrArg (List.map fun skeleton => (skeleton.1.2.2, skeleton.2))
      (skeletons_of_parse cut parsed)
    rwa [Extractor.skeletons, List.map_map, List.map_map] at skeletons
  rw [← Outline.ofSource, ← same] at listed
  exact ⟨tokens, enums, cut, written, List.forall₂_map_left_iff.mp listed⟩

/-- Members with and without a value, of both bases and signs, at both ends of what 64 bits hold, and
a second enum that starts at zero again. -/
theorem enums_of_parse_mixed : ∃ source classes,
    source = ("enum E\x7bA = 0x10, B, C = -010UL,\n#if X\nD // d\n" ++
      "M = 9223372036854775807, N\x7d;enum class F:int\x7bX\x7d;").toList ∧
    standard.parse source = .ok classes ∧
    classes.map (fun cls => cls.properties.map Property.ordinal) =
      [[16, 17, -10, -9, 9223372036854775807, 9223372036854775807], [0]] ∧
    ∃ tokens enums, Token.tokenize source = .ok tokens ∧ Layout.Enums enums tokens ∧
      List.Forall₂ (fun cls written => WrittenEnum.IsReadAs written cls.name
        (cls.properties.map fun property => (property.enumName, property.ordinal)))
      classes enums := by
  obtain ⟨classes, parsed, ordinals⟩ := Option.map_eq_some_iff.mp
    (show (standard.parse ("enum E\x7bA = 0x10, B, C = -010UL,\n#if X\nD // d\n" ++
        "M = 9223372036854775807, N\x7d;enum class F:int\x7bX\x7d;").toList).toOption.map
        (List.map fun cls => cls.properties.map Property.ordinal) =
      some [[16, 17, -10, -9, 9223372036854775807, 9223372036854775807], [0]] by
      decide +kernel)
  have ran := ok_of_toOption parsed
  exact ⟨_, classes, rfl, ran, ordinals, enums_of_parse ran⟩

end Extractor

end Scaffold
