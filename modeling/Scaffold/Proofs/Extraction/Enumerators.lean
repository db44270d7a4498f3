/-
**Enums as they are written.**

An enum is its name and its members, each with what is written for its value: nothing, or a literal
that may have a minus before it. The relations below say which tokens write an enum down, without
any reader, and what the readers take for a part of one is written like this:

* `enumName_of_identifier?`, `head_of_declarationHead`: what stands before a body;
* `assigned_of_memberValue`: what is written for the value of a member.
-/

import Scaffold.Proofs.Extraction.Literals
import Scaffold.Proofs.Extraction.Trace

namespace Scaffold

/-- What is written for the value of a member: a literal, with a minus before it or not. -/
structure WrittenValue where
  negative : Bool
  literal : Text

/-- An enum as it is written. -/
structure WrittenEnum where
  name : Text
  /-- The members, each with what is written for its value. -/
  members : List (Text × Option WrittenValue)

/-- What is written denotes this value. -/
def WrittenValue.Denotes (written : WrittenValue) (value : Int) : Prop :=
  ∃ number : Nat, Literal.Denotes written.literal number ∧
    value = if written.negative then -(number : Int) else number

namespace Layout

/-- Blanks of one line. -/
def IsSpacing (space : Tokens) : Prop := ∀ token ∈ space, token.kind = .whitespace

/-- What is written for the value of a member, after its name. -/
inductive Assigned : Option WrittenValue → Tokens → Tokens → Prop
  | nothing (rest : Tokens) : Assigned none rest rest
  | literal {space gap : Tokens} {equals number : Token} (rest : Tokens) :
      IsSpacing space → equals.kind = .equals → IsSpacing gap → number.kind = .number →
      Assigned (some ⟨false, number.text⟩) (space ++ equals :: (gap ++ number :: rest)) rest
  | negated {space gap between : Tokens} {equals minus number : Token} (rest : Tokens) :
      IsSpacing space → equals.kind = .equals → IsSpacing gap → minus.kind = .minus →
      IsSpacing between → number.kind = .number →
      Assigned (some ⟨true, number.text⟩)
        (space ++ equals :: (gap ++ minus :: (between ++ number :: rest))) rest

/-- The members of a body, with the brace that closes it. -/
inductive Enumerators : List (Text × Option WrittenValue) → Tokens → Tokens → Prop
  | closed {brace : Token} (rest : Tokens) : brace.kind = .closeBrace →
      Enumerators [] (brace :: rest) rest
  | trivia {members : List (Text × Option WrittenValue)} {token : Token} {tokens rest : Tokens} :
      token.kind.isTrivia = true → Enumerators members tokens rest →
      Enumerators members (token :: tokens) rest
  | line {members : List (Text × Option WrittenValue)} {hash feed : Token}
      {line tokens rest : Tokens} :
      hash.kind = .hash → (∀ token ∈ line, token.kind ≠ .newline) → feed.kind = .newline →
      Enumerators members tokens rest → Enumerators members (hash :: (line ++ feed :: tokens)) rest
  | member {members : List (Text × Option WrittenValue)} {written : Option WrittenValue}
      {name : Token} {tokens after rest : Tokens} :
      name.kind = .identifier → Assigned written tokens after → Enumerators members after rest →
      Enumerators ((name.text, written) :: members) (name :: tokens) rest
  | separated {members : List (Text × Option WrittenValue)} {written : Option WrittenValue}
      {name comma : Token} {space tokens after rest : Tokens} :
      name.kind = .identifier → Assigned written tokens (space ++ comma :: after) →
      IsSpacing space → comma.kind = .comma → Enumerators members after rest →
      Enumerators ((name.text, written) :: members) (name :: tokens) rest

/-- Enums with a body among the tokens, in their order, with any tokens around them. -/
inductive Enums : List WrittenEnum → Tokens → Prop
  | ended (tokens : Tokens) : Enums [] tokens
  | skip {enums : List WrittenEnum} {tokens : Tokens} (token : Token) :
      Enums enums tokens → Enums enums (token :: tokens)
  | enum {enums : List WrittenEnum} {written : WrittenEnum} {comments : List Excerpt}
      {keyword opening : Token} {named head content rest : Tokens} :
      keyword.isWord "enum".toList = true → EnumName written.name named head →
      Head comments head (opening :: content) → opening.kind = .openBrace →
      Enumerators written.members content rest → Enums enums rest →
      Enums (written :: enums) (keyword :: named)

variable {tokens rest : Tokens}

/-- Blanks, and what is left without them. -/
theorem exists_spacing (tokens : Tokens) :
    ∃ space, IsSpacing space ∧ tokens = space ++ tokens.skipSpacing := by
  refine ⟨_, fun token member => ?_, List.takeWhile_append_dropWhile.symm⟩
  have blank := List.mem_takeWhile_imp member
  exact beq_iff_eq.mp blank

theorem IsSpacing.isTrivia {space : Tokens} (spacing : IsSpacing space) :
    ∀ token ∈ space, token.kind.isTrivia = true := by
  intro token member
  rw [spacing token member]
  rfl

theorem Enumerators.of_trivia {members : List (Text × Option WrittenValue)} {space : Tokens}
    (trivial : ∀ token ∈ space, token.kind.isTrivia = true)
    (written : Enumerators members tokens rest) : Enumerators members (space ++ tokens) rest := by
  induction space with
  | nil => exact written
  | cons token space ih =>
    obtain ⟨first, others⟩ := List.forall_mem_cons.mp trivial
    exact .trivia first (ih others)

theorem Enumerators.of_skipTrivia {members : List (Text × Option WrittenValue)}
    (written : Enumerators members tokens.skipTrivia rest) : Enumerators members tokens rest := by
  have whole : (tokens.takeWhile fun token => token.kind.isTrivia) ++ tokens.skipTrivia = tokens :=
    List.takeWhile_append_dropWhile
  rw [← whole]
  exact written.of_trivia fun _ => List.mem_takeWhile_imp

theorem Enumerators.of_skipSpacing {members : List (Text × Option WrittenValue)}
    (written : Enumerators members tokens.skipSpacing rest) : Enumerators members tokens rest := by
  obtain ⟨space, spacing, split⟩ := exists_spacing tokens
  rw [split]
  exact written.of_trivia spacing.isTrivia

theorem Enumerators.of_trailingComment {members : List (Text × Option WrittenValue)}
    (written : Enumerators members tokens.trailingComment.2 rest) :
    Enumerators members tokens rest := by
  apply Enumerators.of_skipSpacing
  unfold Tokens.trailingComment at written
  split at written
  · rename_i nothing
    rw [nothing]
    exact written
  · rename_i token later found
    rw [found]
    split at written
    · rename_i isComment
      exact .trivia (TokenKind.isTrivia_of_isComment isComment) written
    · exact written

theorem Enums.of_suffix {enums : List WrittenEnum} {later : Tokens} (suffix : later <:+ tokens)
    (written : Enums enums later) : Enums enums tokens := by
  obtain ⟨skipped, rfl⟩ := suffix
  induction skipped with
  | nil => exact written
  | cons token skipped ih => exact .skip token ih

end Layout

namespace Tokens

variable {tokens rest : Tokens} {token : Token}

/-- Trivia, and what is left without them. -/
theorem exists_trivia (found : tokens.skipTrivia = rest) :
    ∃ space : Tokens, (∀ token ∈ space, token.kind.isTrivia = true) ∧ tokens = space ++ rest := by
  rw [← found]
  exact ⟨_, fun _ => List.mem_takeWhile_imp, List.takeWhile_append_dropWhile.symm⟩

theorem not_isTrivia_of_skipTrivia (found : tokens.skipTrivia = token :: rest) :
    token.kind.isTrivia = false := by
  have solid := List.head?_dropWhile_not (fun token : Token => token.kind.isTrivia) tokens
  rw [show tokens.dropWhile _ = token :: rest from found] at solid
  exact Bool.eq_false_iff.mpr fun trivial => by simp [trivial] at solid

theorem eatWord_of_skipTrivia (found : tokens.skipTrivia = token :: rest) (word : Text) :
    tokens.eatWord word = if token.isWord word then (true, rest) else (false, token :: rest) := by
  rw [eatWord, found]

/-- A token that comes next is dropped by its kind. -/
theorem exists_cons_of_peek? {kind : TokenKind} (found : tokens.peek? = some kind) :
    ∃ token, tokens = token :: tokens.dropOne kind ∧ token.kind = kind := by
  cases tokens with
  | nil => cases found
  | cons token rest =>
    have same : token.kind = kind := Option.some.inj found
    exact ⟨token, by rw [dropOne, if_pos same], same⟩

/-- What is skipped ends with a token of the kind, or there is none and nothing is left. -/
theorem skipPast_cases (kind : TokenKind) (tokens : Tokens) :
    (∃ line stop, (∀ token ∈ line, token.kind ≠ kind) ∧ stop.kind = kind ∧
        tokens = line ++ stop :: tokens.skipPast kind) ∨
      (∀ token ∈ tokens, token.kind ≠ kind) ∧ tokens.skipPast kind = [] := by
  unfold skipPast
  have others : ∀ token ∈ tokens.takeWhile fun token => token.kind != kind, token.kind ≠ kind := by
    intro token member
    have other := List.mem_takeWhile_imp member
    exact bne_iff_ne.mp other
  have split := List.takeWhile_append_dropWhile
    (p := fun token : Token => token.kind != kind) (l := tokens)
  have stops := List.head?_dropWhile_not (fun token : Token => token.kind != kind) tokens
  cases left : tokens.dropWhile fun token => token.kind != kind with
  | nil =>
    rw [left, List.append_nil] at split
    exact Or.inr ⟨split ▸ others, rfl⟩
  | cons stop rest =>
    rw [left] at split stops
    exact Or.inl ⟨_, stop, others, by simpa using stops, split.symm⟩

/-- An identifier is found after trivia. -/
theorem exists_of_identifier? (found : tokens.identifier? = some (token, rest)) :
    ∃ space : Tokens, (∀ token ∈ space, token.kind.isTrivia = true) ∧
      tokens = space ++ token :: rest ∧ token.kind = .identifier := by
  unfold identifier? at found
  split at found
  · cases found
  · rename_i next
    split at found
    · rename_i kind
      cases found
      obtain ⟨space, trivial, split⟩ := exists_trivia next
      exact ⟨space, trivial, split, kind⟩
    · cases found

end Tokens

namespace Outline

open Tokens

variable {sourceEnd : Nat} {tokens rest : Tokens}

/-! ### Before the body -/

/-- **The name of an enum** is what is written for it. -/
theorem enumName_of_identifier? {name : Token} {after : Tokens}
    (named : (skipEnumKind tokens).identifier? = some (name, after)) :
    Layout.EnumName name.text tokens after := by
  cases next : tokens.skipTrivia with
  | nil =>
    rw [skipEnumKind, eatWord, next] at named
    cases named
  | cons token rest =>
    obtain ⟨space, trivial, rfl⟩ := exists_trivia next
    have significant := not_isTrivia_of_skipTrivia next
    have kinded : token.isWord "class".toList = true ∨ token.isWord "struct".toList = true →
        Tokens.identifier? rest = some (name, after) →
        Layout.EnumName name.text (space ++ token :: rest) after := by
      intro isKind found
      obtain ⟨between, gap, rfl, kind⟩ := exists_of_identifier? found
      exact .kinded after trivial isKind gap kind
    rw [skipEnumKind, eatWord_of_skipTrivia next] at named
    by_cases isClass : token.isWord "class".toList = true
    · rw [if_pos isClass] at named
      exact kinded (Or.inl isClass) named
    · rw [if_neg isClass] at named
      dsimp only at named
      rw [if_neg Bool.false_ne_true,
        eatWord_of_skipTrivia (skipTrivia_of_not_trivia significant rest)] at named
      by_cases isStruct : token.isWord "struct".toList = true
      · rw [if_pos isStruct] at named
        exact kinded (Or.inr isStruct) named
      · rw [if_neg isStruct, identifier?, skipTrivia_of_not_trivia significant] at named
        dsimp only at named
        split at named
        · rename_i kind
          cases named
          refine .bare after trivial kind (fun word => isClass ?_) fun word => isStruct ?_
          · exact Token.isWord_iff.mpr ⟨kind, word⟩
          · exact Token.isWord_iff.mpr ⟨kind, word⟩
        · cases named

/-- Trivia in front of a head, and the comments among them. -/
theorem head_of_skipTrivia {comments : List Excerpt}
    (written : Layout.Head comments tokens.skipTrivia rest) :
    Layout.Head (tokens.leadingComments ++ comments) tokens rest := by
  induction tokens with
  | nil => exact written
  | cons token tokens ih =>
    by_cases trivial : token.kind.isTrivia = true
    · rw [skipTrivia_of_trivia trivial] at written
      rw [leadingComments_of_trivia trivial]
      by_cases isComment : token.kind.isComment = true
      · rw [if_pos isComment]
        exact .comment isComment (ih written)
      · rw [if_neg isComment]
        refine .blank ?_ (ih written)
        revert trivial isComment
        generalize token.kind = kind
        cases kind <;> decide
    · rw [Bool.not_eq_true] at trivial
      rw [skipTrivia_of_not_trivia trivial] at written
      rw [leadingComments_of_not_trivia trivial]
      exact written

/-- **The head of an enum** is what is written before the brace that opens its body, or before the
semicolon that stands for it. -/
theorem head_of_declarationHead {name : Text} {found : Option (List Excerpt)}
    (read : declarationHead sourceEnd name tokens = .ok (found, rest)) :
    ∃ stop comments, Layout.Head comments tokens (stop :: rest) ∧
      (stop.kind = .openBrace ∧ found = some comments ∨ stop.kind = .semicolon ∧ found = none) := by
  fun_induction declarationHead sourceEnd name tokens generalizing found with
  | case1 | case7 => cases read
  | case2 tokens shorter token later next inner kind
  | case3 tokens shorter token later next inner kind =>
    cases read
    have written := head_of_skipTrivia (.nil tokens.skipTrivia)
    rw [List.append_nil, next] at written
    exact ⟨token, _, written, by simp [kind]⟩
  | case4 tokens shorter token later next inner kind ih
  | case5 tokens shorter token later next inner kind ih
  | case6 tokens shorter token later next inner kind ih =>
    obtain ⟨⟨kept, after⟩, readLater, same⟩ := map_eq_ok_iff.mp read
    obtain ⟨rfl, rfl⟩ := Prod.mk.inj same
    obtain ⟨stop, comments, written, ends⟩ := ih readLater
    have typed : token.kind = .colon ∨ token.kind = .doubleColon ∨ token.kind = .identifier := by
      rw [kind]
      decide
    have before : Layout.Head comments tokens.skipTrivia (stop :: after) :=
      next ▸ Layout.Head.type typed written
    refine ⟨stop, _, head_of_skipTrivia before, ?_⟩
    rcases ends with ⟨opens, rfl⟩ | ⟨ends, rfl⟩
    · exact Or.inl ⟨opens, rfl⟩
    · exact Or.inr ⟨ends, rfl⟩

/-! ### Values -/

/-- The number after a sign. -/
theorem number_of_signedValue {member : Text} {value : Int}
    (found : signedValue sourceEnd member tokens = .ok (value, rest)) :
    ∃ (token : Token) (number : Nat),
      (if tokens.skipSpacing.peek? == some .minus
        then (tokens.skipSpacing.dropOne .minus).skipSpacing
        else tokens.skipSpacing) = token :: rest ∧
      token.kind = .number ∧ Literal.Denotes token.text number ∧ (number : Int) < 2 ^ 63 ∧
      value = if tokens.skipSpacing.peek? == some .minus then -(number : Int) else number := by
  unfold signedValue at found
  dsimp only at found
  split at found
  · cases found
  · rename_i token later digits
    split at found
    · rename_i signless read
      cases found
      split at read
      · rename_i kind
        obtain ⟨number, denotes, rfl, bounded⟩ := Literal.value?_eq_some_iff.mp read
        exact ⟨token, number, digits, kind, denotes, by omega, rfl⟩
      · cases read
    · cases found

/-- **The value after an equals sign** is what is written denotes, and 64 bits are enough for it. -/
theorem assigned_of_signedValue {member : Text} {value : Int} {space : Tokens} {equals : Token}
    (spacing : Layout.IsSpacing space) (isEquals : equals.kind = .equals)
    (found : signedValue sourceEnd member tokens = .ok (value, rest)) :
    ∃ written : WrittenValue, Layout.Assigned (some written) (space ++ equals :: tokens) rest ∧
      written.Denotes value ∧ -(2 ^ 63) < value ∧ value < 2 ^ 63 := by
  obtain ⟨token, number, digits, kind, denotes, bounded, same⟩ := number_of_signedValue found
  obtain ⟨gap, blank, split⟩ := Layout.exists_spacing tokens
  by_cases negative : (tokens.skipSpacing.peek? == some .minus) = true
  · rw [if_pos negative] at digits same
    obtain ⟨minus, signed, isMinus⟩ := exists_cons_of_peek? (beq_iff_eq.mp negative)
    obtain ⟨between, inner, apart⟩ := Layout.exists_spacing (tokens.skipSpacing.dropOne .minus)
    rw [split, signed, apart, digits]
    refine ⟨⟨true, token.text⟩, ?_, ⟨number, denotes, same⟩, by omega, by omega⟩
    exact .negated rest spacing isEquals blank isMinus inner kind
  · rw [if_neg negative] at digits same
    rw [split, digits]
    refine ⟨⟨false, token.text⟩, ?_, ⟨number, denotes, same⟩, by omega, by omega⟩
    exact .literal rest spacing isEquals blank kind

/-- What is written for a value, and the value: none for nothing. -/
inductive Agrees : Option WrittenValue → Option Int → Prop
  | nothing : Agrees none none
  | given {written : WrittenValue} {value : Int} : written.Denotes value → -(2 ^ 63) < value →
      value < 2 ^ 63 → Agrees (some written) (some value)

/-- **The value of a member** is what is written for it. -/
theorem assigned_of_memberValue {member : Text} {value : Option Int} {after : Tokens}
    (found : memberValue sourceEnd member tokens = .ok (value, after)) :
    ∃ written next, Layout.Assigned written tokens next ∧
      next.skipSpacing = after.skipSpacing ∧ Agrees written value := by
  unfold memberValue at found
  split at found
  · rename_i nothing
    cases found
    exact ⟨none, tokens, .nothing tokens, nothing, .nothing⟩
  · rename_i token later next
    split at found
    · rename_i isEquals
      obtain ⟨⟨number, rest⟩, read, same⟩ := map_eq_ok_iff.mp found
      cases same
      obtain ⟨space, spacing, split⟩ := Layout.exists_spacing tokens
      obtain ⟨written, assigned, denotes, least, most⟩ :=
        assigned_of_signedValue spacing isEquals read
      rw [split, next]
      exact ⟨some written, rest, assigned, rfl, .given denotes least most⟩
    · cases found
      refine ⟨none, tokens, .nothing tokens, ?_, .nothing⟩
      rw [← next, skipSpacing_skipSpacing]

end Outline

end Scaffold
