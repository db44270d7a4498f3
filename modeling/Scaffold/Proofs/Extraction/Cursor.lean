/-
**Readers only move forward.**

What a reader leaves of the tokens is a suffix of them (`…_suffix`), so whatever is found later in
the walk is one of the tokens of the source. These stand in it one after the other
(`placed_of_tokensFrom`), each with its own text at its own offset (`Token.Placed.hasAt`), and what
is read first stands first (`Token.Placed.ordered`).
-/

import Scaffold.Proofs.Extraction.Heads
import Scaffold.Proofs.Results
import Scaffold.Proofs.Text.Places
import Scaffold.Token.Lexer

namespace Scaffold

/-! ### Tokens of a source -/

namespace Token

/-- The tokens are the text, which starts at `offset`, cut into pieces. -/
inductive Placed : (offset : Nat) → List Token → Text → Prop
  | nil {offset : Nat} : Placed offset [] []
  | cons {token : Token} {rest : List Token} {text : Text} (more : Placed token.stop rest text) :
      Placed token.offset (token :: rest) (token.text ++ text)

theorem placed_of_tokensFrom {offset : Nat} {text : Text} {tokens : List Token}
    (cut : tokensFrom offset text = .ok tokens) : Placed offset tokens text := by
  fun_induction tokensFrom offset text generalizing tokens with
  | case1 offset =>
    cases cut
    exact .nil
  | case2 => cases cut
  | case3 offset first rest kind text after found shorter ih =>
    obtain ⟨more, later, rfl⟩ := map_eq_ok_iff.mp cut
    rw [← lexeme_append found]
    exact @Placed.cons ⟨kind, text, offset⟩ more after (ih later)

/-- Each token stands in the text, at its offset. -/
theorem Placed.hasAt {offset : Nat} {tokens : List Token} {text : Text}
    (placed : Placed offset tokens text) :
    ∀ token ∈ tokens, ∃ inner, text.HasAt inner token.text ∧ offset + inner = token.offset := by
  induction placed with
  | nil => exact fun _ absent => absurd absent List.not_mem_nil
  | @cons first rest text more ih =>
    intro token member
    rcases List.mem_cons.mp member with rfl | member
    · exact ⟨0, (Text.HasAt.refl _).left, rfl⟩
    · obtain ⟨inner, stands, place⟩ := ih token member
      exact ⟨first.text.size + inner, (Text.HasAt.append_right first.text text).trans stands,
        (Nat.add_assoc ..).symm.trans place⟩

/-- A token stands after those before it. -/
theorem Placed.ordered {offset : Nat} {before after : List Token} {token : Token} {text : Text}
    (placed : Placed offset (before ++ token :: after) text) :
    ∀ first ∈ before, first.stop ≤ token.offset := by
  induction before generalizing offset text with
  | nil => exact fun _ absent => absurd absent List.not_mem_nil
  | cons earlier before ih =>
    rw [List.cons_append] at placed
    cases placed with
    | @cons _ _ text more =>
    intro first member
    rcases List.mem_cons.mp member with rfl | member
    · obtain ⟨inner, -, place⟩ := more.hasAt token (List.mem_append_right _ List.mem_cons_self)
      omega
    · exact ih more first member

end Token

/-! ### Single readers -/

namespace Tokens

variable {tokens rest : Tokens} {token : Token}

theorem skipTrivia_suffix (tokens : Tokens) : tokens.skipTrivia <:+ tokens :=
  List.dropWhile_suffix _

theorem skipSpacing_suffix (tokens : Tokens) : tokens.skipSpacing <:+ tokens :=
  List.dropWhile_suffix _

theorem skipPast_suffix (kind : TokenKind) (tokens : Tokens) : tokens.skipPast kind <:+ tokens :=
  (List.drop_suffix _ _).trans (List.dropWhile_suffix _)

theorem dropOne_suffix (kind : TokenKind) (tokens : Tokens) : tokens.dropOne kind <:+ tokens := by
  unfold dropOne
  split
  · exact List.suffix_rfl
  · split
    · exact List.suffix_cons _ _
    · exact List.suffix_rfl

/-- What is left after the first token that is no trivia. -/
theorem suffix_of_skipTrivia (found : tokens.skipTrivia = token :: rest) : token :: rest <:+ tokens :=
  found ▸ skipTrivia_suffix tokens

theorem eatIf_suffix (test : Token → Prop) [DecidablePred test] (tokens : Tokens) :
    (tokens.eatIf test).2 <:+ tokens := by
  unfold eatIf
  split
  · exact List.nil_suffix
  · rename_i token rest found
    split
    · exact (List.suffix_cons token rest).trans (suffix_of_skipTrivia found)
    · exact suffix_of_skipTrivia found

theorem eat_suffix (kind : TokenKind) (tokens : Tokens) : (tokens.eat kind).2 <:+ tokens :=
  eatIf_suffix _ tokens

theorem identifier?_suffix (found : tokens.identifier? = some (token, rest)) :
    token :: rest <:+ tokens := by
  unfold identifier? at found
  split at found
  · cases found
  · rename_i next
    split at found
    · cases found
      exact suffix_of_skipTrivia next
    · cases found

theorem trailingComment_suffix (tokens : Tokens) : tokens.trailingComment.2 <:+ tokens := by
  unfold trailingComment
  split
  · exact List.nil_suffix
  · rename_i token rest found
    have suffix : token :: rest <:+ tokens := found ▸ skipSpacing_suffix tokens
    split
    · exact (List.suffix_cons token rest).trans suffix
    · exact suffix

/-- One of the comments among the tokens. -/
def HasComment (tokens : Tokens) (excerpt : Excerpt) : Prop :=
  ∃ token ∈ tokens, token.kind.isComment = true ∧ comment token = excerpt

theorem HasComment.mono {excerpt : Excerpt} (has : rest.HasComment excerpt)
    (suffix : rest <:+ tokens) : tokens.HasComment excerpt := by
  obtain ⟨token, member, isComment, same⟩ := has
  exact ⟨token, suffix.subset member, isComment, same⟩

theorem hasComment_of_leadingComments {excerpt : Excerpt}
    (member : excerpt ∈ tokens.leadingComments) : tokens.HasComment excerpt := by
  obtain ⟨token, kept, same⟩ := List.mem_map.mp member
  obtain ⟨taken, isComment⟩ := List.mem_filter.mp kept
  exact ⟨token, (List.takeWhile_sublist _).subset taken, isComment, same⟩

theorem hasComment_of_trailingComment {excerpt : Excerpt}
    (found : tokens.trailingComment.1 = some excerpt) : tokens.HasComment excerpt := by
  unfold trailingComment at found
  split at found
  · cases found
  · rename_i token rest next
    have suffix : token :: rest <:+ tokens := next ▸ skipSpacing_suffix tokens
    split at found
    · rename_i isComment
      cases found
      exact ⟨token, suffix.subset List.mem_cons_self, isComment, rfl⟩
    · cases found

end Tokens

namespace Outline

open Tokens

variable {sourceEnd : Nat} {tokens rest : Tokens}

/-! ### Heads of namespaces and enums -/

theorem namespaceNames_suffix (tokens : Tokens) : (namespaceNames tokens).2 <:+ tokens := by
  fun_induction namespaceNames tokens with
  | case1 => exact List.nil_suffix
  | case2 tokens shorter token rest found => exact suffix_of_skipTrivia found
  | case3 tokens shorter token rest found inner kind word ih =>
    exact ih.trans ((List.suffix_cons token rest).trans (suffix_of_skipTrivia found))
  | case4 tokens shorter token rest found inner kind word after next =>
    have eaten : after <:+ rest := by simpa only [next] using eat_suffix .doubleColon rest
    exact eaten.trans ((List.suffix_cons token rest).trans (suffix_of_skipTrivia found))
  | case5 tokens shorter token rest found inner kind word after next bounded more ih =>
    have eaten : after <:+ rest := by simpa only [next] using eat_suffix .doubleColon rest
    exact ih.trans (eaten.trans
      ((List.suffix_cons token rest).trans (suffix_of_skipTrivia found)))

theorem namespaceHead_suffix {names : List Text} {shape : NamespaceBody}
    (found : namespaceHead sourceEnd tokens = .ok (names, shape, rest)) : rest <:+ tokens := by
  unfold namespaceHead at found
  dsimp only at found
  split at found
  · cases found
  · rename_i token later next
    have suffix : later <:+ tokens := (List.suffix_cons token later).trans
      ((suffix_of_skipTrivia next).trans (namespaceNames_suffix tokens))
    split at found <;> cases found <;> exact suffix

theorem skipEnumKind_suffix (tokens : Tokens) : skipEnumKind tokens <:+ tokens := by
  unfold skipEnumKind
  dsimp only
  split
  · exact eatIf_suffix _ tokens
  · exact (eatIf_suffix _ _).trans (eatIf_suffix _ tokens)

/-- What a reader of the head of an enum makes of its tokens: comments among them, and what follows
them. -/
def HeadOf (tokens : Tokens) (head : Option (List Excerpt) × Tokens) : Prop :=
  head.2 <:+ tokens ∧ ∀ comments ∈ head.1, ∀ excerpt ∈ comments, tokens.HasComment excerpt

theorem headOf_of_next {token : Token} {later : Tokens} (next : tokens.skipTrivia = token :: later)
    {head : Option (List Excerpt) × Tokens} (isHead : HeadOf later head) :
    HeadOf tokens (addComments tokens.leadingComments head) := by
  have suffix : later <:+ tokens := (List.suffix_cons token later).trans (suffix_of_skipTrivia next)
  refine ⟨isHead.1.trans suffix, fun comments member excerpt among => ?_⟩
  obtain ⟨kept, found, rfl⟩ := Option.map_eq_some_iff.mp member
  rcases List.mem_append.mp among with own | among
  · exact hasComment_of_leadingComments own
  · exact (isHead.2 kept found excerpt among).mono suffix

theorem headOf_of_declarationHead {name : Text} {head : Option (List Excerpt) × Tokens}
    (found : declarationHead sourceEnd name tokens = .ok head) : HeadOf tokens head := by
  fun_induction declarationHead sourceEnd name tokens generalizing head with
  | case1 => cases found
  | case2 tokens shorter token later next inner kind =>
    cases found
    refine ⟨(List.suffix_cons token later).trans (suffix_of_skipTrivia next), ?_⟩
    intro comments same excerpt among
    cases same
    exact hasComment_of_leadingComments among
  | case3 tokens shorter token later next inner kind =>
    cases found
    exact ⟨(List.suffix_cons token later).trans (suffix_of_skipTrivia next),
      fun comments absent => absurd absent (Option.not_mem_none comments)⟩
  | case4 tokens shorter token later next inner kind ih
  | case5 tokens shorter token later next inner kind ih
  | case6 tokens shorter token later next inner kind ih =>
    obtain ⟨kept, read, rfl⟩ := map_eq_ok_iff.mp found
    exact headOf_of_next next (ih read)
  | case7 => cases found

theorem headOf_of_enumHead {name : Text} {head : Option (List Excerpt) × Tokens}
    (found : enumHead sourceEnd tokens = .ok (name, head)) : HeadOf tokens head := by
  unfold enumHead at found
  split at found
  · cases found
  · rename_i token after named
    obtain ⟨kept, read, same⟩ := map_eq_ok_iff.mp found
    cases same
    have suffix : after <:+ tokens := (List.suffix_cons token after).trans
      ((identifier?_suffix named).trans (skipEnumKind_suffix tokens))
    obtain ⟨later, among⟩ := headOf_of_declarationHead read
    exact ⟨later.trans suffix, fun comments member excerpt inside =>
      (among comments member excerpt inside).mono suffix⟩

/-! ### Bodies -/

theorem signedValue_suffix {member : Text} {value : Int}
    (found : signedValue sourceEnd member tokens = .ok (value, rest)) : rest <:+ tokens := by
  unfold signedValue at found
  dsimp only at found
  split at found
  · cases found
  · rename_i token more digits
    have suffix : token :: more <:+ tokens := by
      rw [← digits]
      split
      · exact (skipSpacing_suffix _).trans ((dropOne_suffix _ _).trans (skipSpacing_suffix tokens))
      · exact skipSpacing_suffix tokens
    split at found
    · cases found
      exact (List.suffix_cons token _).trans suffix
    · cases found

theorem memberValue_suffix {member : Text} {value : Option Int}
    (found : memberValue sourceEnd member tokens = .ok (value, rest)) : rest <:+ tokens := by
  unfold memberValue at found
  split at found
  · cases found
    exact List.nil_suffix
  · rename_i token more next
    have suffix : token :: more <:+ tokens := next ▸ skipSpacing_suffix tokens
    split at found
    · obtain ⟨⟨signed, after⟩, read, same⟩ := map_eq_ok_iff.mp found
      cases same
      exact (signedValue_suffix read).trans ((List.suffix_cons token _).trans suffix)
    · cases found
      exact suffix

/-- What follows a member with its comma and its comment. -/
def afterMember (after : Tokens) : Tokens := (after.skipSpacing.dropOne .comma).trailingComment.2

theorem afterMember_suffix (after : Tokens) : afterMember after <:+ after :=
  (trailingComment_suffix _).trans ((dropOne_suffix _ _).trans (skipSpacing_suffix after))

/-- The members of a body have comments among its tokens, and what is left of these follows them. -/
theorem body_suffix (sourceEnd : Nat) (declaration : Text) (seen : List Text) (ordinal : Int)
    (tokens : Tokens) :
    (∀ rest, (body sourceEnd declaration seen ordinal tokens).after = .ok rest →
        rest <:+ tokens) ∧
      ∀ member ∈ (body sourceEnd declaration seen ordinal tokens).members,
        ∀ excerpt ∈ member.comment, tokens.HasComment excerpt := by
  fun_induction body sourceEnd declaration seen ordinal tokens with
  | case1 | case4 | case5 | case7 =>
    refine ⟨fun _ found => ?_, fun _ absent => absurd absent List.not_mem_nil⟩
    cases found
  | case2 seen ordinal tokens shorter token later next inner kind =>
    refine ⟨fun _ found => ?_, fun _ absent => absurd absent List.not_mem_nil⟩
    cases found
    exact (List.suffix_cons token later).trans (suffix_of_skipTrivia next)
  | case3 seen ordinal tokens shorter token later next inner kind bounded ih =>
    have suffix : Tokens.skipLine later <:+ tokens := (skipPast_suffix _ _).trans
      ((List.suffix_cons token later).trans (suffix_of_skipTrivia next))
    exact ⟨fun rest found => (ih.1 rest found).trans suffix,
      fun member among excerpt has => (ih.2 member among excerpt has).mono suffix⟩
  | case6 seen ordinal tokens shorter token later next inner kind isNew value after valued comment
      last trailing bounded fits own more ih =>
    have suffix : after <:+ tokens := (memberValue_suffix valued).trans
      ((List.suffix_cons token later).trans (suffix_of_skipTrivia next))
    have spaced : after.skipSpacing.dropOne .comma <:+ tokens :=
      (dropOne_suffix _ _).trans ((skipSpacing_suffix after).trans suffix)
    have following : last <:+ tokens := by
      have := trailingComment_suffix (after.skipSpacing.dropOne .comma)
      rw [trailing] at this
      exact this.trans spaced
    refine ⟨fun rest found => (ih.1 rest found).trans following,
      List.forall_mem_cons.mpr ⟨fun excerpt has => ?_, fun member among excerpt has =>
        (ih.2 member among excerpt has).mono following⟩⟩
    refine (hasComment_of_trailingComment ?_).mono spaced
    rw [trailing]
    exact has

end Outline

end Scaffold
