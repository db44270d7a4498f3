/-
**Tokens are a partition of the source.**

The tokens of a source stand one after the other, from its start to its end (`Partitions`). Each of
them is the longest one where it stands, and it is cut off its own text as well (`IsWhole`): what a
token looks at behind itself can always be missing. For the same reason the part of a source before
any token is cut in the same way, so a block comment without an end is the only thing that is wrong
with a source (`exists_of_tokensFrom_error`). `tokenize_partition` puts all of this together.
-/

import Scaffold.Proofs.Bytes.Slices
import Scaffold.Proofs.Extraction.Patterns

namespace Scaffold

namespace Token

variable {source : Text} {tokens : Tokens} {token : Token} {offset : Nat} {text after : Text}

/-! ### Where tokens stand -/

/-- The tokens cut the source into pieces without gaps. -/
structure Partitions (source : Text) (tokens : Tokens) : Prop where
  /-- The first token starts where the source does. -/
  starts : Tokens.offset source.size tokens = 0
  /-- A token ends where the next one starts, and the last one where the source ends. -/
  adjoins : ∀ before token after, tokens = before ++ token :: after →
    token.stop = Tokens.offset source.size after
  filled : ∀ token ∈ tokens, token.offset < token.stop
  /-- Tokens start and end between two characters. -/
  slices : ∀ token ∈ tokens, source.slice? token.offset token.stop = some token.text

theorem Placed.offset_eq (placed : Placed offset tokens text) :
    Tokens.offset (offset + text.size) tokens = offset := by
  cases placed <;> rfl

theorem Placed.stop_eq {before rest : Tokens}
    (placed : Placed offset (before ++ token :: rest) text) :
    token.stop = Tokens.offset (offset + text.size) rest := by
  induction before generalizing offset text with
  | nil =>
    cases placed with
    | @cons _ _ text more =>
      rw [Text.size_append, ← Nat.add_assoc]
      exact more.offset_eq.symm
  | cons first before ih =>
    rw [List.cons_append] at placed
    cases placed with
    | @cons _ _ text more =>
      rw [Text.size_append, ← Nat.add_assoc]
      exact ih more

/-- Each token is cut off somewhere. -/
theorem exists_lexeme_of_mem (cut : tokensFrom offset text = .ok tokens) (member : token ∈ tokens) :
    ∃ first taken after, token.text = first :: taken ∧
      lexeme first (taken ++ after) = some (token.kind, first :: taken, after) := by
  induction tokens generalizing offset text with
  | nil => exact absurd member List.not_mem_nil
  | cons head rest ih =>
    obtain ⟨first, taken, after, -, same, -, found, read⟩ := exists_of_tokensFrom cut
    rcases List.mem_cons.mp member with rfl | later
    · exact ⟨first, taken, after, same, found⟩
    · exact ih read later

theorem partitions_of_tokenize (cut : tokenize source = .ok tokens) : Partitions source tokens := by
  have placed : Placed 0 tokens source := placed_of_tokensFrom cut
  refine ⟨?_, ?_, ?_, ?_⟩
  · rw [← Nat.zero_add source.size]
    exact placed.offset_eq
  · rintro before token after rfl
    rw [← Nat.zero_add source.size]
    exact placed.stop_eq
  · intro token member
    obtain ⟨first, taken, -, same, -⟩ := exists_lexeme_of_mem cut member
    have filled := Text.size_pos (same ▸ List.cons_ne_nil first taken : token.text ≠ [])
    exact Nat.lt_add_of_pos_right filled
  · intro token member
    obtain ⟨inner, stands, place⟩ := placed.hasAt token member
    rw [Nat.zero_add] at place
    rw [stop, ← place]
    exact stands.slice?

/-! ### Tokens on their own -/

/-- The token is the only one of its own text. -/
def IsWhole (token : Token) : Prop := tokenize token.text = .ok [⟨token.kind, token.text, 0⟩]

theorem isWhole_of_mem (cut : tokensFrom offset text = .ok tokens) (member : token ∈ tokens) :
    IsWhole token := by
  obtain ⟨first, taken, after, same, found⟩ := exists_lexeme_of_mem cut member
  have alone := lexeme_of_sameAhead found (sameAhead_of_leads List.nil_prefix)
  rw [List.append_nil] at alone
  rw [IsWhole, same, tokenize, tokensFrom_cons alone, tokensFrom]
  rfl

/-! ### Block comments -/

/-- The token is a block comment up to the first end of one behind its opening. -/
def IsBlock (token : Token) : Prop :=
  token.kind = .blockComment ∧ ∃ body, token.text = '/' :: '*' :: (body ++ ['*', '/']) ∧
    ¬ ['*', '/'] <:+: body ++ ['*']

theorem lexeme_block (rest : Text) : lexeme '/' ('*' :: rest) =
    (commentBody rest).map fun parts => (.blockComment, '/' :: '*' :: parts.1, parts.2) := rfl

theorem isBlock_of_mem (cut : tokensFrom offset text = .ok tokens) (member : token ∈ tokens)
    (opens : ['/', '*'] <+: token.text) : IsBlock token := by
  obtain ⟨first, taken, after, same, found⟩ := exists_lexeme_of_mem cut member
  obtain ⟨more, split⟩ := opens
  have split : '/' :: '*' :: more = first :: taken := split.trans same
  cases split
  rw [List.cons_append, lexeme_block] at found
  obtain ⟨⟨body, rest⟩, read, parts⟩ := Option.map_eq_some_iff.mp found
  obtain ⟨kind, inner⟩ := Prod.mk.inj parts
  obtain ⟨inside, rfl, first⟩ := commentBody_eq_some read
  exact ⟨kind.symm, inside, same.trans (Prod.mk.inj inner).1.symm, first⟩

/-- Only a block comment without an end is no token. -/
theorem exists_of_lexeme_none {first : Char} {rest : Text} (failed : lexeme first rest = none) :
    ∃ more, first :: rest = '/' :: '*' :: more ∧ ¬ ['*', '/'] <:+: more := by
  rw [lexeme_eq] at failed
  repeat' split at failed
  all_goals try cases failed
  unfold sign at failed
  split at failed
  · cases failed
  · exact ⟨_, rfl, commentBody_eq_none (Option.map_eq_none_iff.mp failed)⟩
  · cases failed
  · cases failed

/-- **A source that has no tokens** has a block comment without an end, and what is before that
comment has tokens. -/
theorem exists_of_tokensFrom_error {defect : Defect}
    (failed : tokensFrom offset text = .error defect) :
    ∃ before more tokens, text = before ++ '/' :: '*' :: more ∧ ¬ ['*', '/'] <:+: more ∧
      defect = .malformed .unterminatedComment (offset + before.size) ∧
      tokensFrom offset before = .ok tokens := by
  fun_induction tokensFrom offset text with
  | case1 => cases failed
  | case2 offset first rest none =>
    cases failed
    obtain ⟨more, split, endless⟩ := exists_of_lexeme_none none
    refine ⟨[], more, [], split, endless, rfl, ?_⟩
    rw [tokensFrom]
  | case3 offset first rest kind taken after found shorter ih =>
    obtain ⟨before, more, tokens, rfl, endless, rfl, read⟩ := ih (map_eq_error_iff.mp failed)
    have whole := lexeme_append found
    obtain ⟨char, inner, rfl⟩ := List.exists_cons_of_ne_nil (lexeme_filled found)
    obtain ⟨rfl, rfl⟩ := List.cons.inj whole
    have again := lexeme_of_sameAhead found (sameAhead_of_leads (List.prefix_append before _))
    refine ⟨char :: inner ++ before, more, ⟨kind, char :: inner, offset⟩ :: tokens, ?_, endless, ?_,
      ?_⟩
    · rw [List.append_assoc]
      rfl
    · rw [Text.size_append, Nat.add_assoc]
    · rw [List.cons_append, tokensFrom_cons again, read]
      rfl

/-- **Tokens are a partition of the source**, each of them the longest one where it stands and whole,
and block comments up to their first ends; or there is a block comment without an end, and a
partition of what is before it. -/
theorem tokenize_partition (source : Text) :
    (∃ tokens, tokenize source = .ok tokens ∧ Partitions source tokens ∧
      (∀ before token after, tokens = before ++ token :: after →
        IsLongest token (Tokens.text after)) ∧
      ∀ token ∈ tokens, IsWhole token ∧ (['/', '*'] <+: token.text → IsBlock token)) ∨
    ∃ before after tokens, source = before ++ '/' :: '*' :: after ∧
      ¬ ['*', '/'] <:+: after ∧
      tokenize source = .error (.malformed .unterminatedComment before.size) ∧
      tokenize before = .ok tokens := by
  cases cut : tokenize source with
  | ok tokens =>
    refine Or.inl ⟨tokens, rfl, partitions_of_tokenize cut, ?_, fun token member =>
      ⟨isWhole_of_mem cut member, isBlock_of_mem cut member⟩⟩
    rintro before token after rfl
    exact isLongest_of_tokensFrom cut
  | error defect =>
    obtain ⟨before, after, tokens, split, endless, rfl, read⟩ := exists_of_tokensFrom_error cut
    rw [Nat.zero_add]
    exact Or.inr ⟨before, after, tokens, split, endless, rfl, read⟩

end Token

end Scaffold
