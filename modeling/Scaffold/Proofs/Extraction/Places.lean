/-
**Places inside of enums.**

A place in a source is given by the tokens before it. The relations below say of these tokens,
without any reader, that they lead into the body of an enum:

* `Layout.Inside` — the tokens of a body up to the place; no brace closes it, and preprocessor lines
  are there as a whole;
* `Layout.Items` — what stands before the enum, with the number of enums with a body among it;
* `Layout.InBody` — all of it.

They look at nothing that follows the place, so whatever follows may be replaced (`Path.append`,
`EnumName.append`, `Head.append`).
-/

import Scaffold.Proofs.Extraction.Landmarks

namespace Scaffold.Layout

variable {tokens rest : Tokens}

/-! ### Relations -/

/-- Tokens inside of the braces of an enum, up to a place that is on no preprocessor line. -/
inductive Inside : Tokens → Prop
  | nil : Inside []
  | token {token : Token} {tokens : Tokens} :
      IsInner token → Inside tokens → Inside (token :: tokens)
  | line {hash feed : Token} {line tokens : Tokens} :
      hash.kind = .hash → (∀ token ∈ line, token.kind ≠ .newline) → feed.kind = .newline →
      Inside tokens → Inside (hash :: (line ++ feed :: tokens))

/-- Whole items outside of enums, and how many enums with a body are among them. -/
inductive Items : Nat → Tokens → Prop
  | nil : Items 0 []
  | filler {count : Nat} {token : Token} {tokens : Tokens} :
      IsFiller token → Items count tokens → Items count (token :: tokens)
  | brace {count : Nat} {brace : Token} {tokens : Tokens} :
      brace.kind = .openBrace ∨ brace.kind = .closeBrace → Items count tokens →
      Items count (brace :: tokens)
  | line {count : Nat} {hash feed : Token} {line tokens : Tokens} :
      hash.kind = .hash → (∀ token ∈ line, token.kind ≠ .newline) → feed.kind = .newline →
      Items count tokens → Items count (hash :: (line ++ feed :: tokens))
  | statement {count : Nat} {word stop : Token} {statement tokens : Tokens} :
      word.isWord "using".toList = true → (∀ token ∈ statement, token.kind ≠ .semicolon) →
      stop.kind = .semicolon → Items count tokens →
      Items count (word :: (statement ++ stop :: tokens))
  | abbreviation {count : Nat} {path : List Text} {word equals stop : Token}
      {head statement tokens : Tokens} :
      word.isWord "namespace".toList = true →
      Path path head (equals :: (statement ++ stop :: tokens)) → equals.kind = .equals →
      (∀ token ∈ statement, token.kind ≠ .semicolon) → stop.kind = .semicolon →
      Items count tokens → Items count (word :: head)
  | namespaced {count : Nat} {path : List Text} {word stop : Token} {head tokens : Tokens} :
      word.isWord "namespace".toList = true → Path path head (stop :: tokens) →
      stop.kind = .openBrace ∨ stop.kind = .semicolon → Items count tokens →
      Items count (word :: head)
  | forward {count : Nat} {name : Text} {comments : List Excerpt} {word stop : Token}
      {named head tokens : Tokens} :
      word.isWord "enum".toList = true → EnumName name named head →
      Head comments head (stop :: tokens) → stop.kind = .semicolon → Items count tokens →
      Items count (word :: named)
  | enumeration {count : Nat} {name : Text} {comments : List Excerpt}
      {word opening closing : Token} {named head inner tokens : Tokens} :
      word.isWord "enum".toList = true → EnumName name named head →
      Head comments head (opening :: (inner ++ closing :: tokens)) → opening.kind = .openBrace →
      Inside inner → closing.kind = .closeBrace → Items count tokens →
      Items (count + 1) (word :: named)

/-- All tokens before a place inside of the braces of an enum; so many enums with a body stand
before that one. -/
inductive InBody : Nat → Tokens → Prop
  | intro {count : Nat} {name : Text} {comments : List Excerpt} {word opening : Token}
      {front named head inner : Tokens} :
      Items count front → word.isWord "enum".toList = true → EnumName name named head →
      Head comments head [opening] → opening.kind = .openBrace → Inside inner →
      InBody count (front ++ word :: (named ++ inner))

/-! ### What follows -/

theorem Path.append {names : List Text} (path : Path names tokens rest) (more : Tokens) :
    Path names (tokens ++ more) (rest ++ more) := by
  induction path with
  | nil rest => exact .nil _
  | skip passed path ih => exact .skip passed ih
  | last kind text space =>
    rw [List.cons_append, List.append_assoc]
    exact .last kind text space
  | more kind text space colons path ih =>
    rw [List.cons_append, List.append_assoc]
    exact .more kind text space colons ih

theorem EnumName.append {name : Text} (named : EnumName name tokens rest) (more : Tokens) :
    EnumName name (tokens ++ more) (rest ++ more) := by
  cases named with
  | bare rest space kind noClass noStruct =>
    rw [List.append_assoc]
    exact .bare _ space kind noClass noStruct
  | kinded rest space word between kind =>
    rw [List.append_assoc, List.cons_append, List.append_assoc]
    exact .kinded _ space word between kind

theorem Head.append {comments : List Excerpt} (head : Head comments tokens rest) (more : Tokens) :
    Head comments (tokens ++ more) (rest ++ more) := by
  induction head with
  | nil rest => exact .nil _
  | comment isComment head ih => exact .comment isComment ih
  | blank blank head ih => exact .blank blank ih
  | type type head ih => exact .type type ih

theorem EnumName.suffix {name : Text} (named : EnumName name tokens rest) : rest <:+ tokens := by
  cases named with
  | @bare space token => exact ⟨space ++ [token], by simp⟩
  | @kinded space between word token => exact ⟨space ++ word :: (between ++ [token]), by simp⟩

theorem Head.suffix {comments : List Excerpt} (head : Head comments tokens rest) :
    rest <:+ tokens := by
  induction head with
  | nil rest => exact List.suffix_refl rest
  | comment _ _ ih | blank _ _ ih | type _ _ ih => exact ih.trans (List.suffix_cons ..)

/-! ### Inside of a body -/

namespace Inside

variable {token : Token}

instance : Decidable (IsInner token) := inferInstanceAs (Decidable (_ ∧ _))

theorem of_isInner (isInner : ∀ token ∈ tokens, IsInner token) : Inside tokens := by
  induction tokens with
  | nil => exact .nil
  | cons token tokens ih =>
    obtain ⟨first, others⟩ := List.forall_mem_cons.mp isInner
    exact .token first (ih others)

theorem append {more : Tokens} (inside : Inside tokens) (later : Inside more) :
    Inside (tokens ++ more) := by
  induction inside with
  | nil => exact later
  | token isInner inside ih => exact .token isInner ih
  | line hash others feed inside ih =>
    rw [List.cons_append, List.append_assoc]
    exact .line hash others feed ih

/-- What follows a token that starts no preprocessor line. -/
theorem tail (inside : Inside (token :: tokens)) (noHash : token.kind ≠ .hash) : Inside tokens := by
  cases inside with
  | token isInner inside => exact inside
  | line hash => exact absurd hash noHash

theorem dropWhile {holds : Token → Bool} (other : ∀ token, holds token = true → token.kind ≠ .hash)
    (inside : Inside tokens) : Inside (tokens.dropWhile holds) := by
  induction tokens with
  | nil => exact inside
  | cons token rest ih =>
    by_cases passed : holds token = true
    · rw [List.dropWhile_cons_of_pos passed]
      exact ih (inside.tail (other token passed))
    · rwa [List.dropWhile_cons_of_neg passed]

theorem skipTrivia (inside : Inside tokens) : Inside tokens.skipTrivia :=
  inside.dropWhile fun _ trivial => (isInner_of_isTrivia trivial).2

theorem skipSpacing (inside : Inside tokens) : Inside tokens.skipSpacing :=
  inside.dropWhile fun _ blank => by rw [beq_iff_eq.mp blank]; decide

theorem dropOne {kind : TokenKind} (other : kind ≠ .hash) (inside : Inside tokens) :
    Inside (tokens.dropOne kind) := by
  unfold Tokens.dropOne
  split
  · exact inside
  · split
    · rename_i same
      exact inside.tail (same ▸ other)
    · exact inside

theorem trailingComment (inside : Inside tokens) : Inside tokens.trailingComment.2 := by
  have spaced := inside.skipSpacing
  unfold Tokens.trailingComment
  split
  · exact .nil
  · rename_i token rest found
    rw [found] at spaced
    split
    · rename_i isComment
      exact spaced.tail (isInner_of_isTrivia (TokenKind.isTrivia_of_isComment isComment)).2
    · exact spaced

/-- A token inside of a body is on no preprocessor line, or it ends one. -/
theorem of_concat {last : Token} (inside : Inside (tokens ++ [last])) :
    Inside tokens ∨ ∃ before hash line, tokens = before ++ hash :: line ∧ Inside before ∧
      hash.kind = .hash ∧ ∀ token ∈ line, token.kind ≠ .newline := by
  generalize whole : tokens ++ [last] = all at inside
  induction inside generalizing tokens with
  | nil => exact absurd whole (List.append_ne_nil_of_right_ne_nil _ (List.cons_ne_nil _ _))
  | @token first rest isInner inside ih =>
    cases tokens with
    | nil => exact Or.inl .nil
    | cons token tokens =>
      obtain ⟨rfl, same⟩ := List.cons.inj whole
      refine (ih same).imp (.token isInner) ?_
      rintro ⟨before, hash, line, rfl, inside, isHash, others⟩
      exact ⟨token :: before, hash, line, rfl, .token isInner inside, isHash, others⟩
  | @line hash ending line rest isHash others isFeed inside ih =>
    rcases List.eq_nil_or_concat rest with rfl | ⟨rest, final, rfl⟩
    · obtain ⟨rfl, -⟩ := List.append_inj' (whole.trans (List.cons_append ..).symm) rfl
      exact Or.inr ⟨[], hash, line, rfl, .nil, isHash, others⟩
    · have split : tokens ++ [last] = (hash :: (line ++ ending :: rest)) ++ [final] := by
        rw [whole, List.cons_append, List.append_assoc, List.cons_append, List.concat_eq_append]
      obtain ⟨rfl, same⟩ := List.append_inj' split rfl
      cases same
      refine (ih (List.concat_eq_append ..).symm).imp (.line isHash others isFeed) ?_
      rintro ⟨before, other, more, rfl, inside, isOther, feedless⟩
      exact ⟨hash :: (line ++ ending :: before), other, more, by simp,
        .line isHash others isFeed inside, isOther, feedless⟩

end Inside

/-- A place in an enum that a source starts with. -/
theorem InBody.first {word space name opening : Token} {inner : Tokens}
    (isEnum : word.isWord "enum".toList = true) (trivial : space.kind.isTrivia = true)
    (kind : name.kind = .identifier) (noClass : name.text ≠ "class".toList)
    (noStruct : name.text ≠ "struct".toList) (opens : opening.kind = .openBrace)
    (inside : Inside inner) : InBody 0 (word :: space :: name :: opening :: inner) :=
  .intro .nil isEnum (.spaced trivial kind noClass noStruct [opening]) (.nil [opening]) opens inside

/-- A place behind a line feed is on a line of its own, or it follows a preprocessor line. -/
theorem InBody.of_concat {count : Nat} {feed : Token} (place : InBody count (tokens ++ [feed]))
    (isFeed : feed.kind = .newline) :
    InBody count tokens ∨ ∃ before hash line, tokens = before ++ hash :: line ∧
      InBody count before ∧ hash.kind = .hash ∧ ∀ token ∈ line, token.kind ≠ .newline := by
  generalize whole : tokens ++ [feed] = all at place
  cases place with
  | @intro _ _ word opening front named head inner items isEnum isName headed opens inside =>
    rcases List.eq_nil_or_concat inner with rfl | ⟨inner, last, rfl⟩
    · obtain ⟨before, rfl⟩ := headed.suffix.trans isName.suffix
      have same : tokens ++ [feed] = (front ++ word :: before) ++ [opening] := by simp [whole]
      cases List.append_inj_right' same rfl
      rw [isFeed] at opens
      cases opens
    · have same : tokens ++ [feed] = (front ++ word :: (named ++ inner)) ++ [last] := by
        simp [whole]
      obtain ⟨rfl, final⟩ := List.append_inj' same rfl
      cases final
      rw [List.concat_eq_append] at inside
      refine inside.of_concat.imp (.intro items isEnum isName headed opens) ?_
      rintro ⟨before, hash, line, rfl, within, isHash, others⟩
      exact ⟨front ++ word :: (named ++ before), hash, line, by simp,
        .intro items isEnum isName headed opens within, isHash, others⟩

end Scaffold.Layout
