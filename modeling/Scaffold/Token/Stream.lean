/-
**Reading tokens from the front.**

What is left to read is a list of tokens. Every operation drops tokens from its front, so none of
them makes the list longer; the length lemmas say so, and reading ends because of them.
-/

import Scaffold.Excerpt.Basic
import Scaffold.Token.Basic

namespace Scaffold

/-- The tokens left to read. -/
abbrev Tokens := List Token

namespace Tokens

/-- The offset of the next token, or the end of the source. -/
def offset (sourceEnd : Nat) : Tokens → Nat
  | [] => sourceEnd
  | token :: _ => token.offset

/-- The kind of the next token. -/
def peek? (tokens : Tokens) : Option TokenKind := tokens.head?.map Token.kind

/-- Without blanks, line feeds and comments at the front. -/
def skipTrivia (tokens : Tokens) : Tokens := tokens.dropWhile fun token => token.kind.isTrivia

/-- Without blanks at the front; stops at a line feed and at a comment. -/
def skipSpacing (tokens : Tokens) : Tokens :=
  tokens.dropWhile fun token => token.kind == .whitespace

/-- What follows the first token of a kind, or nothing. -/
def skipPast (kind : TokenKind) (tokens : Tokens) : Tokens :=
  (tokens.dropWhile fun token => token.kind != kind).drop 1

/-- What follows the current line. -/
def skipLine (tokens : Tokens) : Tokens := skipPast .newline tokens

/-- What follows the current statement. -/
def skipStatement (tokens : Tokens) : Tokens := skipPast .semicolon tokens

/-- The body of a comment token. -/
def comment (token : Token) : Excerpt := .ofComment token.text token.offset

/-- The comments before the next token that is no trivia. -/
def leadingComments (tokens : Tokens) : List Excerpt :=
  ((tokens.takeWhile fun token => token.kind.isTrivia).filter
    fun token => token.kind.isComment).map comment

/-- The comment on the current line, if one comes next, and what follows it. -/
def trailingComment (tokens : Tokens) : Option Excerpt × Tokens :=
  match tokens.skipSpacing with
  | [] => (none, [])
  | token :: rest =>
    if token.kind.isComment then (some (comment token), rest) else (none, token :: rest)

/-- Whether the next token of significance has a kind, and what follows it then; only the trivia
are dropped otherwise. -/
def eat (kind : TokenKind) (tokens : Tokens) : Bool × Tokens :=
  match tokens.skipTrivia with
  | [] => (false, [])
  | token :: rest => if token.kind = kind then (true, rest) else (false, token :: rest)

/-- Whether the next token of significance is a word, and what follows it then. -/
def eatWord (word : Text) (tokens : Tokens) : Bool × Tokens :=
  match tokens.skipTrivia with
  | [] => (false, [])
  | token :: rest => if token.isWord word then (true, rest) else (false, token :: rest)

/-- The identifier that comes next after trivia, and what follows it. -/
def identifier? (tokens : Tokens) : Option (Token × Tokens) :=
  match tokens.skipTrivia with
  | [] => none
  | token :: rest => if token.kind = .identifier then some (token, rest) else none

/-- Drops one token of a kind, if one comes next. -/
def dropOne (kind : TokenKind) : Tokens → Tokens
  | [] => []
  | token :: rest => if token.kind = kind then rest else token :: rest

theorem skipTrivia_length (tokens : Tokens) : tokens.skipTrivia.length ≤ tokens.length :=
  (List.dropWhile_sublist _).length_le

theorem skipSpacing_length (tokens : Tokens) : tokens.skipSpacing.length ≤ tokens.length :=
  (List.dropWhile_sublist _).length_le

theorem skipPast_length (kind : TokenKind) (tokens : Tokens) :
    (tokens.skipPast kind).length ≤ tokens.length := by
  have := (List.dropWhile_sublist (l := tokens) fun token => token.kind != kind).length_le
  simp only [skipPast, List.length_drop]
  omega

theorem skipLine_length (tokens : Tokens) : tokens.skipLine.length ≤ tokens.length :=
  skipPast_length .newline tokens

theorem skipStatement_length (tokens : Tokens) : tokens.skipStatement.length ≤ tokens.length :=
  skipPast_length .semicolon tokens

theorem trailingComment_length (tokens : Tokens) :
    tokens.trailingComment.2.length ≤ tokens.length := by
  have := skipSpacing_length tokens
  unfold trailingComment
  split
  · simp
  · rename_i token rest spaced
    rw [spaced] at this
    simp only [List.length_cons] at this
    split
    · simp only
      omega
    · simpa using this

/-- What `eat` and `eatWord` share: a test on the next token of significance. -/
def eatIf (test : Token → Prop) [DecidablePred test] (tokens : Tokens) : Bool × Tokens :=
  match tokens.skipTrivia with
  | [] => (false, [])
  | token :: rest => if test token then (true, rest) else (false, token :: rest)

theorem eatIf_length (test : Token → Prop) [DecidablePred test] (tokens : Tokens) :
    (tokens.eatIf test).2.length ≤ tokens.length := by
  have := skipTrivia_length tokens
  unfold eatIf
  split
  · simp
  · rename_i token rest spaced
    rw [spaced] at this
    simp only [List.length_cons] at this
    split
    · simp only
      omega
    · simpa using this

theorem eat_length (kind : TokenKind) (tokens : Tokens) :
    (tokens.eat kind).2.length ≤ tokens.length :=
  eatIf_length _ tokens

theorem eatWord_length (word : Text) (tokens : Tokens) :
    (tokens.eatWord word).2.length ≤ tokens.length :=
  eatIf_length _ tokens

theorem identifier?_length {tokens rest : Tokens} {token : Token}
    (found : tokens.identifier? = some (token, rest)) : rest.length < tokens.length := by
  have := skipTrivia_length tokens
  unfold identifier? at found
  split at found
  · simp at found
  · rename_i spaced
    rw [spaced] at this
    simp only [List.length_cons] at this
    split at found
    · simp only [Option.some.injEq, Prod.mk.injEq] at found
      rw [← found.2]
      omega
    · simp at found

theorem dropOne_length (kind : TokenKind) (tokens : Tokens) :
    (tokens.dropOne kind).length ≤ tokens.length := by
  unfold dropOne
  split
  · simp
  · split <;> simp

end Tokens

end Scaffold
