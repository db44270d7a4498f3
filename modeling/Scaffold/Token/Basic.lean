/-
Tokens of a declaration source: the kinds that matter, and a token as a kind, its own text and the
offset it starts at. Trivia are the tokens that only separate others.
-/

import Scaffold.Text.Basic

namespace Scaffold

/-- The kinds of tokens. -/
inductive TokenKind where
  | whitespace
  | newline
  | lineComment
  | blockComment
  | identifier
  | number
  | stringLiteral
  | charLiteral
  | doubleColon
  | colon
  | openBrace
  | closeBrace
  | openParen
  | closeParen
  | equals
  | comma
  | semicolon
  | hash
  | minus
  | less
  | greater
  /-- Anything else: one character, or a literal that does not end. -/
  | other
  deriving DecidableEq, Repr

namespace TokenKind

/-- Line and block comments. -/
def isComment : TokenKind → Bool
  | lineComment | blockComment => true
  | _ => false

/-- Blanks, line feeds and comments. -/
def isTrivia : TokenKind → Bool
  | whitespace | newline | lineComment | blockComment => true
  | _ => false

end TokenKind

/-- A token: its kind, its text and the offset of its first byte. -/
structure Token where
  kind : TokenKind
  text : Text
  offset : Nat
  deriving DecidableEq, Repr

namespace Token

/-- The offset right after a token. -/
def stop (token : Token) : Nat := token.offset + token.text.size

/-- Whether a token is the word `word`. -/
def isWord (word : Text) (token : Token) : Bool :=
  token.kind == .identifier && token.text == word

end Token

end Scaffold
