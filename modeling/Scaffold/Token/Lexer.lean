/-
**Cutting a source into tokens.**

At each place the longest token is taken. Its kind is decided by its first character, and for a
slash, a colon and a zero by the one after it. Anything that starts no token is a token of its own,
one character long; a string or character literal that does not end is one such token as a whole.
The only failure is a block comment that does not end.

`lexeme_append` says that taking a token splits the text, `lexeme_filled` that no token is empty.
-/

import Scaffold.Fault
import Scaffold.Text.Basic
import Scaffold.Token.Basic

namespace Scaffold.Token

/-- The blanks between tokens of one line. -/
def isSpacing (char : Char) : Bool :=
  char == ' ' || char == '\t' || char == '\r' || char == '\x0c'

/-- Digits of hexadecimal numbers. -/
def isHexDigit (char : Char) : Bool :=
  char.isDigit || ('a' ≤ char && char ≤ 'f') || ('A' ≤ char && char ≤ 'F')

/-- Letters that may follow the digits of a number. -/
def isNumberSuffix (char : Char) : Bool :=
  char == 'u' || char == 'U' || char == 'l' || char == 'L'

/-- The rest of a literal after its opening quote: what belongs to it, what follows, and whether it
was closed. A backslash takes the next character with it; a literal ends unclosed before a line
feed, before a backslash at the end of a line, and at the end of the text. -/
def literalBody (quote : Char) : Text → Text × Text × Bool
  | [] => ([], [], false)
  | char :: rest =>
    if char = quote then ([char], rest, true)
    else if char = '\n' then ([], char :: rest, false)
    else if char = '\\' then
      match rest with
      | [] => ([], [char], false)
      | escaped :: more =>
        if escaped = '\n' then ([], char :: escaped :: more, false)
        else
          let (body, after, closed) := literalBody quote more
          (char :: escaped :: body, after, closed)
    else
      let (body, after, closed) := literalBody quote rest
      (char :: body, after, closed)

/-- The rest of a block comment after its opening: up to and including the first `*/`. -/
def commentBody : Text → Option (Text × Text)
  | [] => none
  | '*' :: '/' :: rest => some (['*', '/'], rest)
  | char :: rest => (commentBody rest).map fun parts => (char :: parts.1, parts.2)

/-- A kind, the text of a token of that kind, and the text after it. -/
abbrev Lexeme := TokenKind × Text × Text

/-- A token that goes on as long as characters satisfy `more`. -/
def whileLexeme (kind : TokenKind) (start : Text) (more : Char → Bool) (rest : Text) : Lexeme :=
  (kind, start ++ rest.takeWhile more, rest.dropWhile more)

/-- A number after its first characters `start`: digits, then letters of a suffix. -/
def numberLexeme (start : Text) (digit : Char → Bool) (rest : Text) : Lexeme :=
  let after := rest.dropWhile digit
  (.number, start ++ rest.takeWhile digit ++ after.takeWhile isNumberSuffix,
    after.dropWhile isNumberSuffix)

/-- A string or character literal. -/
def literalLexeme (kind : TokenKind) (quote : Char) (rest : Text) : Lexeme :=
  let (body, after, closed) := literalBody quote rest
  (if closed then kind else .other, quote :: body, after)

/-- The kind of a token that is this one character. -/
def punctuation : Char → TokenKind
  | ':' => .colon
  | '\x7b' => .openBrace
  | '}' => .closeBrace
  | '(' => .openParen
  | ')' => .closeParen
  | '=' => .equals
  | ',' => .comma
  | ';' => .semicolon
  | '#' => .hash
  | '-' => .minus
  | '<' => .less
  | '>' => .greater
  | _ => .other

/-- The token at the front of a text that starts with `first`; nothing if that is a block comment
without an end. -/
def lexeme (first : Char) (rest : Text) : Option Lexeme :=
  if isSpacing first then some (whileLexeme .whitespace [first] isSpacing rest)
  else if first = '\n' then some (.newline, ['\n'], rest)
  else if Text.startsIdentifier first then
    some (whileLexeme .identifier [first] Text.continuesIdentifier rest)
  else if first.isDigit then
    match rest with
    | mark :: digit :: more =>
      if first = '0' ∧ (mark = 'x' ∨ mark = 'X') ∧ isHexDigit digit then
        some (numberLexeme [first, mark, digit] isHexDigit more)
      else some (numberLexeme [first] Char.isDigit rest)
    | _ => some (numberLexeme [first] Char.isDigit rest)
  else if first = '"' then some (literalLexeme .stringLiteral '"' rest)
  else if first = '\'' then some (literalLexeme .charLiteral '\'' rest)
  else match first, rest with
    | '/', '/' :: more => some (whileLexeme .lineComment ['/', '/'] (· != '\n') more)
    | '/', '*' :: more =>
      (commentBody more).map fun parts => (.blockComment, '/' :: '*' :: parts.1, parts.2)
    | ':', ':' :: more => some (.doubleColon, [':', ':'], more)
    | _, _ => some (punctuation first, [first], rest)

theorem literalBody_append (quote : Char) (text : Text) :
    (literalBody quote text).1 ++ (literalBody quote text).2.1 = text := by
  fun_induction literalBody quote text <;> simp_all

theorem commentBody_append {text body rest : Text} (found : commentBody text = some (body, rest)) :
    body ++ rest = text := by
  fun_induction commentBody text generalizing body with
  | case1 => simp at found
  | case2 more =>
      simp only [Option.some.injEq, Prod.mk.injEq] at found
      obtain ⟨rfl, rfl⟩ := found
      rfl
  | case3 char more _ ih =>
      simp only [Option.map_eq_some_iff, Prod.mk.injEq] at found
      obtain ⟨parts, inner, rfl, rfl⟩ := found
      simp [ih inner]

theorem whileLexeme_append (kind : TokenKind) (start : Text) (more : Char → Bool) (rest : Text) :
    (whileLexeme kind start more rest).2.1 ++ (whileLexeme kind start more rest).2.2 =
      start ++ rest := by
  simp [whileLexeme, List.takeWhile_append_dropWhile]

theorem numberLexeme_append (start : Text) (digit : Char → Bool) (rest : Text) :
    (numberLexeme start digit rest).2.1 ++ (numberLexeme start digit rest).2.2 =
      start ++ rest := by
  simp [numberLexeme, List.takeWhile_append_dropWhile]

theorem literalLexeme_append (kind : TokenKind) (quote : Char) (rest : Text) :
    (literalLexeme kind quote rest).2.1 ++ (literalLexeme kind quote rest).2.2 =
      quote :: rest := by
  simp [literalLexeme, literalBody_append]

/-- Taking a token splits the text. -/
theorem lexeme_append {first : Char} {rest text after : Text} {kind : TokenKind}
    (found : lexeme first rest = some (kind, text, after)) : text ++ after = first :: rest := by
  have parts : ∀ {made : Lexeme}, some made = some (kind, text, after) →
      made.2.1 ++ made.2.2 = first :: rest → text ++ after = first :: rest := by
    rintro made same whole
    simp only [Option.some.injEq] at same
    subst same
    exact whole
  unfold lexeme at found
  split at found
  · exact parts found (whileLexeme_append ..)
  split at found
  · rename_i feed
    subst feed
    exact parts found rfl
  split at found
  · exact parts found (whileLexeme_append ..)
  split at found
  · split at found
    · split at found
      · exact parts found (numberLexeme_append ..)
      · exact parts found (numberLexeme_append ..)
    · exact parts found (numberLexeme_append ..)
  split at found
  · rename_i quoted
    subst quoted
    exact parts found (literalLexeme_append ..)
  split at found
  · rename_i quoted
    subst quoted
    exact parts found (literalLexeme_append ..)
  split at found
  · exact parts found (whileLexeme_append ..)
  · simp only [Option.map_eq_some_iff, Prod.mk.injEq] at found
    obtain ⟨body, inner, -, rfl, rfl⟩ := found
    simp [commentBody_append inner]
  · exact parts found rfl
  · exact parts found rfl

/-- No token is empty. -/
theorem lexeme_filled {first : Char} {rest text after : Text} {kind : TokenKind}
    (found : lexeme first rest = some (kind, text, after)) : text ≠ [] := by
  unfold lexeme at found
  repeat' split at found
  all_goals
    simp only [whileLexeme, numberLexeme, literalLexeme, Option.some.injEq, Prod.mk.injEq,
      Option.map_eq_some_iff] at found
    grind

theorem lexeme_shorter {first : Char} {rest text after : Text} {kind : TokenKind}
    (found : lexeme first rest = some (kind, text, after)) :
    after.length < (first :: rest).length := by
  have whole := congrArg List.length (lexeme_append found)
  have filled := List.length_pos_iff.mpr (lexeme_filled found)
  rw [List.length_append] at whole
  omega

/-- The tokens of a text that starts at `offset`. -/
def tokensFrom (offset : Nat) (text : Text) : Except Defect (List Token) :=
  match text with
  | [] => .ok []
  | first :: rest =>
    match found : lexeme first rest with
    | none => .error (.malformed .unterminatedComment offset)
    | some (kind, text, after) =>
      have : after.length < rest.length + 1 := lexeme_shorter found
      (tokensFrom (offset + text.size) after).map (⟨kind, text, offset⟩ :: ·)
  termination_by text.length

/-- The tokens of a source. -/
def tokenize (source : Text) : Except Defect (List Token) := tokensFrom 0 source

end Scaffold.Token
