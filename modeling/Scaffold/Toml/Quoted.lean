/-
**TOML strings.**

A basic string has escapes, a literal string has none. Both have a form over several lines, which
three quotes open and close: a line end right after the opening is left out, every other line end is
a line feed, and one or two quotes may stand before the closing. In the basic form a backslash at
the end of a line takes the line end and all blanks and line ends after it away.
-/

import Scaffold.Toml.Lexical

namespace Scaffold.Toml

/-- What a backslash has begun. -/
inductive Pending where
  | nothing
  /-- A backslash came. -/
  | backslash
  /-- Hexadecimal digits are still to come, after those with this value. -/
  | digits (missing value : Nat)
  /-- The backslash stands at the end of a line, which is still to end. -/
  | lineEnd
  /-- Blanks and line ends are taken away. -/
  | trimming
  deriving DecidableEq, Repr

/-- The character that a letter after a backslash stands for. -/
def escaped? : Char → Option Char
  | 'b' => some '\x08'
  | 't' => some '\t'
  | 'n' => some '\n'
  | 'f' => some '\x0c'
  | 'r' => some '\r'
  | '"' => some '"'
  | '\\' => some '\\'
  | _ => none

/-- The value of a hexadecimal digit. -/
def hexValue? (char : Char) : Option Nat :=
  if char.isDigit then some (char.toNat - '0'.toNat)
  else if 'a' ≤ char ∧ char ≤ 'f' then some (char.toNat - 'a'.toNat + 10)
  else if 'A' ≤ char ∧ char ≤ 'F' then some (char.toNat - 'A'.toNat + 10)
  else none

/-- The character with a code point, unless it is none. -/
def charOf? (code : Nat) : Option Char :=
  if Nat.isValidChar code then some (Char.ofNat code) else none

/-- A character in front of what is read. -/
def prepend (char : Char) : Option (Text × Text) → Option (Text × Text)
  | none => none
  | some (body, rest) => some (char :: body, rest)

/-- What a hexadecimal digit makes of an escape: the character, or the escape still pending. -/
def hexStep (missing value : Nat) (char : Char) : Option (Char ⊕ Pending) :=
  match hexValue? char with
  | none => none
  | some digit =>
    let more := value * 16 + digit
    if missing ≤ 1 then (charOf? more).map .inl else some (.inr (.digits (missing - 1) more))

/-- The body of a basic string on one line, after its opening quote. -/
def basicBody : Pending → Reader Text
  | _, [] => none
  | .nothing, '"' :: rest => some ([], rest)
  | .nothing, '\\' :: rest => basicBody .backslash rest
  | .nothing, char :: rest => if isPlain char then prepend char (basicBody .nothing rest) else none
  | .backslash, 'u' :: rest => basicBody (.digits 4 0) rest
  | .backslash, 'U' :: rest => basicBody (.digits 8 0) rest
  | .backslash, char :: rest =>
    match escaped? char with
    | some other => prepend other (basicBody .nothing rest)
    | none => none
  | .digits missing value, char :: rest =>
    match hexStep missing value char with
    | some (.inl other) => prepend other (basicBody .nothing rest)
    | some (.inr pending) => basicBody pending rest
    | none => none
  | .lineEnd, _ :: _ => none
  | .trimming, _ :: _ => none

/-- Up to two quotes before the three that close a string over several lines. The text starts after
the first three quotes of their row. -/
def closing (quote : Char) (rest : Text) : Text × Text :=
  let inside := (rest.takeWhile fun char => char == quote).take 2
  (inside, rest.drop inside.length)

/-- The body of a basic string over several lines. -/
def basicLines : Pending → Reader Text
  | _, [] => none
  | .digits missing value, char :: rest =>
    match hexStep missing value char with
    | some (.inl other) => prepend other (basicLines .nothing rest)
    | some (.inr pending) => basicLines pending rest
    | none => none
  | .backslash, 'u' :: rest => basicLines (.digits 4 0) rest
  | .backslash, 'U' :: rest => basicLines (.digits 8 0) rest
  | .backslash, '\n' :: rest => basicLines .trimming rest
  | .backslash, '\r' :: '\n' :: rest => basicLines .trimming rest
  | .backslash, char :: rest =>
    if isBlank char then basicLines .lineEnd rest
    else match escaped? char with
      | some other => prepend other (basicLines .nothing rest)
      | none => none
  | .lineEnd, '\n' :: rest => basicLines .trimming rest
  | .lineEnd, '\r' :: '\n' :: rest => basicLines .trimming rest
  | .lineEnd, char :: rest => if isBlank char then basicLines .lineEnd rest else none
  | .trimming, '\r' :: '\n' :: rest => basicLines .trimming rest
  | .nothing, '\r' :: '\n' :: rest => prepend '\n' (basicLines .nothing rest)
  | _, '"' :: '"' :: '"' :: rest => some (closing '"' rest)
  | _, '\\' :: rest => basicLines .backslash rest
  | pending, char :: rest =>
    if pending = .trimming ∧ (isBlank char ∨ char = '\n') then basicLines .trimming rest
    else if isPlain char ∨ char = '\n' then prepend char (basicLines .nothing rest)
    else none

/-- The body of a literal string on one line. -/
def literalBody : Reader Text
  | [] => none
  | '\'' :: rest => some ([], rest)
  | char :: rest => if isPlain char then prepend char (literalBody rest) else none

/-- The body of a literal string over several lines. -/
def literalLines : Reader Text
  | [] => none
  | '\r' :: '\n' :: rest => prepend '\n' (literalLines rest)
  | '\'' :: '\'' :: '\'' :: rest => some (closing '\'' rest)
  | char :: rest =>
    if isPlain char ∨ char = '\n' then prepend char (literalLines rest) else none

/-- The text without a line end at its start. -/
def skipLineEnd : Text → Text
  | '\n' :: rest => rest
  | '\r' :: '\n' :: rest => rest
  | text => text

/-- A string on one line, as it may also stand as a key. -/
def quotedKey : Reader Text
  | '"' :: rest => basicBody .nothing rest
  | '\'' :: rest => literalBody rest
  | _ => none

/-- A string of any of the four forms. -/
def quoted : Reader Text
  | '"' :: '"' :: '"' :: rest => basicLines .nothing (skipLineEnd rest)
  | '\'' :: '\'' :: '\'' :: rest => literalLines (skipLineEnd rest)
  | text => quotedKey text

end Scaffold.Toml
