/-
**The characters of a TOML document.**

Blanks are spaces and tabs; a line ends in a line feed, which a carriage return may precede. A
comment runs to the end of its line. Control characters stand nowhere else.
-/

import Scaffold.Text.Basic

namespace Scaffold.Toml

/-- A reader takes its value from the front of a text and leaves the rest. -/
abbrev Reader (α : Type) := Text → Option (α × Text)

/-- A space or a tab. -/
def isBlank (char : Char) : Bool := char == ' ' || char == '\t'

/-- A character that stands for itself in comments and strings: no control character but the
tab. -/
def isPlain (char : Char) : Bool :=
  char == '\t' || (0x20 ≤ char.toNat && char.toNat != 0x7F)

/-- The text without blanks at its start. -/
def skipBlanks (text : Text) : Text := text.dropWhile isBlank

/-- The text without a comment at its start. -/
def skipComment : Text → Text
  | '#' :: rest => rest.dropWhile isPlain
  | text => text

/-- The text after the end of a line that holds nothing more than blanks and a comment. -/
def endLine (text : Text) : Option Text :=
  match skipComment (skipBlanks text) with
  | [] => some []
  | '\n' :: rest => some rest
  | '\r' :: '\n' :: rest => some rest
  | _ => none

/-- The text from the first character on that is neither blank nor a line end nor in a comment;
`inside` says whether a comment is open. -/
def skipLines : (inside : Bool) → Text → Text
  | _, [] => []
  | _, '\n' :: rest => skipLines false rest
  | _, '\r' :: '\n' :: rest => skipLines false rest
  | true, char :: rest => if isPlain char then skipLines true rest else char :: rest
  | false, char :: rest =>
    if isBlank char then skipLines false rest
    else if char = '#' then skipLines true rest
    else char :: rest

end Scaffold.Toml
