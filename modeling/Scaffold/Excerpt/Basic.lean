/-
**Stretches of text that know where they come from.**

An excerpt is a piece of a source and the offset of its first byte. Reading it from the front leaves
a shorter excerpt further on, so every offset taken from an excerpt is one of the source.

Member comments are read this way: an optional macro invocation, free text and attributes that start
with `@@`.
-/

import Scaffold.Text.Basic

namespace Scaffold

/-- A piece of a source and where it starts. -/
structure Excerpt where
  text : Text
  offset : Nat
  deriving DecidableEq, Repr

namespace Excerpt

/-- The excerpt without a text it starts with. -/
def skip (lead rest : Text) (excerpt : Excerpt) : Excerpt :=
  ⟨rest, excerpt.offset + lead.size⟩

/-- The excerpt after so many bytes, or its end. -/
def advance (bytes : Nat) (excerpt : Excerpt) : Excerpt :=
  let parts := excerpt.text.cut bytes
  excerpt.skip parts.1 parts.2

/-- The excerpt without blanks at its start. -/
def skipBlanks (excerpt : Excerpt) : Excerpt :=
  excerpt.skip (excerpt.text.takeWhile Text.isBlank) excerpt.text.trimStart

/-- The identifier at the front and the excerpt after it. -/
def identifier? (excerpt : Excerpt) : Option (Text × Excerpt) :=
  let parts := Text.identifier excerpt.text
  if parts.1 = [] then none else some (parts.1, excerpt.skip parts.1 parts.2)

/-- The characters that start an attribute. -/
def attributeMarker : Text := "@@".toList

/-- What an excerpt starts with. -/
inductive Leading where
  /-- An identifier with an opening parenthesis right after it. -/
  | invocation (keyword : Text)
  /-- An attribute marker. -/
  | attributeMark
  /-- Anything else. -/
  | text
  /-- Nothing. -/
  | nothing
  deriving DecidableEq, Repr

/-- What an excerpt starts with. -/
def leading (excerpt : Excerpt) : Leading :=
  if excerpt.text = [] then .nothing
  else if attributeMarker.isPrefixOf excerpt.text then .attributeMark
  else
    let parts := Text.identifier excerpt.text
    if parts.1 ≠ [] ∧ parts.2.head? = some '(' then .invocation parts.1 else .text

/-- The text before the next attribute marker, and the excerpt from the marker on. -/
def takeUntilAttribute (excerpt : Excerpt) : Text × Excerpt :=
  let parts := excerpt.text.splitAtFirst attributeMarker
  (parts.1, excerpt.skip parts.1 parts.2)

/-- The body of a comment: the length of its opening marker, and the text without its markers. -/
def commentBody (comment : Text) : Nat × Text :=
  match comment.after? "//".toList with
  | some rest =>
    let body := rest.dropWhile (· == '/')
    (comment.size - Text.size body, body)
  | none =>
    match comment.after? "/*".toList with
    | some rest => (2, (rest.before? "*/".toList).getD rest)
    | none => (0, comment)

/-- The excerpt that a comment's body is. -/
def ofComment (comment : Text) (offset : Nat) : Excerpt :=
  let body := commentBody comment
  ⟨body.2, offset + body.1⟩

end Excerpt

end Scaffold
