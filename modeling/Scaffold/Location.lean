/-
**Where in a text something is.**

A position is a row and a column, both counted from one; columns count characters. A line table
lists the offsets at which the lines of a text start, and a position is read off it: the row is the
number of line starts not after the offset, the column counts the characters from the last of them.
A location adds the offset itself and a little of the text on both sides.
-/

import Scaffold.Text.Escaped

namespace Scaffold

/-- A row and a column, both counted from one. -/
structure Position where
  row : Nat
  column : Nat
  deriving DecidableEq, Repr

/-- Positions are ordered by row, then by column. -/
def Position.before (first second : Position) : Prop :=
  first.row < second.row ∨ first.row = second.row ∧ first.column < second.column

instance (first second : Position) : Decidable (first.before second) :=
  inferInstanceAs (Decidable (_ ∨ _ ∧ _))

/-- A position as `row:column`. -/
def Position.text (position : Position) : String :=
  toString position.row ++ ":" ++ toString position.column

/-- The offsets right after the line feeds of a text that starts at `offset`. -/
def lineStartsFrom (offset : Nat) : Text → List Nat
  | [] => []
  | char :: rest =>
    let next := offset + char.utf8Size
    if char = '\n' then next :: lineStartsFrom next rest else lineStartsFrom next rest

/-- The offsets at which the lines of a text start. -/
def lineStarts (text : Text) : List Nat := 0 :: lineStartsFrom 0 text

/-- The position of an offset. Offsets past the end count as the end, offsets inside a character
as its start. -/
def Position.ofOffset (text : Text) (offset : Nat) : Position :=
  let lead := (text.cut offset).1
  let reached := (lineStarts text).filter (· ≤ lead.size)
  let lineStart := reached.getLastD 0
  ⟨reached.length, (lead.cut lineStart).2.length + 1⟩

/-- A place in a text, with some of the text around it. -/
structure Location where
  /-- In bytes from the start of the text. -/
  offset : Nat
  row : Nat
  column : Nat
  /-- The characters just before the place. -/
  leading : Text
  /-- The characters from the place on. -/
  trailing : Text
  deriving DecidableEq, Repr

namespace Location

/-- How many characters before its place a location shows at most. -/
def leadingWidth : Nat := 10

/-- How many characters from its place on a location shows at most. -/
def trailingWidth : Nat := 50

/-- The location of an offset. -/
def ofOffset (text : Text) (offset : Nat) : Location :=
  let parts := text.cut offset
  let position := Position.ofOffset text offset
  { offset := parts.1.size
    row := position.row
    column := position.column
    leading := parts.1.drop (parts.1.length - leadingWidth)
    trailing := parts.2.take trailingWidth }

/-- A location as error messages end with it. -/
def text (location : Location) : String :=
  "line " ++ toString location.row ++ ", column " ++ toString location.column ++
    " (offset " ++ toString location.offset ++ ") near `" ++
    (Text.escape location.leading).string ++ "|" ++ (Text.escape location.trailing).string ++ "`"

end Location

end Scaffold
