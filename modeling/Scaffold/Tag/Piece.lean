/-
**The lines of a text as pieces of a forest.**

Each line is plain text or one of the three kinds of markers. A close marker counts only if a tag of
its name is open; it then has to be the innermost one. What a line is depends on the lines before it
alone, so the first line that breaks a rule decides the defect, and a tag that is never closed is a
defect only when no line is one. A list of pieces without a defect is balanced.
-/

import Scaffold.Event
import Scaffold.Tag.Forest
import Scaffold.Tag.Marker

namespace Scaffold.Tag

/-- What a line contributes to a forest. -/
inductive Piece where
  /-- A line of plain text. -/
  | text (line : Text)
  /-- A tag that closes itself. -/
  | leaf (tag : Tag)
  /-- The open marker of a tag, which has no close marker yet. -/
  | opening (tag : Tag)
  /-- The close marker of the innermost tag. -/
  | closing (line : Text)
  deriving DecidableEq

/-- The lines of a text that starts at `offset`. -/
def placeLines (offset : Nat) : List Text → List Excerpt
  | [] => []
  | line :: rest => ⟨line, offset⟩ :: placeLines (offset + line.size) rest

/-- The lines of a text with their offsets. -/
def linesOf (text : Text) : List Excerpt := placeLines 0 text.lines

/-- The piece that a line is when the tags `outer` are open, the innermost first, and the tags that
are open after it. -/
def Piece.ofLine (delimiter : Text) (outer : List Tag) (line : Excerpt) :
    Except Defect (Piece × List Tag) := do
  match ← Marker.ofLine? delimiter line with
  | none => return (.text line.text, outer)
  | some (.opening name attributes true) =>
    return (.leaf ⟨name, attributes, line.text, [], line.offset⟩, outer)
  | some (.opening name attributes false) =>
    let tag : Tag := ⟨name, attributes, line.text, [], line.offset⟩
    return (.opening tag, tag :: outer)
  | some (.closing name) =>
    match outer with
    | [] => return (.text line.text, [])
    | innermost :: enclosing =>
      if innermost.name = name then return (.closing line.text, enclosing)
      else if enclosing.any fun tag => tag.name == name then
        throw ⟨.tagUnmatched name (.stillOpen innermost.name), line.offset⟩
      else return (.text line.text, innermost :: enclosing)

/-- The pieces that lines are when the tags `outer` are open. -/
def Piece.ofLines (delimiter : Text) : (outer : List Tag) → List Excerpt →
    Except Defect (List Piece)
  | [], [] => .ok []
  | tag :: _, [] => .error ⟨.tagUnmatched tag.name .neverClosed, tag.offset⟩
  | outer, line :: rest => do
    let (piece, still) ← Piece.ofLine delimiter outer line
    let pieces ← Piece.ofLines delimiter still rest
    return piece :: pieces

/-- What is reported about a line; a marker that is kept as text is reported too. -/
def Piece.report? (delimiter : Text) (line : Excerpt) (piece : Piece) : Option Event :=
  let told (message : String) (name : Text) : Option Event :=
    some ⟨.trace, message, [("name", name), ("offset", (toString line.offset).toList)]⟩
  match Marker.ofLine? delimiter line, piece with
  | .ok (some (.closing name)), .text _ => told "stray close marker kept as text" name
  | .ok (some (.closing name)), _ => told "close tag" name
  | .ok (some (.opening name _ true)), _ => told "self-closing tag" name
  | .ok (some (.opening name _ false)), _ => told "open tag" name
  | _, _ => none

/-- What is reported about lines, up to the first defect. -/
def Piece.reports (delimiter : Text) : (outer : List Tag) → List Excerpt → List Event
  | _, [] => []
  | outer, line :: rest =>
    match Piece.ofLine delimiter outer line with
    | .error _ => []
    | .ok (piece, still) =>
      (Piece.report? delimiter line piece).toList ++ Piece.reports delimiter still rest

end Scaffold.Tag
