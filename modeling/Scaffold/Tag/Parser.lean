/-
**Reading a text as a forest.**

The pieces of a text are put together from the last to the first: a close marker starts the inside
of an element, its open marker ends it.
-/

import Scaffold.Tag.Piece

namespace Scaffold

namespace Tag

/-- The forest from a place on, up to the close marker of the innermost tag that is open there, and
what waits for the open markers before that place: close markers with the forests after them. -/
def assemble : List Piece → Forest × List (Text × Forest)
  | [] => (.empty, [])
  | .text line :: rest =>
    let found := assemble rest
    (found.1.prependText line, found.2)
  | .leaf tag :: rest =>
    let found := assemble rest
    (.element tag .empty found.1, found.2)
  | .closing line :: rest =>
    let found := assemble rest
    (.empty, (line, found.1) :: found.2)
  | .opening tag :: rest =>
    let found := assemble rest
    match found.2 with
    | [] => found
    | (closeMarker, after) :: waiting =>
      (.element { tag with closeMarker } found.1 after, waiting)

end Tag

namespace Forest

/-- The pieces of a text. -/
def pieces (delimiter text : Text) : Except Defect (List Tag.Piece) :=
  Tag.Piece.ofLines delimiter [] (Tag.linesOf text)

/-- The forest that a text is. -/
def parse (delimiter text : Text) : Except Fault Forest :=
  match pieces delimiter text with
  | .ok pieces => .ok (Tag.assemble pieces).1
  | .error defect => .error (defect.locate text)

/-- What is reported while a text is read. -/
def parseReports (delimiter text : Text) : List Event :=
  Tag.Piece.reports delimiter [] (Tag.linesOf text)

end Forest

namespace Tag

/-- The names and attributes on the open markers of a text, which need not be a forest. Lines with a
defect are passed over. -/
def openMarkers (delimiter text : Text) : List (Text × Attributes) :=
  (linesOf text).filterMap fun line =>
    match Marker.ofLine? delimiter line with
    | .ok (some (.opening name attributes _)) => some (name, attributes)
    | _ => none

end Tag

end Scaffold
