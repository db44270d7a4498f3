/-
**TOML documents.**

A document is a sequence of lines: pairs, headers that open a table, and headers that add one more
table to a series. Every line is at its place or the document is refused: `document?` gives the
whole document as one table or nothing.
-/

import Scaffold.Toml.Value

namespace Scaffold.Toml

/-- A line of a document that is not empty. -/
inductive Statement where
  | pair (pair : Pair)
  | header (path : List Text)
  | seriesHeader (path : List Text)

/-- How deep values may be nested. -/
def greatestDepth : Nat := 79

/-- A path with closing brackets after it. -/
def readHeader (brackets : Text) : Reader (List Text) := fun text => do
  let (path, rest) ← readPath greatestPath (skipBlanks text)
  return (path, ← rest.after? brackets)

/-- The statement at the front of a line. -/
def readStatement : Reader Statement
  | '[' :: '[' :: rest => do
    let (path, rest) ← readHeader [']', ']'] rest
    return (.seriesHeader path, rest)
  | '[' :: rest => do
    let (path, rest) ← readHeader [']'] rest
    return (.header path, rest)
  | text => do
    let (pair, rest) ← readPair (readValue greatestDepth) text
    return (.pair pair, rest)

/-- The statements of a text of at most `limit` of them. -/
def statements : (limit : Nat) → Text → Option (List Statement)
  | 0, _ => none
  | limit + 1, text =>
    match skipLines false text with
    | [] => some []
    | start => do
      let (statement, rest) ← readStatement start
      return statement :: (← statements limit (← endLine rest))

/-- A document under construction: its entries, and the path of the table that pairs go into. -/
structure Draft where
  entries : Nodes
  place : List Text

/-- The entries with a table opened at a path. A table has one header; one that the header of an
inner table has implied may get its own later. -/
def openTable (entries : Nodes) (path : List Text) : Option Nodes :=
  match path.reverse with
  | [] => none
  | key :: lead =>
    let edit (_ : Origin) (inner : Nodes) : Option Nodes :=
      match Node.find? key inner with
      | none => some (Node.replace key (.table .header []) inner)
      | some (.table .implied entries) => some (Node.replace key (.table .header entries) inner)
      | some _ => none
    Node.change false edit .header lead.reverse entries

/-- The entries with one more table in the series at a path. -/
def openSeries (entries : Nodes) (path : List Text) : Option Nodes :=
  match path.reverse with
  | [] => none
  | key :: lead =>
    let edit (_ : Origin) (inner : Nodes) : Option Nodes :=
      match Node.find? key inner with
      | none => some (Node.replace key (.series [] []) inner)
      | some (.series earlier entries) =>
        let finished := earlier ++ [.table (Node.toValues entries)]
        some (Node.replace key (.series finished []) inner)
      | some _ => none
    Node.change false edit .header lead.reverse entries

/-- The document after one more statement. -/
def Draft.add (draft : Draft) : Statement → Option Draft
  | .pair pair => do
    let edit (_ : Origin) (inner : Nodes) : Option Nodes := Node.addPair pair inner
    return { draft with entries := ← Node.change false edit .header draft.place draft.entries }
  | .header path => do return ⟨← openTable draft.entries path, path⟩
  | .seriesHeader path => do return ⟨← openSeries draft.entries path, path⟩

/-- The table that a text is as a document. A byte order mark may precede it. -/
def document? (text : Text) : Option (List (Text × Value)) := do
  let text := match text with
    | '\uFEFF' :: rest => rest
    | other => other
  let lines ← statements (text.length + 1) text
  let draft ← lines.foldlM Draft.add ⟨[], []⟩
  return Node.toValues draft.entries

end Scaffold.Toml
