/-
**Values as YAML documents.**

Arrays and objects are written as blocks, one line or more for each item and each member, and only
the empty ones as brackets. The items of an array that is a member's value stand below its key; the
lines of an object are two columns deeper than what holds it. A key that is long or spans lines is
written with a question mark.
-/

import Scaffold.Json.Printer
import Scaffold.Yaml.Scalar

namespace Scaffold.Yaml

/-- Whether a key can stand before its colon. -/
def isSimpleKey (key : Text) : Bool := key.size ≤ 128 && !key.any isBreak

/-- A key that stands before its colon; it takes a single line. -/
def simpleKey (key : Text) : Text :=
  match Style.of key with
  | .plain => key
  | .singleQuoted => singleQuoted 0 key
  | .doubleQuoted | .literal => doubleQuoted key

/-- No exponent has a plus. -/
def exponentForm : Decimal.ExponentForm := ⟨false⟩

/-- A value that takes no block, and the line break after it. -/
def leafLine (count : Nat) : Json → Text
  | .string text => scalarLine count text
  | .array _ => "[]\n".toList
  | .object _ => "\x7b\x7d\n".toList
  | other => other.scalarText exponentForm ++ ['\n']

mutual

/-- A value on the line of the dash, question mark or colon that stands at a column. -/
def beside (column : Nat) : Json → Text
  | .array (first :: rest) => ' ' :: itemLines (column + 2) (first :: rest)
  | .object (first :: rest) => ' ' :: memberLines (column + 2) (first :: rest)
  | leaf => ' ' :: leafLine (column + 2) leaf

/-- A value after the colon of a key that stands at a column. -/
def below (column : Nat) : Json → Text
  | .array (first :: rest) => '\n' :: spaces column ++ itemLines column (first :: rest)
  | .object (first :: rest) =>
    '\n' :: spaces (column + 2) ++ memberLines (column + 2) (first :: rest)
  | leaf => ' ' :: leafLine (column + 2) leaf

/-- Items whose dashes stand at a column; the first one starts there. -/
def itemLines (column : Nat) : List Json → Text
  | [] => []
  | [last] => '-' :: beside column last
  | item :: rest => '-' :: beside column item ++ spaces column ++ itemLines column rest

/-- Members whose keys stand at a column; the first one starts there. -/
def memberLines (column : Nat) : List (Text × Json) → Text
  | [] => []
  | (key, value) :: rest =>
    (if isSimpleKey key then simpleKey key ++ ':' :: below column value
      else
        '?' :: ' ' :: scalarLine (column + 2) key ++ spaces column ++ ':' :: beside column value) ++
      (if rest.isEmpty then [] else spaces column ++ memberLines column rest)

end

/-- A value as a document. -/
def document : Json → Text
  | .array (first :: rest) => itemLines 0 (first :: rest)
  | .object (first :: rest) => memberLines 0 (first :: rest)
  | leaf => leafLine 2 leaf

end Scaffold.Yaml
