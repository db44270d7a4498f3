/-
**Writing JSON values.**

The compact form has no blanks; the indented form puts every item and member on a line of its own,
two spaces deeper than what holds it. Members are written in the order they are kept in.
-/

import Scaffold.Decimal.Layout
import Scaffold.Json.Basic
import Scaffold.Text.Escaped

namespace Scaffold.Json

/-- An exponent of at least zero has a plus. -/
def exponentForm : Decimal.ExponentForm := ⟨true⟩

/-- A number as text. -/
def Number.text (form : Decimal.ExponentForm) : Number → Text
  | .integer value => Decimal.integerText value
  | .real value => Decimal.scientific form value

/-- One character inside a written string. -/
def quoteChar (char : Char) : Text :=
  if char = '"' then ['\\', '"']
  else if char = '\\' then ['\\', '\\']
  else if char = '\x08' then ['\\', 'b']
  else if char = '\x0c' then ['\\', 'f']
  else if char = '\n' then ['\\', 'n']
  else if char = '\r' then ['\\', 'r']
  else if char = '\t' then ['\\', 't']
  else if char.toNat < 0x20 then
    let digits := Text.hexDigits char.toNat
    ['\\', 'u'] ++ List.replicate (4 - digits.length) '0' ++ digits
  else [char]

/-- A string with its quotes. -/
def quote (text : Text) : Text := '"' :: text.flatMap quoteChar ++ ['"']

/-- A value that holds no other values, as text. -/
def scalarText (form : Decimal.ExponentForm) : Json → Text
  | .null => "null".toList
  | .bool true => "true".toList
  | .bool false => "false".toList
  | .number value => value.text form
  | .string value => quote value
  | .array _ | .object _ => []

mutual

/-- A value without blanks. -/
def compact : Json → Text
  | .array items => '[' :: compactItems items ++ [']']
  | .object members => '\x7b' :: compactMembers members ++ ['}']
  | other => scalarText exponentForm other

/-- Items with commas between them. -/
def compactItems : List Json → Text
  | [] => []
  | [last] => compact last
  | item :: rest => compact item ++ ',' :: compactItems rest

/-- Members with commas between them. -/
def compactMembers : List (Text × Json) → Text
  | [] => []
  | [(key, value)] => quote key ++ ':' :: compact value
  | (key, value) :: rest => quote key ++ ':' :: compact value ++ ',' :: compactMembers rest

end

/-- A line break and the blanks of a level. -/
def newLine (level : Nat) : Text := '\n' :: List.replicate (2 * level) ' '

mutual

/-- A value over several lines, starting at a level. -/
def indented (level : Nat) : Json → Text
  | .array [] => ['[', ']']
  | .array (first :: rest) =>
    '[' :: indentedItems (level + 1) (first :: rest) ++ newLine level ++ [']']
  | .object [] => ['\x7b', '}']
  | .object (first :: rest) =>
    '\x7b' :: indentedMembers (level + 1) (first :: rest) ++ newLine level ++ ['}']
  | other => scalarText exponentForm other

/-- Items, each on a line of its own. -/
def indentedItems (level : Nat) : List Json → Text
  | [] => []
  | [last] => newLine level ++ indented level last
  | item :: rest => newLine level ++ indented level item ++ ',' :: indentedItems level rest

/-- Members, each on a line of its own. -/
def indentedMembers (level : Nat) : List (Text × Json) → Text
  | [] => []
  | [(key, value)] => newLine level ++ quote key ++ ": ".toList ++ indented level value
  | (key, value) :: rest =>
    newLine level ++ quote key ++ ": ".toList ++ indented level value ++
      ',' :: indentedMembers level rest

end

/-- A value over several lines. -/
def pretty (json : Json) : Text := indented 0 json

end Scaffold.Json
