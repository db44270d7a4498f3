/-
**JSON values.**

A number is a whole number or a double. The members of an object that is read from a literal are in
ascending order of their keys; an object that is put together keeps the order it was given.
-/

import Scaffold.Decimal.Binary64
import Scaffold.Text.Keyed

namespace Scaffold

namespace Json

/-- A whole number or a double. -/
inductive Number where
  | integer (value : Int)
  | real (value : Binary64)
  deriving DecidableEq, Repr

end Json

/-- A JSON value. -/
inductive Json where
  | null
  | bool (value : Bool)
  | number (value : Json.Number)
  | string (value : Text)
  | array (items : List Json)
  | object (members : List (Text × Json))

namespace Json

/-- The members of an object. -/
abbrev Members := Keyed Json

/-- A string value. -/
def ofText (text : Text) : Json := .string text

/-- A whole number. -/
def ofInt (value : Int) : Json := .number (.integer value)

/-- An array of strings. -/
def ofTexts (texts : List Text) : Json := .array (texts.map .string)

/-- A value, or null where there is none. -/
def ofOption {α : Type} (encode : α → Json) : Option α → Json
  | none => .null
  | some value => encode value

/-- A string from a string. -/
def ofString (text : String) : Json := .string text.toList

/-- An object with its members in the order given. -/
def record (members : List (String × Json)) : Json :=
  .object (members.map fun member => (member.1.toList, member.2))

end Json

end Scaffold
