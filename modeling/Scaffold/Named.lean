/-
**Closed sets of named values.**

Several types of the library are small enumerations whose values are written by name. An instance of
`Named` lists the values and names each one. A name is read exactly, or as a loose word: with blanks
around it and in any letter case.
-/

import Scaffold.Json.Basic
import Scaffold.Text.Basic

namespace Scaffold

/-- A type whose values are listed and have names. -/
class Named (α : Type) where
  /-- Every value, in the order in which choices are offered. -/
  all : List α
  /-- The name of a value. -/
  name : α → String

namespace Named

variable {α : Type} [Named α]

/-- The name of a value as a text. -/
def label (item : α) : Text := (name item).toList

/-- The value with exactly this name. -/
def ofName? (word : Text) : Option α := all.find? fun item => label item == word

/-- The value whose name is the same word once both are folded. -/
def ofFolded? (fold : Text → Text) (word : Text) : Option α :=
  all.find? fun item => fold (label item) == fold word

/-- The value that a word names, whatever the case of its ASCII letters and the blanks around it. -/
def ofWord? (word : Text) : Option α := ofFolded? Text.lowerAscii word.trim

/-- The complaint about a word that names no value. -/
def unknownText (α : Type) [Named α] (word : Text) : String :=
  "unknown value `" ++ word.string ++ "`, expected one of " ++
    ", ".intercalate ((all : List α).map name)

/-- The JSON form of a value is its name. -/
def toJson (item : α) : Json := .string (label item)

/-- The value that a JSON value stands for: its name, or an object with that name as its only key
and null as its value. -/
def ofJson? : Json → Option α
  | .string word => ofName? word
  | .object [(word, .null)] => ofName? word
  | _ => none

end Named

end Scaffold
