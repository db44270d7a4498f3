/-
**Settings from a document.**

The values of a TOML document are settings, a date or a time by its text, and keys are folded to
lower case. A table whose first key is reserved for it is another way to write a moment: that key
has the moment as a string, and the other keys say nothing. A document with such a table that holds
no moment is refused, and so is one that is a moment as a whole.
-/

import Scaffold.Settings.Basic
import Scaffold.Toml.Document

namespace Scaffold.Setting

/-- The key that is reserved for moments. -/
def momentKey : Text := "$__toml_private_datetime".toList

mutual

/-- The setting that a value is. -/
def ofValue? : Toml.Value → Option Setting
  | .text content => some (.text content)
  | .boolean value => some (.boolean value)
  | .integer value => some (.integer value)
  | .real value => some (.real value)
  | .moment shown => some (.text shown)
  | .list items => (ofValues? items).map .list
  | .table entries =>
    match entries with
    | (key, value) :: _ =>
      if key = momentKey then
        match value with
        | .text spelled => (Toml.spelledMoment? spelled).map .text
        | _ => none
      else (ofEntries? entries).map .table
    | [] => some (.table [])

/-- The settings that values are. -/
def ofValues? : List Toml.Value → Option (List Setting)
  | [] => some []
  | value :: rest => do return (← ofValue? value) :: (← ofValues? rest)

/-- The settings of entries. -/
def ofEntries? : List (Text × Toml.Value) → Option (List (Text × Setting))
  | [] => some []
  | (key, value) :: rest => do return (foldKey key, ← ofValue? value) :: (← ofEntries? rest)

end

/-- The settings that a text gives as a document. -/
def document? (text : Text) : Option (List (Text × Setting)) := do
  match ofValue? (.table (← Toml.document? text)) with
  | some (.table entries) => some entries
  | _ => none

end Scaffold.Setting
