/-
**Settings.**

A setting is a text, a boolean, a number, a list or a table; an item of a list that was never given
is nothing at all. Settings are layered: a table that is laid over another one is merged with it
entry by entry, and everything else takes the place of what is there. Keys are folded to lower case
where they are read, so they match in any letter case.
-/

import Scaffold.Decimal.Layout

namespace Scaffold

/-- A value of a configuration. -/
inductive Setting where
  | nothing
  | text (content : Text)
  | boolean (value : Bool)
  | integer (value : Int)
  | real (value : Quantity)
  | list (items : List Setting)
  | table (entries : List (Text × Setting))

namespace Setting

/-- Lower case of a key. Outside ASCII only the Kelvin sign has an ASCII letter as its lower case,
so no other character takes part in matching a key of ASCII letters. -/
def foldKey (key : Text) : Text :=
  key.map fun char => if char = '\u212A' then 'k' else char.toLower

/-- The value of the first entry with a key. -/
def find? (key : Text) : List (Text × Setting) → Option Setting
  | [] => none
  | (other, value) :: rest => if key = other then some value else find? key rest

/-- The entries with a value for a key, in the place the key has, or at the end. -/
def replace (key : Text) (value : Setting) : List (Text × Setting) → List (Text × Setting)
  | [] => [(key, value)]
  | (other, old) :: rest =>
    if key = other then (key, value) :: rest else (other, old) :: replace key value rest

theorem find?_replace (key other : Text) (value : Setting) (entries : List (Text × Setting)) :
    find? other (replace key value entries) =
      if other = key then some value else find? other entries := by
  induction entries with
  | nil => simp [replace, find?]
  | cons entry rest ih =>
      obtain ⟨present, old⟩ := entry
      simp only [replace]
      split <;> simp only [find?] <;> grind

/-- The value a setting holds at a key, if it is a table that has the key. -/
def get? (key : Text) : Setting → Option Setting
  | table entries => find? key entries
  | _ => none

/-- A setting with a value at a key; whatever is no table becomes one. -/
def set (holder : Setting) (key : Text) (value : Setting) : Setting :=
  match holder with
  | table entries => table (replace key value entries)
  | _ => table [(key, value)]

theorem get?_set (holder value : Setting) (key other : Text) :
    (holder.set key value).get? other =
      if other = key then some value
      else match holder with
        | table entries => find? other entries
        | _ => none := by
  cases holder <;> simp [set, get?, find?_replace, find?]

mutual

/-- What is there after a setting is laid over what may be there. -/
def laidOn : Setting → Option Setting → Setting
  | table entries, present => allLaidOn entries (present.getD (table []))
  | other, _ => other

/-- A setting after entries are laid over it one by one. -/
def allLaidOn : List (Text × Setting) → Setting → Setting
  | [], holder => holder
  | (key, value) :: rest, holder =>
    allLaidOn rest (holder.set key (laidOn value (holder.get? key)))

end

/-- A setting as a text: a boolean and a number are their own wording. -/
def asText? : Setting → Option Text
  | nothing => none
  | text content => some content
  | boolean value => some (if value then "true".toList else "false".toList)
  | integer value => some (Decimal.integerText value)
  | real value => some value.text
  | list _ => none
  | table _ => none

/-- A setting as a list of texts. -/
def asTexts? : Setting → Option (List Text)
  | list items => items.mapM asText?
  | _ => none

/-- The part of a record: a table has it under its name, a list at its place. The outer answer is
whether the setting is a record at all. -/
def part? (place : Nat) (name : Text) : Setting → Option (Option Setting)
  | table entries => some (find? name entries)
  | list items => some items[place]?
  | _ => none

end Setting

end Scaffold
