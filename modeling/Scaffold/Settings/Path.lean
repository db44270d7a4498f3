/-
**Paths into settings.**

A path is a row of steps, each to an entry of a table or to an item of a list. As a text it is names
with points between them, and a name may have indices in brackets after it: `tags.marks[0].kind`. An
index below zero counts from the end of its list.

Laying a setting under a path makes what the path needs: a table or a list where there is none, and
empty items up to an index. A list has the new item at its place and what it had at every other
(`itemAt_setItem`).
-/

import Scaffold.Decimal.Numeral
import Scaffold.Settings.Basic
import Scaffold.Text.Basic

namespace Scaffold.Setting

/-- A step of a path. -/
inductive Step where
  /-- To the entry of a table with this key. -/
  | entry (key : Text)
  /-- To the item of a list at this index. -/
  | item (index : Int)
  deriving DecidableEq, Repr

/-! ### Reading a path -/

/-- A character of a name in a path. -/
def isPathChar (char : Char) : Bool :=
  char.isAlphanum || char == ' ' || char == '_' || char == '-'

/-- The index that stands between brackets, with spaces and tabs around it. -/
def index? (inner : Text) : Option Int :=
  let whole (sign : Int) (digits : Text) : Option Int :=
    if Numeral.isDigits digits then Numeral.signedWord? (sign * Numeral.valueOf digits) else none
  match Text.dropEndWhile Text.isInlineBlank (inner.dropWhile Text.isInlineBlank) with
  | '-' :: digits => whole (-1) digits
  | digits => whole 1 digits

/-- The steps of indices, each in brackets of its own. -/
def indices? (text : Text) : Option (List Step) :=
  match (text.splitOn ']').reverse with
  | [] :: parts => parts.reverse.mapM fun part =>
    match part with
    | '[' :: inner => (index? inner).map .item
    | _ => none
  | _ => none

/-- The steps of a name and the indices after it. -/
def segment? (text : Text) : Option (List Step) :=
  match text.takeWhile isPathChar with
  | [] => none
  | name => do return .entry name :: (← indices? (text.dropWhile isPathChar))

/-- The path that a key is. -/
def path? (key : Text) : Option (List Step) := do
  return (← (key.splitOn '.').mapM segment?).flatten

/-! ### Laying a setting under a path -/

/-- The items of a list; whatever is no list has none. -/
def items : Setting → List Setting
  | list items => items
  | _ => []

/-- The place in a list that an index means. One before all items is the first place. -/
def placeOf (holder : Setting) (index : Int) : Nat :=
  (if index < 0 then holder.items.length + index else index).toNat

/-- The item at a place; nothing where there is none. -/
def itemAt (holder : Setting) (place : Nat) : Setting := holder.items[place]?.getD nothing

/-- A list with a value at a place; whatever is no list becomes one. -/
def setItem (holder : Setting) (place : Nat) (value : Setting) : Setting :=
  let missing := List.replicate (place + 1 - holder.items.length) nothing
  list ((holder.items ++ missing).set place value)

/-- Empty items at the end of a list are read like no items. -/
theorem getD_append_nothing (items : List Setting) (count place : Nat) :
    (items ++ List.replicate count nothing)[place]?.getD nothing =
      items[place]?.getD nothing := by
  by_cases inside : place < items.length
  · rw [List.getElem?_append_left inside]
  · rw [List.getElem?_append_right (by omega), List.getElem?_replicate,
      List.getElem?_eq_none (by omega : items.length ≤ place)]
    split <;> rfl

theorem itemAt_setItem (holder value : Setting) (place other : Nat) :
    (holder.setItem place value).itemAt other =
      if other = place then value else holder.itemAt other := by
  by_cases same : other = place
  · subst same
    rw [if_pos rfl, itemAt, setItem, items, List.getElem?_set_self]
    · rfl
    · rw [List.length_append, List.length_replicate]
      omega
  · rw [if_neg same, itemAt, setItem, items, List.getElem?_set_ne (Ne.symm same)]
    exact getD_append_nothing holder.items _ other

/-- A setting with another one laid under a path in it. An item is replaced, an entry is merged. -/
def put (holder : Setting) (value : Setting) : (path : List Step) → Setting
  | [] => value.laidOn (some holder)
  | [.entry key] => holder.set key (value.laidOn (holder.get? key))
  | [.item index] => holder.setItem (holder.placeOf index) value
  | .entry key :: rest => holder.set key (((holder.get? key).getD nothing).put value rest)
  | .item index :: rest =>
    let place := holder.placeOf index
    holder.setItem place ((holder.itemAt place).put value rest)

end Scaffold.Setting
