/-
**Names of tags and keys of attributes.**

A name is one segment, or two with a colon between them; a segment starts with an ASCII letter or an
underscore and goes on with word characters, points and dashes. A key is like a segment that may
hold colons too. Names are read as far as they go.
-/

import Scaffold.Text.Basic
import Scaffold.Text.Word

namespace Scaffold.Tag

/-- A character that continues a segment of a name. -/
def continuesName (char : Char) : Bool := Text.isWord char || char == '.' || char == '-'

/-- A character that continues the key of an attribute. -/
def continuesKey (char : Char) : Bool := continuesName char || char == ':'

/-- A first character and those after it that satisfy `more`, with the text after them. -/
def readWord? (more : Char → Bool) : Text → Option (Text × Text)
  | [] => none
  | first :: rest =>
    if Text.startsIdentifier first then
      some (first :: rest.takeWhile more, rest.dropWhile more)
    else none

/-- The name at the front of a text and the text after it. -/
def readName? (text : Text) : Option (Text × Text) :=
  (readWord? continuesName text).map fun first =>
    match first.2 with
    | ':' :: rest =>
      match readWord? continuesName rest with
      | some second => (first.1 ++ ':' :: second.1, second.2)
      | none => first
    | _ => first

/-- Whether a text is a name of a tag. -/
def isName (text : Text) : Bool :=
  match readName? text with
  | some (_, []) => true
  | _ => false

theorem readWord?_append {more : Char → Bool} {text word rest : Text}
    (found : readWord? more text = some (word, rest)) : word ++ rest = text := by
  cases text with
  | nil => simp [readWord?] at found
  | cons first after =>
      simp only [readWord?] at found
      split at found
      · simp only [Option.some.injEq, Prod.mk.injEq] at found
        obtain ⟨rfl, rfl⟩ := found
        simp [List.takeWhile_append_dropWhile]
      · simp at found

theorem readName?_append {text name rest : Text} (found : readName? text = some (name, rest)) :
    name ++ rest = text := by
  unfold readName? at found
  simp only [Option.map_eq_some_iff] at found
  obtain ⟨⟨first, after⟩, read, same⟩ := found
  have whole := readWord?_append read
  simp only at same
  split at same
  · split at same
    · rename_i later second again
      have inner : second.1 ++ second.2 = _ := readWord?_append again
      simp only [Prod.mk.injEq] at same
      obtain ⟨rfl, rfl⟩ := same
      rw [← whole, ← inner]
      simp
    · simp only [Prod.mk.injEq] at same
      obtain ⟨rfl, rfl⟩ := same
      exact whole
  · simp only [Prod.mk.injEq] at same
    obtain ⟨rfl, rfl⟩ := same
    exact whole

end Scaffold.Tag
