/-
**Places in a text.**

A word stands at an offset of a text if the text has so many bytes before it (`HasAt`). Places go
through layers: a place in a part of a text is one in the text, further on by where the part stands
(`HasAt.trans`), so a reader that knows where its part starts knows where everything in it is. The
location of such a place has its offset (`HasAt.offset_location`): it is never inside a character,
nor past the end.
-/

import Scaffold.Excerpt.Basic
import Scaffold.Location

namespace Scaffold

namespace Text

/-- The word stands at this offset of the text. -/
def HasAt (text : Text) (offset : Nat) (word : Text) : Prop :=
  ∃ before after, text = before ++ (word ++ after) ∧ before.size = offset

namespace HasAt

variable {text first second word : Text} {offset : Nat}

theorem refl (text : Text) : text.HasAt 0 text := ⟨[], [], (List.append_nil text).symm, rfl⟩

theorem append_right (first second : Text) : (first ++ second).HasAt first.size second :=
  ⟨first, [], by rw [List.append_nil], rfl⟩

theorem left (stands : text.HasAt offset (first ++ second)) : text.HasAt offset first := by
  obtain ⟨before, after, rfl, rfl⟩ := stands
  exact ⟨before, second ++ after, by rw [List.append_assoc], rfl⟩

theorem right (stands : text.HasAt offset (first ++ second)) :
    text.HasAt (offset + first.size) second := by
  obtain ⟨before, after, rfl, rfl⟩ := stands
  refine ⟨before ++ first, after, ?_, Text.size_append before first⟩
  simp only [List.append_assoc]

/-- A place in a part of a text is one in the text. -/
theorem trans {inner : Nat} (stands : text.HasAt offset first) (within : first.HasAt inner word) :
    text.HasAt (offset + inner) word := by
  obtain ⟨before, after, rfl, rfl⟩ := within
  exact stands.right.left

theorem le_size (stands : text.HasAt offset word) : offset + word.size ≤ text.size := by
  obtain ⟨before, after, rfl, rfl⟩ := stands
  rw [Text.size_append, Text.size_append, ← Nat.add_assoc]
  exact Nat.le_add_right _ _

/-- The location of a place has its offset. -/
theorem offset_location (stands : text.HasAt offset word) :
    (Location.ofOffset text offset).offset = offset := by
  obtain ⟨before, after, rfl, rfl⟩ := stands
  show (Text.cut (before ++ (word ++ after)) before.size).1.size = before.size
  rw [Text.cut_size]

end HasAt

/-- Each line of a text stands where the lines before it end. -/
theorem hasAt_line {text line : Text} {before after : List Text}
    (split : text.lines = before ++ line :: after) : text.HasAt (Text.size before.flatten) line := by
  refine ⟨before.flatten, after.flatten, ?_, rfl⟩
  rw [← Text.lines_flatten text, split, List.flatten_append, List.flatten_cons]

end Text

/-! ### Excerpts -/

namespace Excerpt

/-- The excerpt is part of the source, where it says. -/
def IsOf (source : Text) (excerpt : Excerpt) : Prop := source.HasAt excerpt.offset excerpt.text

theorem IsOf.skip {source lead rest : Text} {excerpt : Excerpt} (isOf : excerpt.IsOf source)
    (split : lead ++ rest = excerpt.text) : (excerpt.skip lead rest).IsOf source := by
  rw [IsOf, ← split] at isOf
  exact isOf.right

theorem IsOf.skipBlanks {source : Text} {excerpt : Excerpt} (isOf : excerpt.IsOf source) :
    excerpt.skipBlanks.IsOf source :=
  isOf.skip (Text.trimStart_append excerpt.text)

end Excerpt

end Scaffold
