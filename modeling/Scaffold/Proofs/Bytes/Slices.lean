/-
**Slices and differences that may not exist.**

A text is sliced between two byte offsets. The slice exists if the offsets are in order, neither is
past the end, and neither is inside a character (`slice?`); a difference of sizes exists if it is not
negative (`minus?`). Both come to nothing otherwise. What a slice is, is said in terms of places:

* `slice?_eq_some_iff`: a slice exists if it stands at its start and takes the range up;
* `exists_slice?_iff`: the ranges that have a slice, by their offsets alone;
* `slice?_append`, `from?_append`, `upTo?_append`: the parts of a text can be sliced out of it;
* `minus?_append`: the size of a part can be taken off the size of the whole.
-/

import Scaffold.Proofs.Text.Places

namespace Scaffold

/-- The difference of two sizes, if it is not negative. -/
def minus? (whole part : Nat) : Option Nat := if part ≤ whole then some (whole - part) else none

theorem minus?_eq_some_iff {whole part rest : Nat} :
    minus? whole part = some rest ↔ part + rest = whole := by
  rw [minus?]
  split
  · rw [Option.some.injEq]
    omega
  · exact iff_of_false nofun (by omega)

namespace Text

/-! ### Offsets between characters -/

/-- Whether the offset is between two characters, or at an end of the text. -/
def isBoundary (text : Text) (offset : Nat) : Bool := (text.cut offset).1.size == offset

/-- A boundary splits the text. -/
theorem isBoundary_iff {text : Text} {offset : Nat} :
    text.isBoundary offset = true ↔ ∃ before after, text = before ++ after ∧ before.size = offset := by
  rw [isBoundary, beq_iff_eq]
  constructor
  · intro reached
    exact ⟨_, _, (cut_append text offset).symm, reached⟩
  · rintro ⟨before, after, rfl, rfl⟩
    rw [cut_size]

theorem isBoundary_append (before after : Text) :
    (before ++ after).isBoundary before.size = true :=
  isBoundary_iff.mpr ⟨before, after, rfl, rfl⟩

/-! ### Slices -/

/-- The text between two offsets, if they are in order and neither of them is inside a character or
past the end. -/
def slice? (text : Text) (start stop : Nat) : Option Text :=
  if start ≤ stop ∧ text.isBoundary start = true ∧ text.isBoundary stop = true then
    some ((text.cut stop).1.cut start).2
  else none

/-- The text from an offset on. -/
def from? (text : Text) (start : Nat) : Option Text := text.slice? start text.size

/-- The text before an offset. -/
def upTo? (text : Text) (stop : Nat) : Option Text := text.slice? 0 stop

theorem slice?_append (before piece after : Text) :
    (before ++ (piece ++ after)).slice? before.size (before.size + piece.size) = some piece := by
  have stops : (before ++ (piece ++ after)).isBoundary (before.size + piece.size) = true := by
    rw [← List.append_assoc, ← size_append]
    exact isBoundary_append _ after
  rw [slice?, if_pos ⟨Nat.le_add_right _ _, isBoundary_append before _, stops⟩,
    ← List.append_assoc, ← size_append, cut_size, cut_size]

/-- **A slice exists** if it stands at its start and takes the range up. -/
theorem slice?_eq_some_iff {text piece : Text} {start stop : Nat} :
    text.slice? start stop = some piece ↔
      text.HasAt start piece ∧ start + piece.size = stop := by
  constructor
  · intro found
    rw [slice?] at found
    split at found
    · rename_i range
      obtain ⟨ordered, starts, stops⟩ := range
      obtain ⟨before, after, rfl, rfl⟩ := isBoundary_iff.mp stops
      rw [cut_size, Option.some.injEq] at found
      have same : (before.cut start).1.size = start := by
        obtain ⟨lead, rest, split, rfl⟩ := isBoundary_iff.mp starts
        rcases List.append_eq_append_iff.mp split with ⟨more, rfl, rfl⟩ | ⟨more, rfl, rfl⟩
        · rw [size_append] at ordered
          have none : more = [] := size_eq_zero.mp (by omega)
          have all := cut_size before []
          rw [List.append_nil] at all
          rw [none, List.append_nil, all]
        · rw [cut_size]
      refine ⟨⟨(before.cut start).1, after, ?_, same⟩, ?_⟩
      · rw [← found, ← List.append_assoc, cut_append]
      · rw [← found]
        have whole := congrArg size (cut_append before start)
        rw [size_append, same] at whole
        exact whole
    · cases found
  · rintro ⟨⟨before, after, rfl, rfl⟩, rfl⟩
    exact slice?_append before piece after

theorem le_size_of_isBoundary {text : Text} {offset : Nat} (reached : text.isBoundary offset = true) :
    offset ≤ text.size := by
  obtain ⟨before, after, rfl, rfl⟩ := isBoundary_iff.mp reached
  rw [size_append]
  exact Nat.le_add_right _ _

/-- The ranges that have a slice. -/
theorem exists_slice?_iff {text : Text} {start stop : Nat} :
    (∃ piece, text.slice? start stop = some piece) ↔
      start ≤ stop ∧ stop ≤ text.size ∧ text.isBoundary start = true ∧
        text.isBoundary stop = true := by
  rw [slice?]
  constructor
  · rintro ⟨piece, found⟩
    split at found
    · rename_i range
      exact ⟨range.1, le_size_of_isBoundary range.2.2, range.2⟩
    · cases found
  · rintro ⟨ordered, -, starts, stops⟩
    exact ⟨_, if_pos ⟨ordered, starts, stops⟩⟩

theorem HasAt.slice? {text piece : Text} {start : Nat} (stands : text.HasAt start piece) :
    text.slice? start (start + piece.size) = some piece :=
  slice?_eq_some_iff.mpr ⟨stands, rfl⟩

theorem from?_append (before after : Text) : (before ++ after).from? before.size = some after := by
  rw [from?, size_append]
  exact (HasAt.append_right before after).slice?

theorem upTo?_append (before after : Text) : (before ++ after).upTo? before.size = some before := by
  have stands : (before ++ after).HasAt 0 before := (HasAt.refl _).left
  rw [upTo?, ← Nat.zero_add before.size]
  exact stands.slice?

theorem minus?_append (before after : Text) :
    minus? (before ++ after).size after.size = some before.size := by
  rw [minus?_eq_some_iff, size_append, Nat.add_comm]

/-! ### Searching -/

/-- The offset of the first occurrence of `needle`. -/
def placeOf? (text needle : Text) : Option Nat :=
  let parts := text.splitAtFirst needle
  if needle.isPrefixOf parts.2 then some parts.1.size else none

/-- The text before the first occurrence is as long as its offset says, or all there is. -/
theorem getD_placeOf? (text needle : Text) :
    (text.placeOf? needle).getD text.size = (text.splitAtFirst needle).1.size := by
  have whole := splitAtFirst_append text needle
  have rest : needle.isPrefixOf (text.splitAtFirst needle).2 = true ∨
      (text.splitAtFirst needle).2 = [] := by
    induction text with
    | nil => exact Or.inr rfl
    | cons char rest ih =>
      rw [splitAtFirst]
      split
      · exact Or.inl ‹_›
      · exact ih (splitAtFirst_append rest needle)
  rw [placeOf?]
  rcases rest with found | none
  · rw [if_pos found]
    rfl
  · rw [none, List.append_nil] at whole
    split
    · rfl
    · rw [whole]
      rfl

end Text

end Scaffold
