/-
**Locations are exact.**

An offset stands for the greatest boundary of its text that is neither after it nor past the end
(`Text.isGreatest_cut`). The position of a boundary counts the line feeds before it and the
characters after the last of them (`Position.ofOffset_boundary`), so positions are in the order of
the boundaries (`Position.before_of_lt`) and no two boundaries share one. A location adds the last
characters before the boundary and the first ones after it, as many as it may show or as there are
(`Location.shows_cut`), and together these are one piece of the text.
-/

import Mathlib.Data.List.DropRight
import Mathlib.Order.Bounds.Basic
import Scaffold.Proofs.Bytes.Locations

namespace Scaffold

namespace Text

/-! ### Boundaries -/

/-- The offsets between two characters of a text, and those of its ends. -/
def boundaries (text : Text) : Set Nat :=
  {offset | ∃ before after, text = before ++ after ∧ before.size = offset}

/-- **An offset stands for the greatest boundary** that is not after it, nor past the end. -/
theorem isGreatest_cut (text : Text) (offset : Nat) :
    IsGreatest {place ∈ text.boundaries | place ≤ min offset text.size}
      (text.cut offset).1.size := by
  constructor
  · exact ⟨⟨_, _, (cut_append text offset).symm, rfl⟩,
      Nat.le_min.mpr ⟨cut_size_le text offset, cut_fst_size_le text offset⟩⟩
  · rintro place ⟨⟨before, after, whole, rfl⟩, bounded⟩
    by_contra beyond
    have same : text.cut before.size = text.cut offset :=
      cut_eq_of_between (by omega) (bounded.trans (Nat.min_le_left _ _))
    apply beyond
    rw [← same, whole, cut_size]

/-- Before the later one of two boundaries there is more text than before the other. -/
theorem exists_more {text before after : Text} {stop : Nat} (whole : text = before ++ after)
    (isBoundary : stop ∈ text.boundaries) (later : before.size < stop) :
    ∃ more rest, more ≠ [] ∧ text = before ++ more ++ rest ∧ (before ++ more).size = stop := by
  obtain ⟨further, rest, again, rfl⟩ := isBoundary
  rcases List.append_eq_append_iff.mp (whole.symm.trans again) with
    ⟨more, rfl, rfl⟩ | ⟨less, rfl, rfl⟩
  · refine ⟨more, rest, ?_, again, rfl⟩
    rintro rfl
    rw [List.append_nil] at later
    exact Nat.lt_irrefl _ later
  · rw [size_append] at later
    omega

/-! ### Last lines -/

/-- The characters of a text after its last line feed. -/
def lastLine (text : Text) : Text := text.rtakeWhile (· != '\n')

theorem newline_not_mem_lastLine (text : Text) : '\n' ∉ text.lastLine := by
  intro member
  have other := List.mem_takeWhile_imp (List.mem_reverse.mp member)
  exact absurd other (by decide)

/-- The text before the last line is empty or ends with a line feed. -/
theorem exists_closed_lastLine (text : Text) :
    ∃ front : Text, front.IsClosed ∧ front ++ text.lastLine = text := by
  refine ⟨text.rdropWhile (· != '\n'), ?_, List.rdropWhile_append_rtakeWhile⟩
  by_cases none : text.rdropWhile (· != '\n') = []
  · exact Or.inl none
  · have last := List.rdropWhile_last_not (· != '\n') text none
    right
    rw [List.getLast?_eq_some_getLast none]
    simpa using last

/-- A text without a line feed goes on with the last line of the text before it. -/
theorem lastLine_append {more : Text} (noFeed : '\n' ∉ more) (text : Text) :
    (text ++ more).lastLine = text.lastLine ++ more := by
  have kept : ∀ char ∈ more.reverse, (char != '\n') = true := by
    intro char member
    refine bne_iff_ne.mpr ?_
    rintro rfl
    exact noFeed (List.mem_reverse.mp member)
  unfold lastLine List.rtakeWhile
  rw [List.reverse_append, List.takeWhile_append_of_pos kept, List.reverse_append,
    List.reverse_reverse]

end Text

/-! ### Positions -/

namespace Position

/-- **The position of a boundary**: the row by the line feeds before it, the column by the
characters after the last of them. -/
theorem ofOffset_boundary {text before after : Text} (split : text = before ++ after) :
    ofOffset text before.size = ⟨1 + before.count '\n', 1 + before.lastLine.length⟩ := by
  obtain ⟨front, closed, whole⟩ := before.exists_closed_lastLine
  have noFeed := before.newline_not_mem_lastLine
  have position := ofOffset_append closed noFeed after
  have feeds : before.count '\n' = front.count '\n' := by
    conv_lhs => rw [← whole]
    rw [List.count_append, List.count_eq_zero.mpr noFeed, Nat.add_zero]
  rw [whole] at position
  rw [split, position, feeds, Nat.add_comm 1, Nat.add_comm 1]

/-- An offset has the position of the boundary that it stands for. -/
theorem ofOffset_cut (text : Text) (offset : Nat) :
    ofOffset text (text.cut offset).1.size = ofOffset text offset := by
  unfold ofOffset
  rw [Text.cut_cut_size]

/-- **Positions are in the order of the boundaries**: behind a line feed the row is greater, and
behind any other character the column. -/
theorem before_of_lt {text : Text} {first second : Nat} (isFirst : first ∈ text.boundaries)
    (isSecond : second ∈ text.boundaries) (later : first < second) :
    (ofOffset text first).before (ofOffset text second) := by
  obtain ⟨before, after, whole, rfl⟩ := isFirst
  obtain ⟨more, rest, filled, split, rfl⟩ := Text.exists_more whole isSecond later
  rw [ofOffset_boundary whole, ofOffset_boundary split]
  unfold Position.before
  dsimp only
  rw [List.count_append]
  by_cases feed : '\n' ∈ more
  · have := List.count_pos_iff.mpr feed
    exact Or.inl (by omega)
  · have := List.length_pos_iff.mpr filled
    rw [List.count_eq_zero.mpr feed, Text.lastLine_append feed, List.length_append]
    exact Or.inr (by omega)

theorem before_irrefl (position : Position) : ¬ position.before position := by
  unfold Position.before
  omega

/-- **A position identifies its boundary.** -/
theorem injOn_boundaries (text : Text) : Set.InjOn (ofOffset text) text.boundaries := by
  intro first isFirst second isSecond same
  rcases Nat.lt_trichotomy first second with earlier | equal | later
  · have ordered := before_of_lt isFirst isSecond earlier
    rw [same] at ordered
    exact absurd ordered (before_irrefl _)
  · exact equal
  · have ordered := before_of_lt isSecond isFirst later
    rw [same] at ordered
    exact absurd ordered (before_irrefl _)

end Position

/-! ### Locations -/

namespace Location

/-- The location shows the end of the text before its place and the start of the text after it: ten
characters and fifty, or all there are. -/
structure Shows (location : Location) (before after : Text) : Prop where
  leading : location.leading <:+ before
  leading_length : location.leading.length = min 10 before.length
  trailing : location.trailing <+: after
  trailing_length : location.trailing.length = min 50 after.length

theorem shows_cut (text : Text) (offset : Nat) :
    (ofOffset text offset).Shows (text.cut offset).1 (text.cut offset).2 where
  leading := List.drop_suffix _ _
  leading_length := by
    show ((text.cut offset).1.drop _).length = _
    rw [List.length_drop]
    unfold leadingWidth
    omega
  trailing := List.take_prefix _ _
  trailing_length := by
    show ((text.cut offset).2.take _).length = _
    rw [List.length_take]
    rfl

/-- **What a location shows is one piece** of the text, and the place is in it where the leading
part ends. -/
theorem Shows.hasAt {location : Location} {before after : Text}
    (shown : location.Shows before after) :
    ∃ start, (before ++ after).HasAt start (location.leading ++ location.trailing) ∧
      start + location.leading.size = before.size := by
  obtain ⟨front, whole⟩ := shown.leading
  obtain ⟨back, split⟩ := shown.trailing
  refine ⟨Text.size front, ⟨front, back, ?_, rfl⟩, ?_⟩
  · conv_lhs => rw [← whole, ← split]
    simp only [List.append_assoc]
  · conv_rhs => rw [← whole]
    rw [Text.size_append]

/-- **Positions and locations are exact.** Every offset stands for the greatest boundary up to it
and in the text; its position counts the line feeds before that boundary and the characters after the
last of them; its location has that boundary and that position, and shows one piece of the text
around it. Boundaries in order have positions in order, so a position identifies its boundary. -/
theorem ofOffset_exact (text : Text) :
    (∀ offset, ∃ before after, text = before ++ after ∧
        IsGreatest {place ∈ text.boundaries | place ≤ min offset text.size} before.size ∧
        Position.ofOffset text offset = ⟨1 + before.count '\n', 1 + before.lastLine.length⟩ ∧
        (ofOffset text offset).offset = before.size ∧
        Position.mk (ofOffset text offset).row (ofOffset text offset).column =
          Position.ofOffset text offset ∧
        (ofOffset text offset).Shows before after ∧
        ∃ start, text.HasAt start
            ((ofOffset text offset).leading ++ (ofOffset text offset).trailing) ∧
          start + (ofOffset text offset).leading.size = before.size) ∧
      (∀ first ∈ text.boundaries, ∀ second ∈ text.boundaries, first < second →
        (Position.ofOffset text first).before (Position.ofOffset text second)) ∧
      Set.InjOn (Position.ofOffset text) text.boundaries := by
  refine ⟨fun offset => ?_, fun first isFirst second isSecond later =>
    Position.before_of_lt isFirst isSecond later, Position.injOn_boundaries text⟩
  have whole := text.cut_append offset
  have position := Position.ofOffset_boundary whole.symm
  rw [Position.ofOffset_cut] at position
  have shown := shows_cut text offset
  have piece := shown.hasAt
  rw [whole] at piece
  exact ⟨_, _, whole.symm, text.isGreatest_cut offset, position, rfl, rfl, shown, piece⟩

/-- Offsets inside characters, at a line feed and past the end, in lines with characters of several
bytes. -/
theorem ofOffset_exact_clamped :
    let text : Text := "aé\n😀b\n".toList
    Position.ofOffset text 2 = ⟨1, 2⟩ ∧ Position.ofOffset text 6 = ⟨2, 1⟩ ∧
      Position.ofOffset text 99 = ⟨3, 1⟩ ∧
      3 ∈ text.boundaries ∧ 4 ∈ text.boundaries ∧
      (Position.ofOffset text 3).before (Position.ofOffset text 4) ∧
      (ofOffset text 6).offset = 4 ∧ (ofOffset text 6).leading = "aé\n".toList ∧
      (ofOffset text 6).trailing = "😀b\n".toList := by
  intro text
  have isFirst : 3 ∈ text.boundaries := ⟨"aé".toList, "\n😀b\n".toList, by decide, by decide⟩
  have isSecond : 4 ∈ text.boundaries := ⟨"aé\n".toList, "😀b\n".toList, by decide, by decide⟩
  have ordered := (ofOffset_exact text).2.1 3 isFirst 4 isSecond (by decide)
  exact ⟨by decide, by decide, by decide, isFirst, isSecond, ordered, by decide, by decide,
    by decide⟩

end Location

end Scaffold
