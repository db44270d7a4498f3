/-
**What a location knows of the text before it.**

The row of a place counts the line feeds before it, and its column the characters after the last of
them (`Position.ofOffset_append`). So a place has the same location in every text that has the same
text before it, but for the characters that are shown from the place on
(`Location.ofOffset_append`).
-/

import Scaffold.Location
import Scaffold.Proofs.Text.Lines

namespace Scaffold

/-! ### Line starts -/

theorem lt_of_mem_lineStartsFrom {offset start : Nat} {text : Text}
    (member : start ∈ lineStartsFrom offset text) : offset < start := by
  induction text generalizing offset with
  | nil => exact absurd member List.not_mem_nil
  | cons char rest ih =>
    have := char.utf8Size_pos
    rw [lineStartsFrom] at member
    split at member
    · rcases List.mem_cons.mp member with rfl | later
      · omega
      · have := ih later
        omega
    · have := ih member
      omega

theorem lineStartsFrom_append (offset : Nat) (first second : Text) :
    lineStartsFrom offset (first ++ second) =
      lineStartsFrom offset first ++ lineStartsFrom (offset + first.size) second := by
  induction first generalizing offset with
  | nil => rfl
  | cons char rest ih =>
    rw [List.cons_append, lineStartsFrom, lineStartsFrom, ih, Text.size_cons, Nat.add_assoc]
    split <;> rfl

theorem lineStartsFrom_eq_nil {offset : Nat} {line : Text} (noFeed : '\n' ∉ line) :
    lineStartsFrom offset line = [] := by
  induction line generalizing offset with
  | nil => rfl
  | cons char rest ih =>
    rw [List.mem_cons, not_or] at noFeed
    rw [lineStartsFrom, if_neg (Ne.symm noFeed.1)]
    exact ih noFeed.2

theorem length_lineStartsFrom (offset : Nat) (text : Text) :
    (lineStartsFrom offset text).length = text.count '\n' := by
  induction text generalizing offset with
  | nil => rfl
  | cons char rest ih =>
    rw [lineStartsFrom, List.count_cons]
    by_cases newline : char = '\n'
    · rw [if_pos newline, List.length_cons, ih, if_pos (beq_iff_eq.mpr newline)]
    · rw [if_neg newline, ih, if_neg (by simpa using newline)]
      rfl

theorem le_of_mem_lineStartsFrom {offset start : Nat} {text : Text}
    (member : start ∈ lineStartsFrom offset text) : start ≤ offset + text.size := by
  induction text generalizing offset with
  | nil => exact absurd member List.not_mem_nil
  | cons char rest ih =>
    rw [lineStartsFrom] at member
    rw [Text.size_cons, ← Nat.add_assoc]
    split at member
    · rcases List.mem_cons.mp member with rfl | later
      · exact Nat.le_add_right _ _
      · exact ih later
    · exact ih member

/-- The last line of a closed text is the one that starts at its end. -/
theorem getLastD_lineStarts {front : Text} (closed : front.IsClosed) :
    (lineStarts front).getLastD 0 = front.size := by
  rcases closed with rfl | last
  · rfl
  · obtain ⟨lead, rfl⟩ : ∃ lead, front = lead ++ ['\n'] := List.getLast?_eq_some_iff.mp last
    rw [lineStarts, lineStartsFrom_append, Nat.zero_add, ← List.cons_append]
    show ((0 :: lineStartsFrom 0 lead) ++ [lead.size + '\n'.utf8Size]).getLastD 0 = _
    rw [List.getLastD_concat, Text.size_append]
    rfl

/-- Complete lines have one line feed each. -/
theorem Text.count_newline_flatten {rows : List Text} (lined : Lined rows)
    (closed : IsClosed rows.flatten) : rows.flatten.count '\n' = rows.length := by
  induction rows with
  | nil => rfl
  | cons line rest ih =>
    obtain ⟨isLine, linedRest, seam⟩ := lined_cons.mp lined
    have closedLine : IsClosed line := by
      refine seam.elim id fun none => ?_
      rwa [none, List.flatten_singleton] at closed
    obtain ⟨filled, inside⟩ := isLine_iff.mp isLine
    obtain ⟨body, rfl⟩ := List.getLast?_eq_some_iff.mp (closedLine.resolve_left filled)
    rw [List.dropLast_concat] at inside
    rw [List.flatten_cons] at closed
    rw [List.flatten_cons, List.count_append, ih linedRest closed.of_append, List.count_append,
      List.count_eq_zero.mpr inside, List.length_cons]
    exact Nat.add_comm 1 _

/-! ### Positions and locations -/

/-- **The position of a place**: the row by the line feeds before it, the column by the characters
of its line before it. -/
theorem Position.ofOffset_append {front line : Text} (closed : front.IsClosed)
    (noFeed : '\n' ∉ line) (rest : Text) :
    ofOffset (front ++ line ++ rest) (front ++ line).size =
      ⟨front.count '\n' + 1, line.length + 1⟩ := by
  have reached : (lineStarts (front ++ line ++ rest)).filter (· ≤ (front ++ line).size) =
      lineStarts front := by
    have starts : lineStarts (front ++ line ++ rest) =
        lineStarts front ++ lineStartsFrom (front ++ line).size rest := by
      rw [lineStarts, lineStartsFrom_append, lineStartsFrom_append, lineStartsFrom_eq_nil noFeed,
        List.append_nil, Nat.zero_add]
      rfl
    have kept : ∀ start ∈ lineStarts front, decide (start ≤ (front ++ line).size) = true := by
      intro start member
      rw [decide_eq_true_iff, Text.size_append]
      rcases List.mem_cons.mp member with rfl | later
      · exact Nat.zero_le _
      · have := le_of_mem_lineStartsFrom later
        omega
    have dropped : ∀ start ∈ lineStartsFrom (front ++ line).size rest,
        ¬ decide (start ≤ (front ++ line).size) = true := fun start member within =>
      Nat.not_lt.mpr (of_decide_eq_true within) (lt_of_mem_lineStartsFrom member)
    rw [starts, List.filter_append, List.filter_eq_self.mpr kept,
      List.filter_eq_nil_iff.mpr dropped, List.append_nil]
  rw [ofOffset, Text.cut_size]
  dsimp only
  rw [reached, getLastD_lineStarts closed, Text.cut_size, lineStarts, List.length_cons,
    length_lineStartsFrom]

/-- **The location of a place** is that in any text with the same text before the place, but for
what is shown after it. -/
theorem Location.ofOffset_append {front line : Text} (closed : front.IsClosed)
    (noFeed : '\n' ∉ line) (rest : Text) :
    ofOffset (front ++ line ++ rest) (front ++ line).size =
      { offset := (front ++ line).size
        row := front.count '\n' + 1
        column := line.length + 1
        leading := (front ++ line).drop ((front ++ line).length - leadingWidth)
        trailing := rest.take trailingWidth } := by
  rw [ofOffset, Position.ofOffset_append closed noFeed, Text.cut_size]

/-- **The location of a place in a line**: the row is one more than the lines before it. -/
theorem Location.ofOffset_of_lines {text line part word : Text} {before after : List Text}
    (split : text.lines = before ++ line :: after) (inside : line = part ++ word)
    (filled : word ≠ []) :
    ofOffset text (Text.size before.flatten + part.size) =
      { offset := Text.size before.flatten + part.size
        row := before.length + 1
        column := part.length + 1
        leading := (before.flatten ++ part).drop
          ((before.flatten ++ part).length - leadingWidth)
        trailing := (word ++ after.flatten).take trailingWidth } := by
  have lined := Text.lined_lines text
  rw [split, Text.lined_append] at lined
  obtain ⟨linedBefore, linedRest, seam⟩ := lined
  have closed := seam.resolve_right (List.cons_ne_nil _ _)
  have noFeed : '\n' ∉ part := by
    have isLine := (Text.isLine_iff.mp (Text.lined_cons.mp linedRest).1).2
    rw [inside, List.dropLast_append_of_ne_nil filled] at isLine
    exact fun member => isLine (List.mem_append_left _ member)
  have whole : text = before.flatten ++ part ++ (word ++ after.flatten) := by
    rw [← Text.lines_flatten text, split, List.flatten_append, List.flatten_cons, inside]
    simp only [List.append_assoc]
  rw [← Text.size_append, whole, ofOffset_append closed noFeed,
    Text.count_newline_flatten linedBefore closed]

end Scaffold
