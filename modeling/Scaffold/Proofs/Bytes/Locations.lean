/-
**Locations by byte offsets.**

The location of an offset is found on bytes: the offset goes back to the start of the character it
is in, one byte at a time; its line is found in the sorted table of line starts, where an offset
that is no line start belongs to the line before the place it would be added at; and the column and
the text around the place are counted in slices. None of these steps can fail, for whatever offset:

* `floor?_eq`: going back ends at a boundary, at the latest at the start of the text;
* `lineOf?_append`: there is a line before the place, since the first line starts with the text;
* `ofOffset?_eq`, `locate?_eq`: the location is that of the model.
-/

import Scaffold.Fault
import Scaffold.Proofs.Bytes.Slices
import Scaffold.Proofs.Text.Positions

namespace Scaffold

namespace Text

/-! ### Starts of characters -/

/-- The last boundary that is not after the offset; each step goes back by one byte. -/
def floorFrom? (text : Text) : Nat → Option Nat
  | 0 => if text.isBoundary 0 then some 0 else none
  | offset + 1 =>
    if text.isBoundary (offset + 1) then some (offset + 1) else floorFrom? text offset

/-- The start of the character that the offset is in; the end for an offset after it. -/
def floor? (text : Text) (offset : Nat) : Option Nat := floorFrom? text (min offset text.size)

/-- Nothing is cut differently between a boundary and an offset in the character after it. -/
theorem cut_eq_of_between {text : Text} {offset other : Nat}
    (after : (text.cut offset).1.size ≤ other) (before : other ≤ offset) :
    text.cut other = text.cut offset := by
  induction text generalizing offset other with
  | nil => rfl
  | cons char rest ih =>
    by_cases fits : char.utf8Size ≤ offset
    · rw [cut, if_pos fits, size_cons] at after
      have inside : char.utf8Size ≤ other := by omega
      have same : cut rest (other - char.utf8Size) = cut rest (offset - char.utf8Size) :=
        ih (by omega) (by omega)
      rw [cut, cut, if_pos fits, if_pos inside, same]
    · rw [cut, cut, if_neg fits, if_neg (by omega)]

theorem floorFrom?_eq (text : Text) (offset : Nat) :
    text.floorFrom? offset = some (text.cut offset).1.size := by
  induction offset with
  | zero =>
    have start : (text.cut 0).1.size = 0 := Nat.le_zero.mp (cut_size_le text 0)
    rw [floorFrom?, isBoundary, start]
    rfl
  | succ offset ih =>
    rw [floorFrom?]
    split
    · rename_i reached
      rw [eq_of_beq reached]
    · rename_i inside
      have bounded := cut_size_le text (offset + 1)
      have missed : (text.cut (offset + 1)).1.size ≠ offset + 1 := fun same =>
        inside (beq_iff_eq.mpr same)
      have same : text.cut offset = text.cut (offset + 1) :=
        cut_eq_of_between (by omega) (Nat.le_succ offset)
      rw [ih, same]

theorem cut_fst_size_le (text : Text) (offset : Nat) : (text.cut offset).1.size ≤ text.size := by
  have whole := congrArg size (cut_append text offset)
  rw [size_append] at whole
  omega

/-- **Going back byte by byte** ends where the text is cut. -/
theorem floor?_eq (text : Text) (offset : Nat) :
    text.floor? offset = some (text.cut offset).1.size := by
  have behind : (text.cut offset).1.size ≤ min offset text.size :=
    Nat.le_min.mpr ⟨cut_size_le text offset, cut_fst_size_le text offset⟩
  rw [floor?, floorFrom?_eq, cut_eq_of_between behind (Nat.min_le_left _ _)]

/-- The boundary before an offset is where the text is cut at that boundary. -/
theorem cut_cut_size (text : Text) (offset : Nat) :
    text.cut (text.cut offset).1.size = text.cut offset :=
  cut_eq_of_between (Nat.le_refl _) (cut_size_le text offset)

end Text

/-! ### Lines -/

/-- Where a number is in a list in increasing order, or else where it would have to be added. -/
def search (numbers : List Nat) (number : Nat) : Except Nat Nat :=
  let index := (numbers.takeWhile (· < number)).length
  if numbers[index]? = some number then .ok index else .error index

/-- The index of the last line that starts at the offset or before it. -/
def lineOf? (starts : List Nat) (offset : Nat) : Option Nat :=
  match search starts offset with
  | .ok index => some index
  | .error index => minus? index 1

/-- **A line is found** if one starts at the offset or before it. -/
theorem lineOf?_append {before after : List Nat} {start offset : Nat}
    (earlier : ∀ other ∈ before, other < start) (reached : start ≤ offset)
    (later : ∀ other ∈ after, offset < other) :
    lineOf? (before ++ start :: after) offset = some before.length := by
  have passed : ∀ other ∈ before, decide (other < offset) = true := fun other member =>
    decide_eq_true (Nat.lt_of_lt_of_le (earlier other member) reached)
  have stopped : after.takeWhile (· < offset) = [] := by
    cases after with
    | nil => rfl
    | cons other rest =>
      have beyond := later other List.mem_cons_self
      exact List.takeWhile_cons_of_neg (by simp only [decide_eq_true_eq]; omega)
  rcases Nat.eq_or_lt_of_le reached with rfl | behind
  · have found : search (before ++ start :: after) start = .ok before.length := by
      rw [search, List.takeWhile_append_of_pos passed, List.takeWhile_cons_of_neg (by simp),
        List.append_nil]
      exact if_pos (by simp)
    rw [lineOf?, found]
  · have first : (start :: after).takeWhile (· < offset) = [start] := by
      rw [List.takeWhile_cons_of_pos (by simpa using behind), stopped]
    have absent : search (before ++ start :: after) offset = .error (before.length + 1) := by
      have next : (before ++ start :: after)[before.length + 1]? ≠ some offset := by
        rw [List.getElem?_append_right (Nat.le_add_right _ _), Nat.add_sub_cancel_left,
          List.getElem?_cons_succ]
        intro same
        exact absurd (later offset (List.mem_of_getElem? same)) (Nat.lt_irrefl offset)
      rw [search, List.takeWhile_append_of_pos passed, first, List.length_append]
      exact if_neg next
    rw [lineOf?, absent]
    exact minus?_eq_some_iff.mpr (Nat.add_comm 1 _)

/-- The table of line starts is in increasing order. -/
theorem pairwise_lineStarts (text : Text) : (lineStarts text).Pairwise (· < ·) := by
  have later : ∀ offset, (lineStartsFrom offset text).Pairwise (· < ·) := by
    induction text with
    | nil => exact fun _ => List.Pairwise.nil
    | cons char rest ih =>
      intro offset
      rw [lineStartsFrom]
      split
      · exact List.pairwise_cons.mpr ⟨fun _ member => lt_of_mem_lineStartsFrom member, ih _⟩
      · exact ih _
  exact List.pairwise_cons.mpr ⟨fun _ member => lt_of_mem_lineStartsFrom member, later 0⟩

/-- A line starts at a boundary. -/
theorem isBoundary_of_mem_lineStarts {text : Text} {start : Nat} (member : start ∈ lineStarts text) :
    text.isBoundary start = true := by
  have split : ∀ (text : Text) (offset : Nat), start ∈ lineStartsFrom offset text →
      ∃ before after, text = before ++ after ∧ offset + before.size = start := by
    intro text
    induction text with
    | nil => exact fun _ absent => absurd absent List.not_mem_nil
    | cons char rest ih =>
      intro offset among
      have next : (offset + char.utf8Size = start) ∨
          start ∈ lineStartsFrom (offset + char.utf8Size) rest := by
        rw [lineStartsFrom] at among
        split at among
        · exact (List.mem_cons.mp among).imp_left Eq.symm
        · exact Or.inr among
      rcases next with here | later
      · exact ⟨[char], rest, rfl, here⟩
      · obtain ⟨before, after, rfl, place⟩ := ih _ later
        exact ⟨char :: before, after, rfl, by rw [Text.size_cons, ← Nat.add_assoc, place]⟩
  rw [Text.isBoundary_iff]
  rcases List.mem_cons.mp member with rfl | later
  · exact ⟨[], text, rfl, rfl⟩
  · obtain ⟨before, after, whole, place⟩ := split text 0 later
    exact ⟨before, after, whole, by rw [← place, Nat.zero_add]⟩

/-- A list in increasing order, split after the last number that an offset reaches. -/
theorem exists_split_of_pairwise {first offset : Nat} {rest : List Nat}
    (sorted : (first :: rest).Pairwise (· < ·)) (reached : first ≤ offset) :
    ∃ before start after, first :: rest = before ++ start :: after ∧
      (∀ other ∈ before, other < start) ∧ start ≤ offset ∧ ∀ other ∈ after, offset < other := by
  induction rest generalizing first with
  | nil => exact ⟨[], first, [], rfl, nofun, reached, nofun⟩
  | cons second rest ih =>
    obtain ⟨least, more⟩ := List.pairwise_cons.mp sorted
    by_cases further : second ≤ offset
    · obtain ⟨before, start, after, split, earlier, stops, later⟩ := ih more further
      have among : start ∈ second :: rest := split ▸ List.mem_append_right _ List.mem_cons_self
      exact ⟨first :: before, start, after, by rw [split, List.cons_append],
        List.forall_mem_cons.mpr ⟨least start among, earlier⟩, stops, later⟩
    · refine ⟨[], first, second :: rest, rfl, nofun, reached, fun other member => ?_⟩
      rcases List.mem_cons.mp member with rfl | behind
      · omega
      · have := (List.pairwise_cons.mp more).1 other behind
        omega

/-! ### Positions and locations -/

/-- The position of an offset, found on bytes. -/
def Position.ofOffset? (text : Text) (offset : Nat) : Option Position := do
  let offset ← text.floor? offset
  let line ← lineOf? (lineStarts text) offset
  let start ← (lineStarts text)[line]?
  let lead ← text.slice? start offset
  return ⟨line + 1, lead.length + 1⟩

theorem Position.ofOffset?_eq (text : Text) (offset : Nat) :
    Position.ofOffset? text offset = some (Position.ofOffset text offset) := by
  obtain ⟨before, start, after, split, earlier, reached, later⟩ :=
    exists_split_of_pairwise (pairwise_lineStarts text) (Nat.zero_le (text.cut offset).1.size)
  rw [← lineStarts] at split
  have line := lineOf?_append earlier reached later
  have entry : (before ++ start :: after)[before.length]? = some start := by simp
  have passed : (lineStarts text).filter (· ≤ (text.cut offset).1.size) = before ++ [start] := by
    have kept : ∀ other ∈ before, decide (other ≤ (text.cut offset).1.size) = true :=
      fun other member => decide_eq_true (Nat.le_trans (Nat.le_of_lt (earlier other member)) reached)
    have dropped : ∀ other ∈ after, ¬ decide (other ≤ (text.cut offset).1.size) = true :=
      fun other member within => Nat.not_lt.mpr (of_decide_eq_true within) (later other member)
    rw [split, List.filter_append, List.filter_eq_self.mpr kept,
      List.filter_cons_of_pos (by simpa using reached), List.filter_eq_nil_iff.mpr dropped]
  have column : text.slice? start (text.cut offset).1.size =
      some ((text.cut offset).1.cut start).2 := by
    have starts : text.isBoundary start = true := isBoundary_of_mem_lineStarts
      (split ▸ List.mem_append_right _ List.mem_cons_self)
    have stops : text.isBoundary (text.cut offset).1.size = true :=
      Text.isBoundary_iff.mpr ⟨_, _, (Text.cut_append text offset).symm, rfl⟩
    rw [Text.slice?, if_pos ⟨reached, starts, stops⟩, Text.cut_cut_size]
  have place : Position.ofOffset text offset =
      ⟨before.length + 1, ((text.cut offset).1.cut start).2.length + 1⟩ := by
    rw [Position.ofOffset, passed, List.getLastD_concat, List.length_append, List.length_singleton]
  rw [Position.ofOffset?, Text.floor?_eq, split, Option.bind_eq_bind, Option.bind_some, place]
  simp only [line, entry, column, Option.bind_eq_bind, Option.bind_some]
  rfl

/-- The location of an offset, found on bytes. -/
def Location.ofOffset? (text : Text) (offset : Nat) : Option Location := do
  let offset ← text.floor? offset
  let position ← Position.ofOffset? text offset
  let before ← text.upTo? offset
  let after ← text.from? offset
  return {
    offset
    row := position.row
    column := position.column
    leading := before.drop (before.length - leadingWidth)
    trailing := after.take trailingWidth }

/-- **A location is found** for every offset, inside a character and past the end too. -/
theorem Location.ofOffset?_eq (text : Text) (offset : Nat) :
    Location.ofOffset? text offset = some (Location.ofOffset text offset) := by
  have before := Text.upTo?_append (text.cut offset).1 (text.cut offset).2
  have after := Text.from?_append (text.cut offset).1 (text.cut offset).2
  rw [Text.cut_append] at before after
  have same : Position.ofOffset text (text.cut offset).1.size = Position.ofOffset text offset := by
    rw [Position.ofOffset, Position.ofOffset, Text.cut_cut_size]
  simp only [Location.ofOffset?, Text.floor?_eq, Position.ofOffset?_eq, before, after,
    Option.bind_eq_bind, Option.bind_some, same]
  rfl

/-- The fault that a defect of a source is, located on bytes. -/
def Defect.locate? (source : Text) (defect : Defect) : Option Fault := do
  let location ← Location.ofOffset? source defect.offset
  return ⟨defect.cause, location⟩

theorem Defect.locate?_eq (source : Text) (defect : Defect) :
    defect.locate? source = some (defect.locate source) := by
  rw [Defect.locate?, Location.ofOffset?_eq]
  rfl

end Scaffold
