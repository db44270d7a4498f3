/-
**The lines of a text that is put together from parts.**

A text is closed if its last line is complete: it is empty or ends with a line feed. Parts put
together keep their lines exactly as far as nothing is added to an incomplete line:

* `lines_append`: the lines of a closed text and what follows are the lines of both;
* `lined_append`: a list of rows is the lines of a text if and only if both halves are, and the
  first half is closed or the second one is empty;
* `lined_iff`: rows are the lines of a text if each is a line and only the last one is incomplete;
* `sealed_append`: two halves of rows that may have something after them (`Sealed`);
* `lines_closeLine`: completing a text changes its last line and nothing else.
-/

import Scaffold.Text.Basic

namespace Scaffold.Text

/-! ### Closed texts -/

/-- Every line of the text is complete. -/
def IsClosed (text : Text) : Prop := text = [] ∨ text.getLast? = some '\n'

instance (text : Text) : Decidable (IsClosed text) := inferInstanceAs (Decidable (_ ∨ _))

theorem isClosed_nil : IsClosed [] := Or.inl rfl

theorem IsClosed.append {first second : Text} (closedFirst : IsClosed first)
    (closedSecond : IsClosed second) : IsClosed (first ++ second) := by
  rcases closedSecond with rfl | last
  · rw [List.append_nil]
    exact closedFirst
  · exact Or.inr (by rw [List.getLast?_append, last]; rfl)

/-- What a closed text ends with is closed. -/
theorem IsClosed.of_append {first second : Text} (closed : IsClosed (first ++ second)) :
    IsClosed second := by
  rcases closed with none | last
  · exact Or.inl (List.append_eq_nil_iff.mp none).2
  · cases found : second.getLast? with
    | none => exact Or.inl (List.getLast?_eq_none_iff.mp found)
    | some char =>
      rw [List.getLast?_append, found] at last
      exact Or.inr (found.trans last)

theorem IsClosed.tail {char : Char} {rest : Text} (closed : IsClosed (char :: rest)) :
    IsClosed rest :=
  IsClosed.of_append (show IsClosed ([char] ++ rest) from closed)

theorem IsClosed.cons {char : Char} {rest : Text} (closed : IsClosed rest) (filled : rest ≠ []) :
    IsClosed (char :: rest) := by
  rcases closed with none | last
  · exact absurd none filled
  · exact Or.inr (by rw [List.getLast?_cons, last]; rfl)

/-! ### Lines of a text -/

theorem lines_newline (rest : Text) : lines ('\n' :: rest) = ['\n'] :: lines rest := by
  simp [lines]

/-- The first line of a text takes up a character that ends no line. -/
theorem lines_cons {char : Char} (ordinary : char ≠ '\n') (rest : Text) :
    lines (char :: rest) = (char :: (lines rest).headD []) :: (lines rest).tail := by
  rw [lines, if_neg ordinary]
  cases lines rest <;> rfl

theorem lines_eq_nil {text : Text} : lines text = [] ↔ text = [] := by
  constructor
  · intro none
    rw [← lines_flatten text, none]
    rfl
  · rintro rfl
    rfl

/-- **A closed text does not share a line with what follows it.** -/
theorem lines_append {first : Text} (closed : IsClosed first) (second : Text) :
    lines (first ++ second) = lines first ++ lines second := by
  induction first with
  | nil => rfl
  | cons char rest ih =>
    have later := ih closed.tail
    by_cases newline : char = '\n'
    · subst newline
      rw [List.cons_append, lines_newline, lines_newline, later]
      rfl
    · have filled : lines rest ≠ [] := by
        intro none
        rw [lines_eq_nil.mp none] at closed
        rcases closed with absent | last
        · exact absurd absent (List.cons_ne_nil _ _)
        · exact newline (Option.some.inj last)
      obtain ⟨line, more, split⟩ := List.exists_cons_of_ne_nil filled
      rw [List.cons_append, lines_cons newline, lines_cons newline, later, split]
      rfl

/-! ### Rows that are the lines of a text -/

/-- A text is one line, with its line feed or without. -/
def IsLine (line : Text) : Prop := lines line = [line]

instance (line : Text) : Decidable (IsLine line) := inferInstanceAs (Decidable (_ = _))

theorem IsLine.ne_nil {line : Text} (isLine : IsLine line) : line ≠ [] := by
  rintro rfl
  exact absurd isLine (by decide)

/-- A line is a text with a line feed nowhere but at its end. -/
theorem isLine_iff {line : Text} : IsLine line ↔ line ≠ [] ∧ '\n' ∉ line.dropLast := by
  induction line with
  | nil => exact iff_of_false (by decide) fun both => both.1 rfl
  | cons char rest ih =>
    rw [IsLine]
    by_cases newline : char = '\n'
    · subst newline
      rw [lines_newline]
      cases rest with
      | nil => simp [lines]
      | cons second later => simp
    · rw [lines_cons newline]
      cases rest with
      | nil => simp [lines]
      | cons second later =>
        rw [List.dropLast_cons_cons, List.mem_cons, not_or]
        have inside : (lines (second :: later)).headD [] = second :: later ∧
            (lines (second :: later)).tail = [] ↔ IsLine (second :: later) := by
          rw [IsLine]
          cases lines (second :: later) <;> simp
        rw [List.cons.injEq, List.cons.injEq, and_iff_right rfl, inside, ih]
        simp [Ne.symm newline]

theorem isLine_append_newline {text : Text} (absent : '\n' ∉ text) : IsLine (text ++ ['\n']) :=
  isLine_iff.mpr ⟨by simp, by rwa [List.dropLast_concat]⟩

/-- The rows are the lines of the text that they make up. -/
def Lined (rows : List Text) : Prop := lines rows.flatten = rows

theorem lined_nil : Lined [] := rfl

theorem lined_lines (text : Text) : Lined (lines text) := congrArg lines (lines_flatten text)

theorem lined_singleton {line : Text} : Lined [line] ↔ IsLine line := by
  rw [Lined, List.flatten_singleton, IsLine]

/-- A first line and the lines after it. -/
theorem lines_eq_cons {text line : Text} {rest : List Text} (split : lines text = line :: rest) :
    IsLine line ∧ Lined rest ∧ (IsClosed line ∨ rest = []) := by
  induction text generalizing line rest with
  | nil => cases split
  | cons char after ih =>
    by_cases newline : char = '\n'
    · subst newline
      rw [lines_newline] at split
      cases split
      exact ⟨by decide, lined_lines after, Or.inl (by decide)⟩
    · rw [lines_cons newline] at split
      cases found : lines after with
      | nil =>
        rw [found] at split
        cases split
        refine ⟨?_, lined_nil, Or.inr rfl⟩
        rw [IsLine, List.headD_nil, lines_cons newline]
        rfl
      | cons first later =>
        rw [found] at split
        cases split
        obtain ⟨isLine, lined, closed⟩ := ih found
        refine ⟨?_, lined, closed.imp_left fun closed => closed.cons isLine.ne_nil⟩
        rw [List.headD_cons, IsLine, lines_cons newline, isLine]
        rfl

/-- Rows that are lines after a first one. -/
theorem lined_cons {line : Text} {rest : List Text} :
    Lined (line :: rest) ↔ IsLine line ∧ Lined rest ∧ (IsClosed line ∨ rest = []) := by
  constructor
  · intro lined
    exact lines_eq_cons lined
  · rintro ⟨isLine, lined, closed | rfl⟩
    · rw [Lined, List.flatten_cons, lines_append closed, isLine, lined]
      rfl
    · exact lined_singleton.mpr isLine

/-- **Two halves of rows** are the lines of a text if each is, and no line is shared. -/
theorem lined_append {first second : List Text} :
    Lined (first ++ second) ↔
      Lined first ∧ Lined second ∧ (IsClosed first.flatten ∨ second = []) := by
  induction first with
  | nil =>
    rw [List.nil_append, List.flatten_nil]
    exact ⟨fun lined => ⟨lined_nil, lined, Or.inl isClosed_nil⟩, fun both => both.2.1⟩
  | cons line rest ih =>
    rw [List.cons_append, lined_cons, lined_cons, ih, List.flatten_cons, List.append_eq_nil_iff]
    constructor
    · rintro ⟨isLine, ⟨linedRest, lined, closedRest⟩, closed⟩
      refine ⟨⟨isLine, linedRest, closed.imp_right And.left⟩, lined, ?_⟩
      rcases closed with closed | none
      · exact closedRest.imp_left closed.append
      · exact Or.inr none.2
    · rintro ⟨⟨isLine, linedRest, closed⟩, lined, closedBoth⟩
      refine ⟨isLine, ⟨linedRest, lined, closedBoth.imp_left IsClosed.of_append⟩, ?_⟩
      rcases closed with closed | rfl
      · exact Or.inl closed
      · rw [List.flatten_nil, List.append_nil] at closedBoth
        exact closedBoth.imp_right fun none => ⟨rfl, none⟩

/-- **Rows are the lines of a text** if each is a line, and all but the last one are complete. -/
theorem lined_iff {rows : List Text} :
    Lined rows ↔ (∀ row ∈ rows, IsLine row) ∧ ∀ row ∈ rows.dropLast, row.getLast? = some '\n' := by
  induction rows with
  | nil => exact ⟨fun _ => ⟨nofun, nofun⟩, fun _ => lined_nil⟩
  | cons line rest ih =>
    rw [lined_cons, ih, List.forall_mem_cons]
    cases rest with
    | nil => simp
    | cons second later =>
      have split : (∀ row ∈ (line :: second :: later).dropLast, row.getLast? = some '\n') ↔
          line.getLast? = some '\n' ∧
            ∀ row ∈ (second :: later).dropLast, row.getLast? = some '\n' := by
        rw [List.dropLast_cons_cons, List.forall_mem_cons]
      rw [split]
      constructor
      · rintro ⟨isLine, ⟨lines, complete⟩, closed⟩
        have ended := (closed.resolve_right (List.cons_ne_nil _ _)).resolve_left isLine.ne_nil
        exact ⟨⟨isLine, lines⟩, ended, complete⟩
      · rintro ⟨⟨isLine, lines⟩, ended, complete⟩
        exact ⟨isLine, ⟨lines, complete⟩, Or.inl (Or.inr ended)⟩

theorem isLine_of_lines {text line : Text} {before after : List Text}
    (split : text.lines = before ++ line :: after) : IsLine line := by
  refine (lined_iff.mp (lined_lines text)).1 line ?_
  rw [split]
  exact List.mem_append_right _ List.mem_cons_self

/-- A line of a text is complete, or it is the last one. -/
theorem getLast?_of_mem_lines {text line : Text} (member : line ∈ text.lines) :
    line.getLast? = some '\n' ∨ line.getLast? = text.getLast? := by
  obtain ⟨rows, last, split⟩ :=
    (List.eq_nil_or_concat text.lines).resolve_left (List.ne_nil_of_mem member)
  rw [List.concat_eq_append] at split
  obtain ⟨areLines, complete⟩ := lined_iff.mp (lined_lines text)
  rw [split] at member areLines complete
  rw [List.dropLast_concat] at complete
  rcases List.mem_append.mp member with early | final
  · exact Or.inl (complete line early)
  · have filled : last ≠ [] := (areLines last (List.mem_append_right _ List.mem_cons_self)).ne_nil
    rw [List.mem_singleton.mp final]
    refine Or.inr ?_
    rw [← lines_flatten text, split, List.flatten_append, List.flatten_singleton,
      List.getLast?_append, List.getLast?_eq_some_getLast filled, Option.some_or]

/-! ### Completing a text -/

theorem closeLine_eq_self {text : Text} (closed : IsClosed text) : text.closeLine = text :=
  if_pos closed

theorem closeLine_eq_append {text : Text} (incomplete : ¬ IsClosed text) :
    text.closeLine = text ++ ['\n'] :=
  if_neg incomplete

theorem isClosed_closeLine (text : Text) : IsClosed text.closeLine := by
  rw [closeLine]
  split
  · assumption
  · exact Or.inr (by simp)

/-- **Completing a text** that is not closed completes its last line. -/
theorem lines_closeLine {text : Text} (incomplete : ¬ IsClosed text) :
    ∃ rows last, text.lines = rows ++ [last] ∧ '\n' ∉ last ∧
      text.closeLine.lines = rows ++ [last ++ ['\n']] := by
  have filled : text.lines ≠ [] := fun none => incomplete (Or.inl (lines_eq_nil.mp none))
  obtain ⟨rows, last, split⟩ := (List.eq_nil_or_concat text.lines).resolve_left filled
  rw [List.concat_eq_append] at split
  have lined := lined_lines text
  rw [split, lined_append, lined_singleton] at lined
  obtain ⟨linedRows, isLine, seam⟩ := lined
  have closed := seam.resolve_right (List.cons_ne_nil _ _)
  have whole : text = rows.flatten ++ last := by
    rw [← lines_flatten text, split, List.flatten_append, List.flatten_singleton]
  have absent : '\n' ∉ last := by
    intro member
    obtain ⟨filledLast, inside⟩ := isLine_iff.mp isLine
    rw [← List.dropLast_concat_getLast filledLast] at member
    rcases List.mem_append.mp member with early | final
    · exact inside early
    · refine incomplete (whole ▸ closed.append (Or.inr ?_))
      rw [List.getLast?_eq_some_getLast filledLast, List.mem_singleton.mp final]
  refine ⟨rows, last, split, absent, ?_⟩
  rw [closeLine_eq_append incomplete, whole, List.append_assoc, lines_append closed, linedRows,
    isLine_append_newline absent]

/-! ### Rows with something after them -/

/-- The rows are the lines of the text that they make up; if something stands after them, the last
one is complete too. -/
def Sealed (followed : Prop) (rows : List Text) : Prop :=
  Lined rows ∧ (followed → IsClosed rows.flatten)

theorem Sealed.mono {followed less : Prop} {rows : List Text} (isSealed : Sealed followed rows)
    (weaker : less → followed) : Sealed less rows :=
  ⟨isSealed.1, fun holds => isSealed.2 (weaker holds)⟩

theorem sealed_nil (followed : Prop) : Sealed followed [] := ⟨lined_nil, fun _ => isClosed_nil⟩

theorem sealed_lines {followed : Prop} {text : Text} :
    Sealed followed (lines text) ↔ (followed → IsClosed text) := by
  rw [Sealed, lines_flatten]
  exact and_iff_right (lined_lines text)

theorem sealed_singleton {followed : Prop} {line : Text} (isLine : IsLine line) :
    Sealed followed [line] ↔ (followed → IsClosed line) := by
  rw [← isLine, sealed_lines]

/-- **Two halves of rows** are sealed if each is, where the second half follows the first one. -/
theorem sealed_append {followed : Prop} {first second : List Text} :
    Sealed followed (first ++ second) ↔
      Sealed (followed ∨ second ≠ []) first ∧ Sealed followed second := by
  rw [Sealed, Sealed, Sealed, lined_append, List.flatten_append]
  constructor
  · rintro ⟨⟨linedFirst, linedSecond, seam⟩, closed⟩
    refine ⟨⟨linedFirst, ?_⟩, linedSecond, fun holds => (closed holds).of_append⟩
    rintro (holds | filled)
    · rcases seam with closedFirst | rfl
      · exact closedFirst
      · have whole := closed holds
        rw [List.flatten_nil, List.append_nil] at whole
        exact whole
    · exact seam.resolve_right filled
  · rintro ⟨⟨linedFirst, closedFirst⟩, linedSecond, closedSecond⟩
    refine ⟨⟨linedFirst, linedSecond, ?_⟩, fun holds => ?_⟩
    · by_cases none : second = []
      · exact Or.inr none
      · exact Or.inl (closedFirst (Or.inr none))
    · exact (closedFirst (Or.inl holds)).append (closedSecond holds)

end Scaffold.Text
