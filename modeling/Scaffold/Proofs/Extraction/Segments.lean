/-
**Splitting arguments, and putting them together.**

The segments of a text are all of it but the commas between them, so each of them stands behind the
segments before it and their commas (`join_append_cons`), and its argument has that offset
(`getElem?_placed`). A comma behind a closed text separates, whatever follows it: the closed text is
the first argument, and what follows the comma is split as if it stood alone
(`arguments_append_closed`).
-/

import Scaffold.Proofs.Extraction.Closed
import Scaffold.Proofs.Text.Trimming

namespace Scaffold

namespace Text

/-- Texts with a comma behind each of them. -/
def withCommas (parts : List Text) : Text := parts.flatMap (· ++ [','])

theorem join_cons (part : Text) (after : List Text) :
    join [','] (part :: after) = part ++ after.flatMap (',' :: ·) := by
  induction after generalizing part with
  | nil =>
    rw [join, List.intercalate_singleton]
    exact (List.append_nil part).symm
  | cons next after ih =>
    have later : [','].intercalate (next :: after) = _ := ih next
    rw [join, List.intercalate_cons_cons, later, List.append_assoc]
    rfl

/-- **A part stands behind the parts before it**, each of them with its comma. -/
theorem join_append_cons (before : List Text) (part : Text) (after : List Text) :
    join [','] (before ++ part :: after) =
      withCommas before ++ (part ++ after.flatMap (',' :: ·)) := by
  induction before with
  | nil => exact join_cons part after
  | cons first before ih =>
    obtain ⟨next, others, more⟩ : ∃ next others, before ++ part :: after = next :: others := by
      cases before with
      | nil => exact ⟨part, after, rfl⟩
      | cons next before => exact ⟨next, before ++ part :: after, rfl⟩
    rw [more, join] at ih
    rw [List.cons_append, more, join, List.intercalate_cons_cons, ih, withCommas, withCommas,
      List.flatMap_cons, List.append_assoc, List.append_assoc, List.append_assoc]

theorem isPlain_of_isBlank {char : Char} (blank : isBlank char = true) : IsPlain char := by
  intro member
  simp only [List.mem_cons, List.not_mem_nil, or_false] at member
  rcases member with rfl | rfl | rfl | rfl | rfl | rfl | rfl | rfl | rfl | rfl | rfl <;>
    exact absurd blank (by decide)

end Text

namespace Excerpt

/-! ### Segments in their places -/

theorem length_placed (offset : Nat) (segments : List Text) :
    (placed offset segments).length = segments.length := by
  induction segments generalizing offset with
  | nil => rfl
  | cons segment rest ih => exact congrArg (· + 1) (ih _)

/-- **A segment's argument** is trimmed, and is where the segments before it end with their
commas. -/
theorem getElem?_placed (offset : Nat) (before : List Text) (segment : Text) (after : List Text) :
    (placed offset (before ++ segment :: after))[before.length]? =
      some ⟨segment.trim, offset + (Text.withCommas before).size⟩ := by
  induction before generalizing offset with
  | nil => rfl
  | cons first before ih =>
    have further : (Text.withCommas (first :: before)).size =
        first.size + 1 + (Text.withCommas before).size := by
      show Text.size ((first ++ [',']) ++ Text.withCommas before) = _
      rw [Text.size_append, Text.size_append]
      rfl
    rw [further, ← Nat.add_assoc, ← Nat.add_assoc]
    exact ih (offset + first.size + 1)

/-! ### Blank texts -/

theorem arguments_of_blank {inner : Excerpt} (blank : inner.text.all Text.isBlank = true) :
    arguments inner = [] := by
  unfold arguments
  rw [if_pos (Text.trim_eq_nil_iff.mpr (List.all_eq_true.mp blank))]

theorem arguments_of_not_blank {inner : Excerpt} (filled : ¬ inner.text.all Text.isBlank = true) :
    arguments inner = placed inner.offset (segments inner.text) := by
  have trimmed : ¬ inner.text.trim = [] := fun none =>
    filled (List.all_eq_true.mpr (Text.trim_eq_nil_iff.mp none))
  unfold arguments
  rw [if_neg trimmed]

/-- A blank text is closed, so it is one segment. -/
theorem segments_of_blank {text : Text} (blank : text.all Text.isBlank = true) :
    segments text = [text] := by
  have closed : Text.Closed false text := Text.Closed.of_forall <|
    List.forall_iff_forall_mem.mpr fun char member =>
      Text.isPlain_of_isBlank (List.all_eq_true.mp blank char member)
  exact segments_of_passes (Enclosure.passes_closed 0 0 closed nofun)

/-! ### Arguments one by one -/

/-- **A closed text before a comma is the first argument**, and the others are those of what
follows, where it stands; a blank one counts as one argument. -/
theorem arguments_append_closed {first : Text} (closed : Text.Closed false first) (rest : Text)
    (base : Nat) :
    arguments ⟨first ++ ',' :: rest, base⟩ = ⟨first.trim, base⟩ ::
      if rest.all Text.isBlank then [⟨[], base + first.size + 1⟩]
      else arguments ⟨rest, base + first.size + 1⟩ := by
  have filled : ¬ (first ++ ',' :: rest).all Text.isBlank = true := fun blank =>
    absurd (List.all_eq_true.mp blank ',' (List.mem_append_right _ List.mem_cons_self)) (by decide)
  have separated := segments_append (Enclosure.passes_closed 0 0 closed nofun) rest
  rw [arguments_of_not_blank filled]
  dsimp only
  rw [separated, placed]
  by_cases blank : rest.all Text.isBlank = true
  · have nothing := Text.trim_eq_nil_iff.mpr (List.all_eq_true.mp blank)
    rw [if_pos blank, segments_of_blank blank, placed, placed, nothing]
  · rw [if_neg blank, arguments_of_not_blank blank]

/-- **Splitting loses nothing, and one argument is split off after the other.** A blank text has no
arguments. Any other one is its segments with commas between them, and has an argument for each of
them: trimmed, at the offset of the segment. A closed text before a comma is the first argument,
whatever follows the comma, and that is split as if it stood alone. -/
theorem arguments_segmented :
    (∀ inner : Excerpt, inner.text.all Text.isBlank = true → arguments inner = []) ∧
      (∀ inner : Excerpt, ¬ inner.text.all Text.isBlank = true →
        ∃ segments, Text.join [','] segments = inner.text ∧
          (arguments inner).length = segments.length ∧
          ∀ before segment after, segments = before ++ segment :: after →
            (∃ trail, inner.text = Text.withCommas before ++ (segment ++ trail)) ∧
            (arguments inner)[before.length]? =
              some ⟨segment.trim, inner.offset + (Text.withCommas before).size⟩) ∧
      ∀ first rest base, Text.Closed false first →
        arguments ⟨first ++ ',' :: rest, base⟩ = ⟨first.trim, base⟩ ::
          if rest.all Text.isBlank then [⟨[], base + first.size + 1⟩]
          else arguments ⟨rest, base + first.size + 1⟩ := by
  refine ⟨fun inner => arguments_of_blank, fun inner filled => ?_, fun first rest base closed =>
    arguments_append_closed closed rest base⟩
  have whole := segments_join inner.text
  have listed := arguments_of_not_blank filled
  refine ⟨segments inner.text, whole, ?_, fun before segment after split => ?_⟩
  · rw [listed, length_placed]
  · rw [split, Text.join_append_cons] at whole
    rw [listed, split, getElem?_placed]
    exact ⟨⟨_, whole.symm⟩, rfl⟩

/-- A closed first argument with a character of two bytes, commas in brackets, and a quote and a
comma in a literal. Behind the comma after it nothing is closed, or nothing is left. -/
theorem arguments_segmented_open :
    let first : Text := " m<é, (\"\\\",\", b)>".toList
    let rest : Text := ">), f(1, \", g".toList
    Text.Closed false first ∧
      arguments ⟨first ++ ',' :: rest, 100⟩ =
        ⟨"m<é, (\"\\\",\", b)>".toList, 100⟩ :: arguments ⟨rest, 119⟩ ∧
      arguments ⟨rest, 119⟩ = [⟨">)".toList, 119⟩, ⟨"f(1, \", g".toList, 122⟩] ∧
      (∃ segments, Text.join [','] segments = rest ∧ segments.length = 2) ∧
      arguments ⟨first ++ [',', ' '], 100⟩ = [⟨first.trim, 100⟩, ⟨[], 119⟩] ∧
      arguments ⟨[' '], 119⟩ = [] := by
  intro first rest
  have closed : Text.Closed false first :=
    .plain (by decide) (.plain (by decide) (.group .angle (.plain (by decide) (.comma
      (.plain (by decide) (.group .parentheses (.literal (Or.inl rfl)
        (.escaped _ (.char (by decide) (by decide) .ended))
        (.comma (.of_forall (by decide : " b".toList.Forall Text.IsPlain)))) (.nil true)))))
      (.nil false)))
  have split := arguments_segmented.2.2 first rest 100 closed
  have alone := arguments_segmented.2.2 first [' '] 100 closed
  have filled : ¬ rest.all Text.isBlank = true := by decide
  rw [if_neg filled] at split
  rw [if_pos (by decide)] at alone
  obtain ⟨segments, joined, counted, -⟩ := arguments_segmented.2.1 ⟨rest, 119⟩ filled
  refine ⟨closed, split, by decide +kernel, ⟨segments, joined, ?_⟩, alone,
    arguments_segmented.1 ⟨[' '], 119⟩ (by decide)⟩
  rw [← counted]
  decide +kernel

end Excerpt

end Scaffold
