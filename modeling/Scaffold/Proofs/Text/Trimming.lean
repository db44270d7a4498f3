/-
**What is taken off the ends of a text.**

A text without its longest end of some characters is what stands before that end and does not end
with such a character itself (`dropEndWhile_eq_iff`). Trimming does not see blanks around a text
(`trim_append`), trimming again changes nothing (`trim_trim`), and nothing is left of a text exactly
if all of it is blank (`trim_eq_nil_iff`).
-/

import Mathlib.Data.List.DropRight
import Scaffold.Text.Basic

namespace Scaffold.Text

variable {drop : Char → Bool} {text kept trail : Text}

/-- What is dropped at the end of a text, where the text before it ends with something else. -/
theorem dropEndWhile_append (dropped : ∀ char ∈ trail, drop char = true)
    (stays : ∀ char ∈ kept.getLast?, drop char = false) :
    dropEndWhile drop (kept ++ trail) = kept := by
  have whole : kept.rdropWhile drop = kept := List.rdropWhile_eq_self_iff.mpr fun filled => by
    rw [stays _ (List.getLast?_eq_some_getLast filled)]
    exact Bool.false_ne_true
  rw [dropEndWhile, List.reverse_append, List.dropWhile_append_of_pos (by simpa using dropped)]
  exact whole

theorem dropEndWhile_append_of_dropped (dropped : ∀ char ∈ trail, drop char = true) (text : Text) :
    dropEndWhile drop (text ++ trail) = dropEndWhile drop text := by
  rw [dropEndWhile, List.reverse_append, List.dropWhile_append_of_pos (by simpa using dropped),
    dropEndWhile]

/-- The kept part and the dropped one are the text, and neither could be longer. -/
theorem dropEndWhile_eq_iff :
    dropEndWhile drop text = kept ↔ ∃ trail, text = kept ++ trail ∧
      (∀ char ∈ trail, drop char = true) ∧ ∀ char ∈ kept.getLast?, drop char = false := by
  constructor
  · rintro rfl
    refine ⟨text.rtakeWhile drop, List.rdropWhile_append_rtakeWhile.symm,
      fun char member => ?_, fun char last => ?_⟩
    · rw [List.rtakeWhile, List.mem_reverse] at member
      exact List.mem_takeWhile_imp member
    · obtain ⟨filled, rfl⟩ := List.mem_getLast?_eq_getLast last
      exact Bool.eq_false_iff.mpr (List.rdropWhile_last_not drop text filled)
  · rintro ⟨trail, rfl, dropped, stays⟩
    exact dropEndWhile_append dropped stays

/-- Blanks around a text are trimmed with it. -/
theorem trim_append {lead : Text} (blankLead : ∀ char ∈ lead, isBlank char = true)
    (blankTrail : ∀ char ∈ trail, isBlank char = true) (text : Text) :
    trim (lead ++ text ++ trail) = trim text := by
  have start : trimStart (lead ++ (text ++ trail)) = trimStart (text ++ trail) :=
    List.dropWhile_append_of_pos blankLead
  rw [trim, trim, List.append_assoc, start, trimStart, trimStart, List.dropWhile_append]
  cases left : text.dropWhile isBlank with
  | nil =>
    have nothing : trail.dropWhile isBlank = [] := List.dropWhile_eq_nil_iff.mpr blankTrail
    rw [List.isEmpty_nil, if_pos rfl, nothing]
  | cons char rest =>
    rw [List.isEmpty_cons, if_neg Bool.false_ne_true]
    exact dropEndWhile_append_of_dropped blankTrail _

theorem trim_trimStart (text : Text) : trim (trimStart text) = trim text :=
  congrArg trimEnd (List.dropWhile_idempotent isBlank text)

/-- What is trimmed has no more blanks at its ends. -/
theorem trim_trim (text : Text) : trim (trim text) = trim text := by
  have blank : ∀ char ∈ (text.trimStart.reverse.takeWhile isBlank).reverse, isBlank char = true :=
    fun char member => List.mem_takeWhile_imp (List.mem_reverse.mp member)
  have whole := trim_append (List.forall_mem_nil _) blank (trimEnd text.trimStart)
  rw [List.nil_append, trimEnd_append, trim_trimStart] at whole
  exact whole.symm

/-- Blanks at the end do not change how a text starts without blanks. -/
theorem head?_trimStart_append (blank : ∀ char ∈ trail, isBlank char = true) :
    (trimStart (text ++ trail)).head? = (trimStart text).head? := by
  rw [trimStart, trimStart, List.dropWhile_append]
  cases text.dropWhile isBlank with
  | nil => rw [List.isEmpty_nil, if_pos rfl, List.dropWhile_eq_nil_iff.mpr blank]
  | cons char rest => rfl

/-- **Nothing is left** of a text exactly if it is blank. -/
theorem trim_eq_nil_iff : trim text = [] ↔ ∀ char ∈ text, isBlank char = true := by
  rw [trim, trimEnd, dropEndWhile, List.reverse_eq_nil_iff, List.dropWhile_eq_nil_iff]
  constructor
  · intro blank char member
    rw [← trimStart_append text, List.mem_append] at member
    rcases member with dropped | kept
    · exact List.mem_takeWhile_imp dropped
    · exact blank char (List.mem_reverse.mpr kept)
  · intro blank char member
    exact blank char ((List.dropWhile_sublist _).subset (List.mem_reverse.mp member))

end Scaffold.Text
