/-
**Replacing spans of a text.**

An edit names a span of a text by its byte offsets and says what is to stand there. Several edits
are carried out in one pass from left to right (`splice`): the text up to the next span is kept, the
span is left out and its replacement written. Where the spans follow one another (`Ordered`), such a
pass goes through a text part by part:

* `spliceFrom_skip`: a part before the first span is kept;
* `spliceFrom_edit`: a part that is the first span is replaced.
-/

import Scaffold.Text.Basic

namespace Scaffold.Text

/-- A span of a text, from one byte offset up to another, and what is to stand in its place. -/
structure Edit where
  start : Nat
  stop : Nat
  replacement : Text
  deriving DecidableEq, Repr

/-- What a text becomes from byte `offset` on, where `rest` is left of it. -/
def spliceFrom (offset : Nat) : List Edit → (rest : Text) → Text
  | [], rest => rest
  | edit :: later, rest =>
    let before := cut rest (edit.start - offset)
    let after := cut before.2 (edit.stop - edit.start)
    before.1 ++ edit.replacement ++ spliceFrom edit.stop later after.2

/-- The text with the spans of the edits replaced, in order. -/
def splice (text : Text) (edits : List Edit) : Text := spliceFrom 0 edits text

/-- The spans of the edits lie between two offsets, each after the one before it. -/
def Ordered : (start : Nat) → List Edit → (stop : Nat) → Prop
  | start, [], stop => start ≤ stop
  | start, edit :: later, stop =>
    start ≤ edit.start ∧ edit.start ≤ edit.stop ∧ Ordered edit.stop later stop

theorem Ordered.mono {start less stop : Nat} {edits : List Edit} (ordered : Ordered start edits stop)
    (before : less ≤ start) : Ordered less edits stop := by
  cases edits with
  | nil => exact Nat.le_trans before ordered
  | cons edit later => exact ⟨Nat.le_trans before ordered.1, ordered.2⟩

/-- A cut behind a leading part keeps that part. -/
theorem cut_append_of_le {lead : Text} {offset : Nat} (behind : lead.size ≤ offset) (rest : Text) :
    cut (lead ++ rest) offset =
      (lead ++ (cut rest (offset - lead.size)).1, (cut rest (offset - lead.size)).2) := by
  induction lead generalizing offset with
  | nil => rfl
  | cons char lead ih =>
    rw [size_cons] at behind
    have fits : char.utf8Size ≤ offset := by omega
    have same : offset - char.utf8Size - size lead = offset - size (char :: lead) := by
      rw [size_cons]
      omega
    rw [List.cons_append, cut, if_pos fits, ih (by omega), same]
    rfl

/-- **What stands before the first span is kept.** -/
theorem spliceFrom_skip {offset stop : Nat} {lead : Text} {edits : List Edit}
    (ordered : Ordered (offset + lead.size) edits stop) (rest : Text) :
    spliceFrom offset edits (lead ++ rest) =
      lead ++ spliceFrom (offset + lead.size) edits rest := by
  cases edits with
  | nil => rfl
  | cons edit later =>
    have behind : lead.size ≤ edit.start - offset := by
      have := ordered.1
      omega
    rw [spliceFrom, spliceFrom, cut_append_of_le behind, Nat.sub_sub]
    simp only [List.append_assoc]

/-- **A span is replaced**, and the pass goes on behind it. -/
theorem spliceFrom_edit (offset : Nat) (span replacement : Text) (edits : List Edit)
    (rest : Text) :
    spliceFrom offset (⟨offset, offset + span.size, replacement⟩ :: edits) (span ++ rest) =
      replacement ++ spliceFrom (offset + span.size) edits rest := by
  have here : cut (span ++ rest) 0 = ([], span ++ rest) := cut_size [] (span ++ rest)
  simp only [spliceFrom, Nat.sub_self, here, Nat.add_sub_cancel_left, cut_size, List.nil_append]

end Scaffold.Text
