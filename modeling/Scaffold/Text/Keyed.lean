/-
**Values by key, in ascending order of the keys.**

`insert` puts a value at the place of its key or replaces the value the key has. Inserting keeps the
keys strictly ascending (`sorted_insert`), and afterwards a look-up finds the new value at that key
and what was there before at every other (`get?_insert`).
-/

import Scaffold.Text.Basic

namespace Scaffold

namespace Text

/-- A text comes before another at the first character that differs, or as its proper start. -/
def precedes : Text → Text → Bool
  | _, [] => false
  | [], _ :: _ => true
  | first :: rest, second :: other =>
    if first = second then precedes rest other else first.toNat < second.toNat

theorem precedes_irrefl (text : Text) : precedes text text = false := by
  induction text with
  | nil => rfl
  | cons char rest ih => simp [precedes, ih]

theorem precedes_trans {first second third : Text} (left : precedes first second = true)
    (right : precedes second third = true) : precedes first third = true := by
  induction first generalizing second third with
  | nil =>
      cases third with
      | nil => cases second <;> simp [precedes] at right
      | cons => rfl
  | cons a first ih =>
      cases second with
      | nil => simp [precedes] at left
      | cons b second =>
          cases third with
          | nil => simp [precedes] at right
          | cons c third =>
              simp only [precedes] at left right ⊢
              split at left
              · rename_i same
                subst same
                split at right
                · rename_i same
                  subst same
                  simp [ih left right]
                · rename_i different
                  simpa [different] using right
              · rename_i different
                split at right
                · rename_i same
                  subst same
                  simpa [different] using left
                · simp only [decide_eq_true_eq] at left right
                  rw [if_neg (by rintro rfl; omega), decide_eq_true_eq]
                  omega

theorem precedes_total {first second : Text} (different : first ≠ second)
    (after : precedes first second = false) : precedes second first = true := by
  induction first generalizing second with
  | nil =>
      cases second with
      | nil => exact absurd rfl different
      | cons => simp [precedes] at after
  | cons a first ih =>
      cases second with
      | nil => rfl
      | cons b second =>
          simp only [precedes] at after ⊢
          split at after
          · rename_i same
            subst same
            simp [ih (by rintro rfl; exact different rfl) after]
          · rename_i other
            have apart : a.toNat ≠ b.toNat := fun same => other (Char.toNat_inj.mp same)
            simp only [decide_eq_false_iff_not] at after
            rw [if_neg (fun same => other same.symm), decide_eq_true_eq]
            omega

end Text

/-- Values with their keys. -/
abbrev Keyed (α : Type) := List (Text × α)

namespace Keyed

variable {α : Type}

/-- The keys strictly ascend. -/
def Sorted (entries : Keyed α) : Prop :=
  entries.Pairwise fun first second => first.1.precedes second.1 = true

/-- Puts a value at the place of its key; the value that the key had is replaced. -/
def insert (key : Text) (value : α) : Keyed α → Keyed α
  | [] => [(key, value)]
  | (other, old) :: rest =>
    if key = other then (key, value) :: rest
    else if key.precedes other then (key, value) :: (other, old) :: rest
    else (other, old) :: insert key value rest

/-- The value of a key. -/
def get? (key : Text) : Keyed α → Option α
  | [] => none
  | (other, value) :: rest => if key = other then some value else get? key rest

/-- Adds every entry of `added`; where both have a key, the value in `added` stays. -/
def merge (entries added : Keyed α) : Keyed α :=
  added.foldl (fun merged entry => insert entry.1 entry.2 merged) entries

theorem mem_insert {key : Text} {value : α} {entries : Keyed α} {entry : Text × α}
    (member : entry ∈ insert key value entries) : entry = (key, value) ∨ entry ∈ entries := by
  induction entries with
  | nil => simpa [insert] using member
  | cons head rest ih =>
      obtain ⟨other, old⟩ := head
      simp only [insert] at member
      grind

theorem sorted_insert (key : Text) (value : α) {entries : Keyed α} (sorted : Sorted entries) :
    Sorted (insert key value entries) := by
  induction entries with
  | nil => simp [insert, Sorted]
  | cons head rest ih =>
      obtain ⟨other, old⟩ := head
      obtain ⟨above, later⟩ := List.pairwise_cons.mp sorted
      simp only [insert]
      split
      · rename_i same
        subst same
        exact List.pairwise_cons.mpr ⟨above, later⟩
      · rename_i different
        split
        · rename_i before
          refine List.pairwise_cons.mpr ⟨fun entry member => ?_, sorted⟩
          rcases List.mem_cons.mp member with rfl | member
          · exact before
          · exact Text.precedes_trans before (above entry member)
        · rename_i notBefore
          refine List.pairwise_cons.mpr ⟨fun entry member => ?_, ih later⟩
          rcases mem_insert member with rfl | member
          · exact Text.precedes_total different (by simpa using notBefore)
          · exact above entry member

theorem get?_insert (key other : Text) (value : α) (entries : Keyed α) :
    get? other (insert key value entries) =
      if other = key then some value else get? other entries := by
  induction entries with
  | nil => rfl
  | cons head rest ih =>
      simp only [insert, get?]
      grind [get?]

end Keyed

end Scaffold
