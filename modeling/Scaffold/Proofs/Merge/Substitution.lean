/-
**One element in place of another, or after all others.**

An element of a forest that was read is found by its offset, which no other element has. Putting
another element in its place (`substitute`) keeps every property that the element has where it
stands:

* `render_substitute`: it is written as the forest with the text of that element replaced;
* `Fits.substitute`, `IsSealed.substitute`: it can be read, if the new element can stand where the
  old one stood;
* `find?_substitute`: a look-up that found the old element finds the new one.

A forest is put after another one (`append`) in the same way.
-/

import Mathlib.Data.List.Nodup
import Scaffold.Merge.Section
import Scaffold.Proofs.Merge.Graft
import Scaffold.Proofs.Tag.Lossless

namespace Scaffold

namespace Forest

/-- The forest with `new` for the element that starts at `offset`. -/
def substitute (offset : Nat) (new : Element) : Forest → Forest
  | empty => empty
  | text content next => text content (next.substitute offset new)
  | element tag inner next =>
    if tag.offset = offset then element new.tag new.inner (next.substitute offset new)
    else element tag (inner.substitute offset new) (next.substitute offset new)

/-- No two elements of the forest are at the same offset. -/
def IsApart (forest : Forest) : Prop :=
  (forest.elements.map fun item => item.tag.offset).Nodup

/-- No other element of the forest is where the item is. -/
def IsAlone (item : Element) (forest : Forest) : Prop :=
  ∀ other ∈ forest.elements, other.tag.offset = item.tag.offset → other = item

variable {delimiter : Text} {item new : Element} {forest : Forest} {offset : Nat}

/-! ### Elements and their offsets -/

/-- Elements apart from each other: the one on top, those inside it and those after it. -/
theorem isApart_element {tag : Tag} {inner next : Forest}
    (apart : (element tag inner next).IsApart) :
    (∀ other ∈ inner.elements ++ next.elements, other.tag.offset ≠ tag.offset) ∧
      inner.IsApart ∧ next.IsApart ∧
      ∀ within ∈ inner.elements, ∀ after ∈ next.elements,
        within.tag.offset ≠ after.tag.offset := by
  rw [IsApart, elements, List.map_cons, List.map_append, List.nodup_cons, List.nodup_append,
    ← List.map_append] at apart
  obtain ⟨above, apartInner, apartNext, between⟩ := apart
  refine ⟨fun other member same => above (same ▸ List.mem_map_of_mem member), apartInner,
    apartNext, fun within inside after later => ?_⟩
  exact between _ (List.mem_map_of_mem inside) _ (List.mem_map_of_mem later)

/-- The elements of a forest that was read are at offsets of their own. -/
theorem isApart_of_parse {content : Text} (read : parse delimiter content = .ok forest) :
    forest.IsApart :=
  (pairwise_offset_of_parse read).imp fun less => Nat.ne_of_lt less

/-- **An element of a forest that was read is alone** at its offset. -/
theorem isAlone_of_parse {content : Text} (read : parse delimiter content = .ok forest)
    (member : item ∈ forest.elements) : IsAlone item forest :=
  fun _ inside same => List.inj_on_of_nodup_map (isApart_of_parse read) inside member same

theorem isAlone_element {tag : Tag} {inner next : Forest}
    (alone : IsAlone item (element tag inner next)) :
    (tag.offset = item.tag.offset → Element.mk tag inner = item) ∧ IsAlone item inner ∧
      IsAlone item next :=
  ⟨alone _ List.mem_cons_self,
    fun other inside => alone other (List.mem_cons_of_mem _ (List.mem_append_left _ inside)),
    fun other later => alone other (List.mem_cons_of_mem _ (List.mem_append_right _ later))⟩

/-- Where no element is at the offset nothing changes. -/
theorem substitute_of_absent (absent : ∀ other ∈ forest.elements, other.tag.offset ≠ offset) :
    forest.substitute offset new = forest := by
  induction forest with
  | empty => rfl
  | text content next ih => rw [substitute, ih absent]
  | element tag inner next ihInner ihNext =>
    have here : tag.offset ≠ offset := absent ⟨tag, inner⟩ List.mem_cons_self
    rw [substitute, if_neg here,
      ihInner fun other inside =>
        absent other (List.mem_cons_of_mem _ (List.mem_append_left _ inside)),
      ihNext fun other later =>
        absent other (List.mem_cons_of_mem _ (List.mem_append_right _ later))]

/-! ### The text -/

theorem render_substitute (offset : Nat) (new : Element) (forest : Forest) :
    (forest.substitute offset new).render = forest.renderReplacing offset new.render := by
  induction forest with
  | empty => rfl
  | text content next ih => rw [substitute, render, renderReplacing, ih]
  | element tag inner next ihInner ihNext =>
    rw [substitute, renderReplacing, ← ihInner, ← ihNext]
    split <;> rfl

/-- An element replaced by its own text leaves the text as it is. -/
theorem renderReplacing_self (alone : IsAlone item forest) :
    forest.renderReplacing item.tag.offset item.render = forest.render := by
  induction forest with
  | empty => rfl
  | text content next ih => rw [renderReplacing, render, ih alone]
  | element tag inner next ihInner ihNext =>
    obtain ⟨here, aloneInner, aloneNext⟩ := isAlone_element alone
    rw [renderReplacing, render, ihInner aloneInner, ihNext aloneNext]
    split
    · rename_i same
      rw [← here same]
      rfl
    · rfl

/-! ### Reading the forest again -/

/-- **The forest fits** if the new element does wherever it stands. -/
theorem Fits.substitute {outer : List Text} (fits : Fits delimiter outer forest)
    (isPair : new.tag.IsPair delimiter) (fitsNew : ∀ around, Fits delimiter around new.inner)
    (offset : Nat) : Fits delimiter outer (forest.substitute offset new) := by
  induction fits with
  | empty => exact .empty
  | text plain _ ih => exact .text plain ih
  | leaf isLeaf _ ih =>
    rw [Forest.substitute]
    split
    · exact .pair isPair (fitsNew _) ih
    · exact .leaf isLeaf ih
  | pair isPairHere _ _ ihInner ihNext =>
    rw [Forest.substitute]
    split
    · exact .pair isPair (fitsNew _) ihNext
    · exact .pair isPairHere ihInner ihNext

theorem rows_substitute_eq_nil {outer : List Text} (fits : Fits delimiter outer forest)
    (none : forest.rows = []) : (forest.substitute offset new).rows = [] := by
  rw [substitute_of_absent, none]
  rw [fits.elements_eq_nil none]
  exact nofun

/-- **The forest is sealed** if the new element is wherever the old one was. -/
theorem IsSealed.substitute {followed : Prop} {outer : List Text}
    (isSealed : forest.IsSealed followed) (fits : Fits delimiter outer forest)
    (alone : IsAlone item forest)
    (sealedNew : ∀ after, item.IsSealed after → new.IsSealed after) :
    (forest.substitute item.tag.offset new).IsSealed followed := by
  induction forest generalizing followed outer with
  | empty => exact isSealed
  | text content next ih =>
    cases fits with
    | text _ fitsNext =>
      obtain ⟨closed, sealedNext⟩ := isSealed_text.mp isSealed
      refine isSealed_text.mpr ⟨fun holds => closed ?_, ih sealedNext fitsNext alone⟩
      exact holds.imp_right fun filled none => filled (rows_substitute_eq_nil fitsNext none)
  | element tag inner next ihInner ihNext =>
    obtain ⟨marked, fitsInner, fitsNext⟩ := fits_element.mp fits
    obtain ⟨sealedHere, sealedNext⟩ := isSealed_element.mp isSealed
    obtain ⟨here, aloneInner, aloneNext⟩ := isAlone_element alone
    have less : (followed ∨ (next.substitute item.tag.offset new).rows ≠ []) →
        followed ∨ next.rows ≠ [] :=
      Or.imp_right fun filled none => filled (rows_substitute_eq_nil fitsNext none)
    have stays := sealedHere.mono less
    rw [Forest.substitute]
    split
    · rename_i same
      rw [here same] at stays
      exact isSealed_element.mpr ⟨sealedNew _ stays, ihNext sealedNext fitsNext aloneNext⟩
    · refine isSealed_element.mpr ⟨?_, ihNext sealedNext fitsNext aloneNext⟩
      rcases marked with ⟨_, rfl⟩ | isPair
      · exact stays
      · obtain ⟨opens, sealedInner, closes⟩ := (isSealed_of_isPair isPair).mp stays
        exact (isSealed_of_isPair isPair).mpr
          ⟨opens, ihInner sealedInner fitsInner aloneInner, closes⟩

/-! ### Looking up the element -/

/-- The first element of a name is the one on top, or inside it, or after it. -/
theorem find?_element (name : Text) (tag : Tag) (inner next : Forest) :
    (element tag inner next).find? name =
      if tag.name = name then some ⟨tag, inner⟩ else (inner.find? name).or (next.find? name) := by
  rw [find?, elements, List.find?_cons, List.find?_append]
  split
  · rename_i same
    rw [if_pos (beq_iff_eq.mp same)]
  · rename_i different
    rw [if_neg fun same => by simp [same] at different]
    rfl

/-- **A look-up finds the new element** if it found the old one. -/
theorem find?_substitute {name : Text} (found : forest.find? name = some item)
    (alone : IsAlone item forest) (named : new.tag.name = name) :
    (forest.substitute item.tag.offset new).find? name = some new := by
  induction forest with
  | empty => cases found
  | text content next ih => exact ih found alone
  | element tag inner next ihInner ihNext =>
    obtain ⟨here, aloneInner, aloneNext⟩ := isAlone_element alone
    rw [substitute]
    split
    · rw [find?_element, if_pos named]
    · rename_i elsewhere
      rw [find?_element] at found
      have different : tag.name ≠ name := by
        intro same
        rw [if_pos same, Option.some.injEq] at found
        rw [← found] at elsewhere
        exact elsewhere rfl
      rw [if_neg different] at found
      rw [find?_element, if_neg different]
      cases inside : inner.find? name with
      | some first =>
        rw [inside, Option.some_or, Option.some.injEq] at found
        rw [ihInner (found ▸ inside) aloneInner]
        rfl
      | none =>
        rw [inside, Option.none_or] at found
        have absent : ∀ other ∈ inner.elements, other.tag.offset ≠ item.tag.offset := by
          intro other member same
          have unnamed := List.find?_eq_none.mp inside other member
          rw [aloneInner other member same] at unnamed
          exact unnamed (beq_iff_eq.mpr (name_of_find? found))
        rw [substitute_of_absent absent, inside, Option.none_or, ihNext found aloneNext]

/-! ### One forest after another -/

/-- A forest and another one after it. -/
def append : Forest → Forest → Forest
  | empty, other => other
  | text content next, other => text content (next.append other)
  | element tag inner next, other => element tag inner (next.append other)

variable {other : Forest}

@[simp] theorem rows_append : (forest.append other).rows = forest.rows ++ other.rows := by
  induction forest with
  | empty => rfl
  | text content next ih => simp only [append, rows, ih, List.append_assoc]
  | element tag inner next _ ihNext => simp only [append, rows, ihNext, List.append_assoc]

@[simp] theorem render_append : (forest.append other).render = forest.render ++ other.render := by
  rw [← flatten_rows, rows_append, List.flatten_append, flatten_rows, flatten_rows]

@[simp] theorem elements_append :
    (forest.append other).elements = forest.elements ++ other.elements := by
  induction forest with
  | empty => rfl
  | text content next ih => exact ih
  | element tag inner next _ ihNext =>
    simp only [append, elements, ihNext, List.cons_append, List.append_assoc]

theorem find?_append (name : Text) :
    (forest.append other).find? name = (forest.find? name).or (other.find? name) := by
  rw [find?, elements_append, List.find?_append]
  rfl

theorem Fits.append {outer : List Text} (fits : Fits delimiter outer forest)
    (fitsOther : Fits delimiter outer other) : Fits delimiter outer (forest.append other) := by
  induction fits with
  | empty => exact fitsOther
  | text plain _ ih => exact .text plain (ih fitsOther)
  | leaf isLeaf _ ih => exact .leaf isLeaf (ih fitsOther)
  | pair isPair fitsInner _ _ ihNext => exact .pair isPair fitsInner (ihNext fitsOther)

end Forest

end Scaffold
