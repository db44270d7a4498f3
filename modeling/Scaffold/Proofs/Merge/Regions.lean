/-
**The regions of a file.**

An element that carries a directive is decided as a whole, and so is everything inside it. The
regions of a file are the outermost elements of this kind (`regions`): they carry a directive, and
no element around them does.

* `regions_element`: the regions of a forest, found by walking into the elements without a
  directive;
* `resolve_eq_recurse_iff`: these are the elements that a merge walks into;
* `decided_of_directive`: what is decided about a region does not depend on the walk.
-/

import Scaffold.Proofs.Merge.Graft

namespace Scaffold

/-! ### Elements and what is around them -/

/-- An element with the tags of the elements around it, the innermost first. -/
structure Nested where
  around : List Tag
  element : Element
  deriving DecidableEq

namespace Nested

/-- The element carries a directive, and no element around it does. -/
def IsOutermost (item : Nested) : Prop :=
  item.element.tag.regionSync? ≠ none ∧ ∀ tag ∈ item.around, tag.regionSync? = none

instance : DecidablePred IsOutermost := fun item =>
  inferInstanceAs (Decidable (_ ∧ ∀ tag ∈ item.around, _))

end Nested

namespace Forest

/-- Every element in document order, in a forest that stands inside elements of the tags
`around`. -/
def nested : (around : List Tag) → Forest → List Nested
  | _, empty => []
  | around, text _ next => next.nested around
  | around, element tag inner next =>
    ⟨around, ⟨tag, inner⟩⟩ :: (inner.nested (tag :: around) ++ next.nested around)

/-- The elements that carry a directive and are inside no other that does. -/
def regions (forest : Forest) : List Element :=
  ((forest.nested []).filter fun item => item.IsOutermost).map Nested.element

theorem map_element_nested (around : List Tag) (forest : Forest) :
    (forest.nested around).map Nested.element = forest.elements := by
  induction forest generalizing around with
  | empty => rfl
  | text content next ih => exact ih around
  | element tag inner next ihInner ihNext =>
    rw [nested, List.map_cons, List.map_append, ihInner, ihNext, elements]

/-- What is around a forest is around its elements. -/
theorem around_subset {around : List Tag} {forest : Forest} {item : Nested}
    (member : item ∈ forest.nested around) : around ⊆ item.around := by
  induction forest generalizing around with
  | empty => cases member
  | text content next ih => exact ih member
  | element tag inner next ihInner ihNext =>
    rcases List.mem_cons.mp member with rfl | member
    · exact List.Subset.refl _
    · rcases List.mem_append.mp member with inside | later
      · exact fun other present => ihInner inside (List.mem_cons_of_mem _ present)
      · exact ihNext later

/-! ### Walking to the regions -/

/-- Inside an element with a directive there are no regions. -/
theorem outermost_eq_nil {around : List Tag} {tag : Tag} (present : tag ∈ around)
    (directed : tag.regionSync? ≠ none) (forest : Forest) :
    (forest.nested around).filter (fun item => item.IsOutermost) = [] := by
  rw [List.filter_eq_nil_iff]
  intro item member outermost
  exact directed ((of_decide_eq_true outermost).2 tag (around_subset member present))

/-- Elements without a directive around a forest leave its regions as they are. -/
theorem outermost_eq_regions {around : List Tag} (free : ∀ tag ∈ around, tag.regionSync? = none)
    (forest : Forest) :
    ((forest.nested around).filter fun item => item.IsOutermost).map Nested.element =
      forest.regions := by
  suffices same : ∀ first second : List Tag, (∀ tag ∈ first, tag.regionSync? = none) →
      (∀ tag ∈ second, tag.regionSync? = none) →
      ((forest.nested first).filter fun item => item.IsOutermost).map Nested.element =
        ((forest.nested second).filter fun item => item.IsOutermost).map Nested.element from
    same around [] free nofun
  intro first second freeFirst freeSecond
  induction forest generalizing first second with
  | empty => rfl
  | text content next ih => exact ih first second freeFirst freeSecond
  | element tag inner next ihInner ihNext =>
    have later := ihNext first second freeFirst freeSecond
    rw [nested, nested, List.filter_cons, List.filter_cons, List.filter_append, List.filter_append]
    by_cases directed : tag.regionSync? = none
    · have inside := ihInner (tag :: first) (tag :: second)
        (List.forall_mem_cons.mpr ⟨directed, freeFirst⟩)
        (List.forall_mem_cons.mpr ⟨directed, freeSecond⟩)
      simp only [Nested.IsOutermost, directed, ne_eq, not_true_eq_false, false_and, decide_false,
        Bool.false_eq_true, if_false, List.map_append] at inside later ⊢
      rw [inside, later]
    · rw [outermost_eq_nil List.mem_cons_self directed, outermost_eq_nil List.mem_cons_self directed]
      have outermostFirst : Nested.IsOutermost ⟨first, ⟨tag, inner⟩⟩ := ⟨directed, freeFirst⟩
      have outermostSecond : Nested.IsOutermost ⟨second, ⟨tag, inner⟩⟩ := ⟨directed, freeSecond⟩
      rw [if_pos (decide_eq_true outermostFirst), if_pos (decide_eq_true outermostSecond)]
      simp only [List.nil_append, List.map_cons, later]

/-- **The regions of a forest** are found by walking into the elements without a directive. -/
theorem regions_element (tag : Tag) (inner next : Forest) :
    (element tag inner next).regions =
      (if tag.regionSync? = none then inner.regions else [⟨tag, inner⟩]) ++ next.regions := by
  rw [regions, nested, List.filter_cons, List.filter_append]
  by_cases directed : tag.regionSync? = none
  · have walked : ¬ Nested.IsOutermost ⟨[], ⟨tag, inner⟩⟩ := fun outermost => outermost.1 directed
    rw [if_neg (by rwa [decide_eq_true_iff]), if_pos directed, List.map_append,
      outermost_eq_regions (by simpa using directed)]
    rfl
  · have outermost : Nested.IsOutermost ⟨[], ⟨tag, inner⟩⟩ := ⟨directed, nofun⟩
    rw [if_pos (decide_eq_true outermost), if_neg directed,
      outermost_eq_nil List.mem_cons_self directed]
    rfl

theorem regionSync?_of_mem_regions {forest : Forest} {item : Element}
    (member : item ∈ forest.regions) : item.tag.regionSync? ≠ none := by
  obtain ⟨found, inside, rfl⟩ := List.mem_map.mp member
  exact (of_decide_eq_true (List.mem_filter.mp inside).2).1

theorem regions_subset (forest : Forest) : forest.regions ⊆ forest.elements := by
  intro item member
  obtain ⟨found, inside, rfl⟩ := List.mem_map.mp member
  rw [← map_element_nested [] forest]
  exact List.mem_map_of_mem (List.mem_filter.mp inside).1

/-! ### What is decided about regions -/

variable {skeleton : Skeleton} {counterpart : Forest}

/-- A merge walks into the elements without a directive, and into no others. -/
theorem resolve_eq_recurse_iff {directive : Option RegionSync} :
    Region.resolve skeleton directive = .recurse ↔ directive = none := by
  cases directive with
  | none => exact iff_of_true (by cases skeleton <;> rfl) rfl
  | some known =>
    refine iff_of_false ?_ (Option.some_ne_none known)
    cases skeleton <;> cases known <;> exact nofun

/-- What is decided about a region does not depend on what is inside it. -/
theorem decided_of_directive {item : Element} (directed : item.tag.regionSync? ≠ none)
    (walked other : Forest) :
    decided skeleton counterpart item walked = decided skeleton counterpart item other := by
  cases region : Region.resolve skeleton item.tag.regionSync? with
  | own => rw [decided_of_own region, decided_of_own region]
  | recurse => exact absurd (resolve_eq_recurse_iff.mp region) directed
  | counterpart => rw [decided_of_counterpart region, decided_of_counterpart region]

end Forest

end Scaffold
