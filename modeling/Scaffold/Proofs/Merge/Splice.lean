/-
**A merge replaces spans of its skeleton and keeps everything else.**

A merge is a walk through a forest. On the text of the skeleton it is an edit for every region that
takes its content from the counterpart (`edit?`): the span inside the region, or the whole of a
region that closes itself, is replaced by what the first element of its name in the counterpart
holds.

* `ordered_edits`: the edits follow one another between the ends of the forest;
* `spliceFrom_edits`: carried out on the text of the forest, with any text and any edits after it,
  they give the text of the graft;
* `sync_eq_splice`: so a merged text is the skeleton's text, spliced.
-/

import Scaffold.Proofs.Merge.Regions
import Scaffold.Proofs.Tag.Lossless
import Scaffold.Proofs.Text.Edits

namespace Scaffold

/-! ### The edits of a merge -/

/-- The edit that fills an element from another one: its inside is replaced, or the whole of it if it
closes itself. -/
def Element.filledFrom (item other : Element) : Text.Edit :=
  if item.tag.isSelfClosing then
    ⟨item.tag.offset, item.tag.offset + item.render.size, other.render⟩
  else
    let start := item.tag.offset + item.tag.openMarker.size
    ⟨start, start + item.innerText.size, other.innerText⟩

namespace Forest

/-- The edit for a region: none if it keeps its content, or if the counterpart has no element of its
name. -/
def edit? (skeleton : Skeleton) (counterpart : Forest) (region : Element) : Option Text.Edit :=
  if Region.resolve skeleton region.tag.regionSync? = .counterpart then
    (counterpart.find? region.tag.name).map region.filledFrom
  else none

/-- The edits of a merge, in document order. -/
def edits (skeleton : Skeleton) (counterpart forest : Forest) : List Text.Edit :=
  forest.regions.filterMap (edit? skeleton counterpart)

variable {skeleton : Skeleton} {counterpart forest : Forest}

theorem edits_element (tag : Tag) (inner next : Forest) :
    edits skeleton counterpart (element tag inner next) =
      (if tag.regionSync? = none then edits skeleton counterpart inner
        else (edit? skeleton counterpart ⟨tag, inner⟩).toList) ++
      edits skeleton counterpart next := by
  rw [edits, regions_element, List.filterMap_append]
  split
  · rfl
  · rw [List.filterMap_cons]
    cases edit? skeleton counterpart ⟨tag, inner⟩ <;> rfl

/-- What is decided about a region, by its edit. -/
theorem decided_of_edit? {region : Element} (directed : region.tag.regionSync? ≠ none)
    (walked : Forest) :
    edit? skeleton counterpart region = none ∧
        decided skeleton counterpart region walked = region ∨
      ∃ other, edit? skeleton counterpart region = some (region.filledFrom other) ∧
        decided skeleton counterpart region walked =
          if region.tag.isSelfClosing then other else ⟨region.tag, other.inner⟩ := by
  rw [edit?]
  cases resolved : Region.resolve skeleton region.tag.regionSync? with
  | own => exact Or.inl ⟨rfl, decided_of_own resolved walked⟩
  | recurse => exact absurd (resolve_eq_recurse_iff.mp resolved) directed
  | counterpart =>
    rw [decided_of_counterpart resolved, if_pos rfl]
    cases found : counterpart.find? region.tag.name with
    | none => exact Or.inl ⟨rfl, supplied_of_none found⟩
    | some other => exact Or.inr ⟨other, rfl, supplied_of_some found⟩

/-! ### The edits follow one another -/

theorem size_around (tag : Tag) (inner : Text) :
    (tag.around inner).size = tag.openMarker.size + inner.size + tag.closeMarker.size := by
  rw [Tag.around, Text.size_append, Text.size_append]

/-- The edit of a region at `offset` is within its span. -/
theorem ordered_filledFrom {region other : Element} {offset stop : Nat} {later : List Text.Edit}
    (placed : region.tag.offset = offset)
    (ordered : Text.Ordered (offset + region.render.size) later stop) :
    Text.Ordered offset (region.filledFrom other :: later) stop := by
  have size : region.render.size = _ := size_around region.tag region.innerText
  rw [Element.filledFrom, placed]
  split
  · exact ⟨Nat.le_refl offset, Nat.le_add_right _ _, ordered⟩
  · exact ⟨Nat.le_add_right _ _, Nat.le_add_right _ _, ordered.mono (by dsimp only; omega)⟩

/-- **The edits of a forest follow one another** between its ends, and so do those after it. -/
theorem ordered_edits {offset stop : Nat} {later : List Text.Edit} (placed : forest.Placed offset)
    (ordered : Text.Ordered (offset + forest.render.size) later stop) :
    Text.Ordered offset (edits skeleton counterpart forest ++ later) stop := by
  induction forest generalizing offset later with
  | empty => exact ordered
  | text content next ih =>
    rw [render, Text.size_append, ← Nat.add_assoc] at ordered
    exact (ih placed ordered).mono (Nat.le_add_right _ _)
  | element tag inner next ihInner ihNext =>
    obtain ⟨here, placedInner, placedNext⟩ := placed
    rw [render, Text.size_append, ← Nat.add_assoc] at ordered
    have orderedNext := ihNext placedNext ordered
    rw [edits_element, List.append_assoc]
    by_cases directed : tag.regionSync? = none
    · rw [if_pos directed]
      have size := size_around tag inner.render
      exact (ihInner placedInner (orderedNext.mono (by omega))).mono (Nat.le_add_right _ _)
    · rw [if_neg directed]
      rcases @decided_of_edit? skeleton counterpart ⟨tag, inner⟩ directed inner with
        ⟨none, _⟩ | ⟨other, some, _⟩
      · rw [none]
        exact orderedNext.mono (Nat.le_add_right _ _)
      · rw [some]
        exact ordered_filledFrom here orderedNext

/-! ### Splicing is grafting -/

/-- **A region's edit** puts into its place what is decided about it. -/
theorem spliceFrom_filledFrom {region other : Element} {offset stop : Nat}
    {later : List Text.Edit} (placed : region.tag.offset = offset)
    (ordered : Text.Ordered (offset + region.render.size) later stop) (rest : Text) :
    Text.spliceFrom offset (region.filledFrom other :: later) (region.render ++ rest) =
      (if region.tag.isSelfClosing then other else ⟨region.tag, other.inner⟩ : Element).render ++
        Text.spliceFrom (offset + region.render.size) later rest := by
  have within : Text.Ordered offset (region.filledFrom other :: later) stop :=
    ordered_filledFrom placed ordered
  have size : region.render.size = _ := size_around region.tag region.innerText
  rw [Element.filledFrom, placed] at within ⊢
  by_cases closed : region.tag.isSelfClosing = true
  · rw [if_pos closed, if_pos closed]
    exact Text.spliceFrom_edit offset region.render other.render later rest
  · rw [if_neg closed] at within ⊢
    rw [if_neg closed]
    have split : region.render ++ rest =
        region.tag.openMarker ++ (region.innerText ++ (region.tag.closeMarker ++ rest)) := by
      rw [Element.render, Tag.around]
      simp only [List.append_assoc]
      rfl
    have behind : offset + region.tag.openMarker.size + region.innerText.size +
        region.tag.closeMarker.size = offset + region.render.size := by omega
    have opened : Text.Ordered (offset + region.tag.openMarker.size)
        (⟨offset + region.tag.openMarker.size,
          offset + region.tag.openMarker.size + region.innerText.size, other.innerText⟩ :: later)
        stop :=
      ⟨Nat.le_refl _, within.2⟩
    rw [split, Text.spliceFrom_skip opened, Text.spliceFrom_edit,
      Text.spliceFrom_skip (behind ▸ ordered), behind]
    simp only [Element.render, Tag.around, List.append_assoc]
    rfl

/-- **Splicing a forest's text is grafting the forest**, with any text and any edits after it. -/
theorem spliceFrom_edits {offset stop : Nat} {later : List Text.Edit}
    (placed : forest.Placed offset)
    (ordered : Text.Ordered (offset + forest.render.size) later stop) (rest : Text) :
    Text.spliceFrom offset (edits skeleton counterpart forest ++ later) (forest.render ++ rest) =
      (graft skeleton counterpart forest).render ++
        Text.spliceFrom (offset + forest.render.size) later rest := by
  induction forest generalizing offset later rest with
  | empty => rfl
  | text content next ih =>
    rw [render, Text.size_append, ← Nat.add_assoc] at ordered
    have within : Text.Ordered _ (edits skeleton counterpart next ++ later) _ :=
      ordered_edits placed ordered
    rw [render, List.append_assoc, Text.size_append, ← Nat.add_assoc, graft, render,
      List.append_assoc, ← ih placed ordered rest]
    exact Text.spliceFrom_skip within _
  | element tag inner next ihInner ihNext =>
    obtain ⟨here, placedInner, placedNext⟩ := placed
    rw [render, Text.size_append, ← Nat.add_assoc] at ordered
    have orderedNext : Text.Ordered _ (edits skeleton counterpart next ++ later) _ :=
      ordered_edits placedNext ordered
    rw [edits_element, List.append_assoc, render, List.append_assoc, Text.size_append,
      ← Nat.add_assoc, graft, render, List.append_assoc, ← ihNext placedNext ordered rest]
    by_cases directed : tag.regionSync? = none
    · have size := size_around tag inner.render
      have behind : offset + tag.openMarker.size + inner.render.size + tag.closeMarker.size =
          offset + (tag.around inner.render).size := by omega
      have orderedClose : Text.Ordered (offset + tag.openMarker.size + inner.render.size)
          (edits skeleton counterpart next ++ later) stop := orderedNext.mono (by omega)
      rw [if_pos directed, @decided_of_recurse _ _ ⟨tag, inner⟩ (resolve_eq_recurse_iff.mpr directed),
        Tag.around, List.append_assoc, List.append_assoc,
        Text.spliceFrom_skip (ordered_edits placedInner orderedClose),
        ihInner placedInner orderedClose, Text.spliceFrom_skip (behind ▸ orderedNext), behind]
      simp only [Tag.around, List.append_assoc]
    · rw [if_neg directed]
      rcases @decided_of_edit? skeleton counterpart ⟨tag, inner⟩ directed
        (graft skeleton counterpart inner) with ⟨none, same⟩ | ⟨other, some, same⟩
      · rw [none, same]
        exact Text.spliceFrom_skip orderedNext _
      · rw [some, same]
        exact spliceFrom_filledFrom here orderedNext _

end Forest

namespace Merge

variable {delimiter fresh existing : Text} {requested : SyncMode} {skeleton : Skeleton}
  {freshForest existingForest : Forest}

/-- **A merged text is the text of its skeleton, spliced.** For every region that takes its content
from the counterpart and finds an element of its name there, one span is replaced; these spans follow
one another in the text, and all of it outside them is kept. -/
theorem sync_eq_splice (readFresh : Forest.parse delimiter fresh = .ok freshForest)
    (readExisting : Forest.parse delimiter existing = .ok existingForest)
    (planned : Plan.ofMode (modeFor delimiter existing requested) = .merge skeleton) :
    sync delimiter fresh existing requested =
        .ok ((skeleton.own fresh existing).splice
          (Forest.edits skeleton (skeleton.other freshForest existingForest)
            (skeleton.own freshForest existingForest))) ∧
      Text.Ordered 0 (Forest.edits skeleton (skeleton.other freshForest existingForest)
        (skeleton.own freshForest existingForest)) (skeleton.own fresh existing).size := by
  have readOwn : Forest.parse delimiter (skeleton.own fresh existing) =
      .ok (skeleton.own freshForest existingForest) := by
    cases skeleton with
    | fresh => exact readFresh
    | existing => exact readExisting
  generalize skeleton.own fresh existing = own at readOwn ⊢
  rw [sync_eq_graft planned readFresh readExisting]
  generalize skeleton.own freshForest existingForest = ownForest at readOwn ⊢
  generalize skeleton.other freshForest existingForest = otherForest
  have placed := Forest.placed_of_parse readOwn
  have ends : Text.Ordered (0 + ownForest.render.size) [] own.size := by
    rw [Forest.render_of_parse readOwn, Nat.zero_add]
    exact Nat.le_refl own.size
  have ordered := @Forest.ordered_edits skeleton otherForest _ _ _ _ placed ends
  have spliced := @Forest.spliceFrom_edits skeleton otherForest _ _ _ _ placed ends []
  rw [List.append_nil] at ordered spliced
  rw [List.append_nil, Forest.render_of_parse readOwn] at spliced
  refine ⟨congrArg Except.ok ?_, ordered⟩
  rw [Text.splice, spliced]
  exact (List.append_nil _).symm

/-- A declared mode, a region with another one inside it, one that closes itself and has two elements
of its name in the counterpart, and one that has none. -/
theorem sync_eq_splice_demand :
    ∃ (fresh existing : Text) (freshForest existingForest : Forest),
    fresh = ("//<a k=\"v\">\nnew\n//</a>\n//<b k=\"v\">\nfirst\n//</b>\n" ++
      "//<b k=\"v\">\nsecond\n//</b>\n").toList ∧
      existing = ("//<file sync=\"Demand\"/>\né\n//<p k=\"v\">\n//<a sync=\"Replace\">\nold\n" ++
        "//<b sync=\"Replace\"/>\n//</a>\n//</p>\n//<b sync=\"Replace\"/>\n" ++
        "//<d sync=\"Replace\">\n//</d>").toList ∧
      Forest.parse "//".toList fresh = .ok freshForest ∧
      Forest.parse "//".toList existing = .ok existingForest ∧
      Plan.ofMode (modeFor "//".toList existing .full) = .merge .existing ∧
      Forest.edits .existing freshForest existingForest = [⟨60, 86, "new\n".toList⟩,
        ⟨100, 122, "//<b k=\"v\">\nfirst\n//</b>\n".toList⟩] ∧
      sync "//".toList fresh existing .full =
        .ok (existing.splice (Forest.edits .existing freshForest existingForest)) ∧
      Text.Ordered 0 (Forest.edits .existing freshForest existingForest) existing.size := by
  have found : ((Forest.parse "//".toList
      ("//<a k=\"v\">\nnew\n//</a>\n//<b k=\"v\">\nfirst\n//</b>\n" ++
        "//<b k=\"v\">\nsecond\n//</b>\n").toList).toOption.bind fun fresh =>
      (Forest.parse "//".toList
        ("//<file sync=\"Demand\"/>\né\n//<p k=\"v\">\n//<a sync=\"Replace\">\nold\n" ++
          "//<b sync=\"Replace\"/>\n//</a>\n//</p>\n//<b sync=\"Replace\"/>\n" ++
          "//<d sync=\"Replace\">\n//</d>").toList).toOption.map fun existing =>
            Forest.edits .existing fresh existing) =
      some [⟨60, 86, "new\n".toList⟩,
        ⟨100, 122, "//<b k=\"v\">\nfirst\n//</b>\n".toList⟩] := by
    decide +kernel
  obtain ⟨freshForest, readFresh, rest⟩ := Option.bind_eq_some_iff.mp found
  obtain ⟨existingForest, readExisting, edits⟩ := Option.map_eq_some_iff.mp rest
  have readFresh := Forest.toOption_parse_eq_some_iff.mp readFresh
  have readExisting := Forest.toOption_parse_eq_some_iff.mp readExisting
  have planned : Plan.ofMode (modeFor "//".toList
      ("//<file sync=\"Demand\"/>\né\n//<p k=\"v\">\n//<a sync=\"Replace\">\nold\n" ++
        "//<b sync=\"Replace\"/>\n//</a>\n//</p>\n//<b sync=\"Replace\"/>\n" ++
        "//<d sync=\"Replace\">\n//</d>").toList .full) = .merge .existing := by
    decide +kernel
  have spliced := sync_eq_splice readFresh readExisting planned
  exact ⟨_, _, freshForest, existingForest, rfl, rfl, readFresh, readExisting, planned, edits,
    spliced.1, spliced.2⟩

end Merge

end Scaffold
