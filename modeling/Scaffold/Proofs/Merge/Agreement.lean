/-
**Where only regions differ, both skeletons give the same text.**

A merge of two versions takes its order and its plain text from one of them. If the versions differ
inside their regions only, that choice does not matter: emptied of what is in their regions
(`emptied`), both versions are the same forest, and whatever a region asks for is found in the
region at the same place of the other version.

* `twin_of_emptied`: versions that are the same when emptied are walked side by side;
* `render_decided_twins`: two regions at the same place are decided alike by both merges;
* `render_graft_of_emptied`: so the two grafts are written as the same text;
* `sync_full_eq_sync_demand`: and the two modes that merge give the same file.
-/

import Scaffold.Proofs.Merge.Regions
import Scaffold.Proofs.Merge.Stability

namespace Scaffold

/-! ### Tags wherever they stand -/

/-- A tag without its place. -/
def Tag.unplaced (tag : Tag) : Tag := { tag with offset := 0 }

section Twins

variable {first second : Tag}

theorem Tag.around_of_unplaced (same : first.unplaced = second.unplaced) (inner : Text) :
    first.around inner = second.around inner := by
  have opens := congrArg Tag.openMarker same
  have closes := congrArg Tag.closeMarker same
  change first.openMarker = second.openMarker at opens
  change first.closeMarker = second.closeMarker at closes
  rw [Tag.around, Tag.around, opens, closes]

theorem Tag.name_of_unplaced (same : first.unplaced = second.unplaced) :
    first.name = second.name := by
  have names := congrArg Tag.name same
  change first.name = second.name at names
  exact names

theorem Tag.regionSync?_of_unplaced (same : first.unplaced = second.unplaced) :
    first.regionSync? = second.regionSync? := by
  have attributes := congrArg Tag.attributes same
  change first.attributes = second.attributes at attributes
  rw [Tag.regionSync?, Tag.regionSync?, attributes]

end Twins

namespace Forest

/-- The forest without what is inside its regions, and without places. -/
def emptied : Forest → Forest
  | empty => empty
  | text content next => text content next.emptied
  | element tag inner next =>
    element tag.unplaced (if tag.regionSync? = none then inner.emptied else empty) next.emptied

/-- A forest whose elements are the first of their names in `whole`. -/
def FirstIn (whole forest : Forest) : Prop :=
  ∀ item ∈ forest.elements, whole.find? item.tag.name = some item

variable {whole fresh existing first second : Forest}

theorem firstIn_of_distinct (distinct : whole.names.Nodup) : FirstIn whole whole :=
  fun _ member => find?_of_distinct distinct member

theorem FirstIn.element {tag : Tag} {inner next : Forest}
    (firstIn : FirstIn whole (element tag inner next)) :
    whole.find? tag.name = some ⟨tag, inner⟩ ∧ FirstIn whole inner ∧ FirstIn whole next :=
  ⟨firstIn _ List.mem_cons_self,
    fun item inside => firstIn item (List.mem_cons_of_mem _ (List.mem_append_left _ inside)),
    fun item later => firstIn item (List.mem_cons_of_mem _ (List.mem_append_right _ later))⟩

/-! ### Two versions side by side -/

/-- Two elements at the same place of two versions: their markers are the same, and so is what is
inside them if they are no regions. -/
structure Twins (item other : Element) : Prop where
  tag : item.tag.unplaced = other.tag.unplaced
  inner : item.tag.regionSync? = none → item.inner.emptied = other.inner.emptied

/-- **The same when emptied**: an element of one version has a twin in the other one. -/
theorem twin_of_emptied {tag : Tag} {inner next : Forest}
    (same : (element tag inner next).emptied = second.emptied) :
    ∃ twin later, second = element twin.tag twin.inner later ∧ Twins ⟨tag, inner⟩ twin ∧
      next.emptied = later.emptied := by
  cases second with
  | empty => cases same
  | text content later => cases same
  | element otherTag otherInner later =>
    rw [emptied, emptied, element.injEq] at same
    obtain ⟨sameTag, sameInner, sameNext⟩ := same
    refine ⟨⟨otherTag, otherInner⟩, later, rfl, ⟨sameTag, fun free => ?_⟩, sameNext⟩
    have freeOther : otherTag.regionSync? = none := by
      rw [← Tag.regionSync?_of_unplaced sameTag]
      exact free
    rwa [if_pos free, if_pos freeOther] at sameInner

/-- What is supplied for a region by its twin is written as the twin. -/
theorem render_supplied_of_twin {item twin : Element}
    (tags : item.tag.unplaced = twin.tag.unplaced) (found : whole.find? twin.tag.name = some twin) :
    (whole.supplied item).render = twin.render := by
  rw [← Tag.name_of_unplaced tags] at found
  rw [supplied_of_some found]
  split
  · rfl
  · exact Tag.around_of_unplaced tags twin.inner.render

/-- **Two twins are decided alike** with either version as the skeleton, if what is inside them is
written in the same way once it is walked. -/
theorem render_decided_twins {item twin : Element} {walked walkedTwin : Forest}
    (twins : Twins item twin) (found : fresh.find? item.tag.name = some item)
    (foundTwin : existing.find? twin.tag.name = some twin)
    (inside : item.tag.regionSync? = none → walked.render = walkedTwin.render) :
    (decided .fresh existing item walked).render =
      (decided .existing fresh twin walkedTwin).render := by
  have directives : item.tag.regionSync? = twin.tag.regionSync? :=
    Tag.regionSync?_of_unplaced twins.tag
  cases asked : item.tag.regionSync? with
  | none =>
    have walks : Region.resolve .fresh item.tag.regionSync? = .recurse := by rw [asked]; rfl
    have walksTwin : Region.resolve .existing twin.tag.regionSync? = .recurse := by
      rw [← directives, asked]
      rfl
    rw [decided_of_recurse walks, decided_of_recurse walksTwin]
    show item.tag.around walked.render = twin.tag.around walkedTwin.render
    rw [inside asked]
    exact Tag.around_of_unplaced twins.tag walkedTwin.render
  | some directive =>
    cases directive with
    | reserve =>
      have asks : Region.resolve .fresh item.tag.regionSync? = .counterpart := by rw [asked]; rfl
      have keeps : Region.resolve .existing twin.tag.regionSync? = .own := by
        rw [← directives, asked]
        rfl
      rw [decided_of_counterpart asks, decided_of_own keeps]
      exact render_supplied_of_twin twins.tag foundTwin
    | replace =>
      have keeps : Region.resolve .fresh item.tag.regionSync? = .own := by rw [asked]; rfl
      have asks : Region.resolve .existing twin.tag.regionSync? = .counterpart := by
        rw [← directives, asked]
        rfl
      rw [decided_of_own keeps, decided_of_counterpart asks]
      exact (render_supplied_of_twin twins.tag.symm found).symm

/-- **The two grafts are written alike**, for any parts of the two versions that are the same when
emptied. -/
theorem render_graft_of_emptied (firstFresh : FirstIn fresh first)
    (firstExisting : FirstIn existing second) (same : first.emptied = second.emptied) :
    (graft .fresh existing first).render = (graft .existing fresh second).render := by
  induction first generalizing second with
  | empty =>
    cases second with
    | empty => rfl
    | text content next => cases same
    | element tag inner next => cases same
  | text content next ih =>
    cases second with
    | empty => cases same
    | text other later =>
      rw [emptied, emptied, text.injEq] at same
      obtain ⟨sameText, sameNext⟩ := same
      have firstLater : FirstIn existing later := firstExisting
      rw [graft, graft, render, render, sameText, ih firstFresh firstLater sameNext]
    | element tag inner later => cases same
  | element tag inner next ihInner ihNext =>
    obtain ⟨twin, later, rfl, twins, sameNext⟩ := twin_of_emptied same
    obtain ⟨found, firstInner, firstNext⟩ := firstFresh.element
    obtain ⟨foundTwin, firstTwin, firstLater⟩ := firstExisting.element
    rw [graft, graft, render, render, ihNext firstNext firstLater sameNext]
    congr 1
    exact render_decided_twins twins found foundTwin fun free =>
      ihInner firstInner firstTwin (twins.inner free)

end Forest

namespace Merge

variable {delimiter fresh existing : Text} {freshForest existingForest : Forest}

/-- **The two modes that merge agree** on two versions that differ inside their regions only: with
the elements of each version named apart, both merges succeed and give the same file. -/
theorem sync_full_eq_sync_demand (readFresh : Forest.parse delimiter fresh = .ok freshForest)
    (readExisting : Forest.parse delimiter existing = .ok existingForest)
    (distinctFresh : freshForest.names.Nodup) (distinctExisting : existingForest.names.Nodup)
    (same : freshForest.emptied = existingForest.emptied) :
    ∃ merged, sync delimiter fresh existing .full = .ok merged ∧
      sync delimiter fresh existing .demand = .ok merged := by
  cases declared : Tag.fileSyncMode? delimiter existing with
  | none =>
    have full : Plan.ofMode (modeFor delimiter existing .full) = .merge .fresh :=
      plan_of_undeclared declared
    have demand : Plan.ofMode (modeFor delimiter existing .demand) = .merge .existing :=
      plan_of_undeclared declared
    refine ⟨_, sync_eq_graft full readFresh readExisting, ?_⟩
    rw [sync_eq_graft demand readFresh readExisting]
    exact congrArg Except.ok (Forest.render_graft_of_emptied
      (Forest.firstIn_of_distinct distinctFresh) (Forest.firstIn_of_distinct distinctExisting)
      same).symm
  | some mode =>
    have full : modeFor delimiter existing .full = mode := by rw [modeFor, declared]; rfl
    have demand : modeFor delimiter existing .demand = mode := by rw [modeFor, declared]; rfl
    have alike : sync delimiter fresh existing .demand = sync delimiter fresh existing .full := by
      rw [sync, sync, full, demand]
    rw [alike]
    cases planned : Plan.ofMode (modeFor delimiter existing .full) with
    | keepExisting => exact ⟨existing, by rw [sync, planned], by rw [sync, planned]⟩
    | takeFresh => exact ⟨fresh, by rw [sync, planned], by rw [sync, planned]⟩
    | merge skeleton =>
      exact ⟨_, sync_eq_graft planned readFresh readExisting,
        sync_eq_graft planned readFresh readExisting⟩

/-- Both kinds of regions with other elements in them, one inside an element whose directive is not
known, and one that closes itself. -/
theorem sync_full_eq_sync_demand_nested :
    ∃ (fresh existing merged : Text) (freshForest existingForest : Forest),
    fresh = ("p\n//<a sync=\"Reserve\">\nnew\n//</a>\n//<b sync=\"never\">\n" ++
      "//<c sync=\"Replace\">\n//<d k=\"v\">\nnew\n//</d>\n//</c>\n" ++
      "//<e sync=\"Reserve\"/>\n//</b>\n").toList ∧
      existing = ("p\n//<a sync=\"Reserve\">\n//<f k=\"v\"/>\nold\n//</a>\n" ++
        "//<b sync=\"never\">\n//<c sync=\"Replace\">\nold\n//</c>\n" ++
        "//<e sync=\"Reserve\"/>\n//</b>\n").toList ∧
      merged = ("p\n//<a sync=\"Reserve\">\n//<f k=\"v\"/>\nold\n//</a>\n" ++
        "//<b sync=\"never\">\n//<c sync=\"Replace\">\n//<d k=\"v\">\nnew\n//</d>\n//</c>\n" ++
        "//<e sync=\"Reserve\"/>\n//</b>\n").toList ∧
      Forest.parse "//".toList fresh = .ok freshForest ∧
      Forest.parse "//".toList existing = .ok existingForest ∧
      freshForest.names.Nodup ∧ existingForest.names.Nodup ∧
      freshForest.emptied = existingForest.emptied ∧
      sync "//".toList fresh existing .full = .ok merged ∧
      sync "//".toList fresh existing .demand = .ok merged := by
  have found : ((Forest.parse "//".toList
      ("p\n//<a sync=\"Reserve\">\nnew\n//</a>\n//<b sync=\"never\">\n" ++
        "//<c sync=\"Replace\">\n//<d k=\"v\">\nnew\n//</d>\n//</c>\n" ++
        "//<e sync=\"Reserve\"/>\n//</b>\n").toList).toOption.bind fun fresh =>
      (Forest.parse "//".toList
        ("p\n//<a sync=\"Reserve\">\n//<f k=\"v\"/>\nold\n//</a>\n" ++
          "//<b sync=\"never\">\n//<c sync=\"Replace\">\nold\n//</c>\n" ++
          "//<e sync=\"Reserve\"/>\n//</b>\n").toList).toOption.map fun existing =>
        decide (fresh.names.Nodup ∧ existing.names.Nodup ∧ fresh.emptied = existing.emptied)) =
      some true := by
    decide +kernel
  obtain ⟨freshForest, readFresh, rest⟩ := Option.bind_eq_some_iff.mp found
  obtain ⟨existingForest, readExisting, holds⟩ := Option.map_eq_some_iff.mp rest
  have readFresh := Forest.toOption_parse_eq_some_iff.mp readFresh
  have readExisting := Forest.toOption_parse_eq_some_iff.mp readExisting
  obtain ⟨distinctFresh, distinctExisting, same⟩ := of_decide_eq_true holds
  obtain ⟨merged, full, demand⟩ :=
    sync_full_eq_sync_demand readFresh readExisting distinctFresh distinctExisting same
  have made : (sync "//".toList
      ("p\n//<a sync=\"Reserve\">\nnew\n//</a>\n//<b sync=\"never\">\n" ++
        "//<c sync=\"Replace\">\n//<d k=\"v\">\nnew\n//</d>\n//</c>\n" ++
        "//<e sync=\"Reserve\"/>\n//</b>\n").toList
      ("p\n//<a sync=\"Reserve\">\n//<f k=\"v\"/>\nold\n//</a>\n" ++
        "//<b sync=\"never\">\n//<c sync=\"Replace\">\nold\n//</c>\n" ++
        "//<e sync=\"Reserve\"/>\n//</b>\n").toList .full).toOption =
      some ("p\n//<a sync=\"Reserve\">\n//<f k=\"v\"/>\nold\n//</a>\n" ++
        "//<b sync=\"never\">\n//<c sync=\"Replace\">\n//<d k=\"v\">\nnew\n//</d>\n//</c>\n" ++
        "//<e sync=\"Reserve\"/>\n//</b>\n").toList := by
    decide +kernel
  rw [full] at made
  exact ⟨_, _, merged, freshForest, existingForest, rfl, rfl, Option.some.inj made, readFresh,
    readExisting, distinctFresh, distinctExisting, same, full, demand⟩

end Merge

end Scaffold
