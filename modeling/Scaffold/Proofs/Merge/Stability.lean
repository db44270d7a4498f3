/-
**A second merge changes nothing.**

A merged text holds elements of both versions, and an element that was moved may bring a second
element of a name with it. Merging again changes nothing all the same:

* `graft_own`: with the fresh version as skeleton, the merged text supplies for every region what
  the existing one did (`supplied_graft`), for the first element of its name in the merged text is
  the region itself or the very element it was filled from;
* `graft_graft`: with the existing version as skeleton, a region of the merged text holds what the
  fresh version supplies already, and what was moved from there finds itself there.

`sync_sync` puts these together with the way back from the merged text to the graft.
-/

import Mathlib.Data.List.Nodup
import Scaffold.Proofs.Merge.Moves
import Scaffold.Proofs.Tag.Declared

namespace Scaffold

/-- An element and every element inside it. -/
def Element.elements (item : Element) : List Element := item :: item.inner.elements

namespace Forest

/-! ### Names -/

/-- The names of the elements, in document order. -/
def names (forest : Forest) : List Text := forest.elements.map fun item => item.tag.name

theorem elements_element (tag : Tag) (inner next : Forest) :
    (element tag inner next).elements = (Element.mk tag inner).elements ++ next.elements :=
  rfl

/-- What is inside an element is inside the forest. -/
theorem elements_subset {forest : Forest} {item : Element} (member : item ∈ forest.elements) :
    item.elements ⊆ forest.elements := by
  induction forest with
  | empty => cases member
  | text content next ih => exact ih member
  | element tag inner next ihInner ihNext =>
    intro other inside
    rcases List.mem_cons.mp member with rfl | member
    · exact List.mem_append_left next.elements inside
    · rcases List.mem_append.mp member with within | after
      · exact List.mem_cons_of_mem _ (List.mem_append_left _ (ihInner within inside))
      · exact List.mem_cons_of_mem _ (List.mem_append_right _ (ihNext after inside))

theorem name_mem_of_tag_mem {items : List Element} {tag : Tag}
    (member : tag ∈ items.map Element.tag) : tag.name ∈ items.map fun item => item.tag.name := by
  obtain ⟨item, inside, rfl⟩ := List.mem_map.mp member
  exact List.mem_map.mpr ⟨item, inside, rfl⟩

/-- Where names are distinct, every element is the first of its name. -/
theorem find?_of_distinct {forest : Forest} (distinct : forest.names.Nodup) {item : Element}
    (member : item ∈ forest.elements) : forest.find? item.tag.name = some item := by
  have some : (forest.find? item.tag.name).isSome = true :=
    List.find?_isSome.mpr ⟨item, member, beq_self_eq_true _⟩
  obtain ⟨other, found⟩ := Option.isSome_iff_exists.mp some
  rw [found, List.inj_on_of_nodup_map distinct (mem_of_find? found) member (name_of_find? found)]

variable {skeleton : Skeleton} {counterpart forest : Forest}

/-! ### Elements of a graft -/

/-- What is decided about an element has the elements of the counterpart and the tags of the
skeleton in it. -/
theorem mem_elements_decided {item other : Element} {walked : Forest}
    (ofWalked : ∀ inside ∈ walked.elements, inside ∈ counterpart.elements ∨
      inside.tag ∈ item.inner.elements.map Element.tag)
    (member : other ∈ (decided skeleton counterpart item walked).elements) :
    other ∈ counterpart.elements ∨ other.tag ∈ item.elements.map Element.tag := by
  rcases decided_cases skeleton counterpart item walked with
    same | ⟨_, same⟩ | ⟨source, _, found, ⟨_, same⟩ | ⟨_, same⟩⟩
  · rw [same] at member
    exact Or.inr (List.mem_map_of_mem member)
  · rw [same] at member
    rcases List.mem_cons.mp member with rfl | inside
    · exact Or.inr List.mem_cons_self
    · exact (ofWalked other inside).imp_right (List.mem_cons_of_mem _)
  · rw [same] at member
    exact Or.inl (elements_subset (mem_of_find? found) member)
  · rw [same] at member
    rcases List.mem_cons.mp member with rfl | inside
    · exact Or.inr List.mem_cons_self
    · exact Or.inl (elements_subset (mem_of_find? found) (List.mem_cons_of_mem _ inside))

/-- **Every element of a graft** is one of the counterpart or has a tag of the skeleton. -/
theorem mem_elements_graft {other : Element}
    (member : other ∈ (graft skeleton counterpart forest).elements) :
    other ∈ counterpart.elements ∨ other.tag ∈ forest.elements.map Element.tag := by
  induction forest generalizing other with
  | empty => cases member
  | text content next ih => exact ih member
  | element tag inner next ihInner ihNext =>
    rw [elements_element, List.map_append]
    rw [graft, elements_element] at member
    rcases List.mem_append.mp member with here | later
    · exact (mem_elements_decided (fun _ => ihInner) here).imp_right (List.mem_append_left _)
    · exact (ihNext later).imp_right (List.mem_append_right _)

theorem requests_subset (skeleton : Skeleton) (forest : Forest) :
    forest.requests skeleton ⊆ forest.elements := by
  induction forest with
  | empty => exact List.Subset.refl _
  | text content next ih => exact ih
  | element tag inner next ihInner ihNext =>
    intro item asks
    rcases List.mem_append.mp asks with here | later
    · rcases mem_requested.mp here with ⟨_, inside⟩ | ⟨_, rfl⟩
      · exact List.mem_cons_of_mem _ (List.mem_append_left _ (ihInner inside))
      · exact List.mem_cons_self
    · exact List.mem_cons_of_mem _ (List.mem_append_right _ (ihNext later))

/-- What is supplied for a region is in the graft. -/
theorem supplied_mem_graft {item : Element} (asks : item ∈ forest.requests skeleton) :
    counterpart.supplied item ∈ (graft skeleton counterpart forest).elements := by
  induction forest with
  | empty => cases asks
  | text content next ih => exact ih asks
  | element tag inner next ihInner ihNext =>
    rw [graft, elements_element]
    rcases List.mem_append.mp asks with here | later
    · refine List.mem_append_left _ ?_
      rcases mem_requested.mp here with ⟨region, inside⟩ | ⟨region, rfl⟩
      · rw [decided_of_recurse region]
        exact List.mem_cons_of_mem _ (ihInner inside)
      · rw [decided_of_counterpart region]
        exact List.mem_cons_self
    · exact List.mem_append_right _ (ihNext later)

/-- The same inside one element of the skeleton, whose inside becomes `walked`. -/
theorem mem_decided_of_requested {host item other : Element} {walked : Forest}
    {inside : List Element} (absent : host.tag.name ∉ host.inner.names)
    (within : inside ⊆ host.inner.elements)
    (ofInside : item ∈ inside → other ∈ walked.elements →
      other ∈ counterpart.elements ∨ other = counterpart.supplied item)
    (asks : item ∈ requested skeleton host inside)
    (member : other ∈ (decided skeleton counterpart host walked).elements)
    (same : other.tag.name = item.tag.name) :
    other ∈ counterpart.elements ∨ other = counterpart.supplied item := by
  rcases mem_requested.mp asks with ⟨region, asksInside⟩ | ⟨region, rfl⟩
  · rw [decided_of_recurse region] at member
    rcases List.mem_cons.mp member with rfl | memberInside
    · exact absurd (List.mem_map.mpr ⟨item, within asksInside, same.symm⟩) absent
    · exact ofInside asksInside memberInside
  · rw [decided_of_counterpart region] at member
    rcases List.mem_cons.mp member with rfl | memberInside
    · exact Or.inr rfl
    · cases found : counterpart.find? item.tag.name with
      | none =>
        rw [supplied_of_none found] at memberInside
        exact absurd (List.mem_map.mpr ⟨other, memberInside, same⟩) absent
      | some source =>
        rw [inner_supplied_of_some found] at memberInside
        exact Or.inl (elements_subset (mem_of_find? found) (List.mem_cons_of_mem _ memberInside))

/-- **An element of the name of a region** is one of the counterpart or what was supplied for that
region, if names are distinct in the skeleton. -/
theorem mem_graft_of_request (distinct : forest.names.Nodup) {item other : Element}
    (asks : item ∈ forest.requests skeleton)
    (member : other ∈ (graft skeleton counterpart forest).elements)
    (same : other.tag.name = item.tag.name) :
    other ∈ counterpart.elements ∨ other = counterpart.supplied item := by
  induction forest with
  | empty => cases asks
  | text content next ih => exact ih distinct asks member
  | element tag inner next ihInner ihNext =>
    rw [names, elements_element, List.map_append, List.nodup_append] at distinct
    obtain ⟨distinctHere, distinctNext, apart⟩ := distinct
    obtain ⟨absent, distinctInner⟩ := List.nodup_cons.mp distinctHere
    rw [graft, elements_element] at member
    rcases List.mem_append.mp asks with asksHere | asksLater
    · have here : item ∈ (Element.mk tag inner).elements := by
        rcases mem_requested.mp asksHere with ⟨_, inside⟩ | ⟨_, rfl⟩
        · exact List.mem_cons_of_mem _ (requests_subset _ _ inside)
        · exact List.mem_cons_self
      rcases List.mem_append.mp member with memberHere | memberLater
      · exact mem_decided_of_requested absent (requests_subset _ _) (ihInner distinctInner)
          asksHere memberHere same
      · refine (mem_elements_graft memberLater).imp_right fun tagged => ?_
        exact absurd same.symm
          (apart _ (List.mem_map.mpr ⟨item, here, rfl⟩) _ (name_mem_of_tag_mem tagged))
    · have later := requests_subset skeleton next asksLater
      rcases List.mem_append.mp member with memberHere | memberLater
      · refine (mem_elements_decided (fun _ => mem_elements_graft) memberHere).imp_right
          fun tagged => ?_
        exact absurd same
          (apart _ (name_mem_of_tag_mem tagged) _ (List.mem_map.mpr ⟨item, later, rfl⟩))
      · exact ihNext distinctNext asksLater memberLater

/-- **The merged text supplies for a region** what the counterpart did, if names are distinct. -/
theorem supplied_graft (distinct : forest.names.Nodup)
    (distinctOther : counterpart.names.Nodup) {item : Element}
    (asks : item ∈ forest.requests skeleton) :
    (graft skeleton counterpart forest).supplied item = counterpart.supplied item := by
  have some : ((graft skeleton counterpart forest).find? item.tag.name).isSome = true :=
    List.find?_isSome.mpr ⟨_, supplied_mem_graft asks, beq_iff_eq.mpr (name_supplied _ item)⟩
  obtain ⟨first, found⟩ := Option.isSome_iff_exists.mp some
  rcases mem_graft_of_request distinct asks (mem_of_find? found) (name_of_find? found) with
    moved | supplied
  · have foundOther := find?_of_distinct distinctOther moved
    rw [name_of_find? found] at foundOther
    rw [supplied_of_some found, supplied_of_some foundOther]
  · cases foundOther : counterpart.find? item.tag.name with
    | none =>
      rw [supplied_of_none foundOther] at supplied ⊢
      rw [supplied] at found
      exact supplied_of_self found
    | some source =>
      rw [supplied_of_some found, supplied_of_some foundOther, supplied,
        supplied_of_some foundOther]
      split <;> rfl

/-! ### Grafting twice -/

/-- **Taking from the merged text** what the counterpart gave changes nothing. -/
theorem graft_own (distinct : forest.names.Nodup) (distinctOther : counterpart.names.Nodup) :
    graft skeleton (graft skeleton counterpart forest) forest =
      graft skeleton counterpart forest :=
  graft_congr fun _ asks => supplied_graft distinct distinctOther asks

/-- What is decided about an element is decided about it again. -/
theorem decided_decided (distinctOther : counterpart.names.Nodup) {item : Element}
    {walked : Forest} (again : graft skeleton counterpart walked = walked) :
    decided skeleton counterpart (decided skeleton counterpart item walked)
        (graft skeleton counterpart (decided skeleton counterpart item walked).inner) =
      decided skeleton counterpart item walked := by
  cases region : Region.resolve skeleton item.tag.regionSync? with
  | own => rw [decided_of_own region, decided_of_own region]
  | recurse =>
    rw [decided_of_recurse region, again]
    exact @decided_of_recurse _ _ ⟨item.tag, walked⟩ region walked
  | counterpart =>
    rw [decided_of_counterpart region]
    cases found : counterpart.find? item.tag.name with
    | none => rw [supplied_of_none found, decided_of_counterpart region, supplied_of_none found]
    | some source =>
      have member := mem_of_find? found
      rw [supplied_of_some found]
      by_cases closed : item.tag.isSelfClosing = true
      · -- what was moved comes from the counterpart, where everything in it finds itself
        rw [if_pos closed]
        have stays : graft skeleton counterpart source.inner = source.inner :=
          graft_of_found fun inside within _ => find?_of_distinct distinctOther
            (elements_subset member (List.mem_cons_of_mem _ within))
        exact decided_of_found stays fun _ => find?_of_distinct distinctOther member
      · rw [if_neg closed, @decided_of_counterpart _ _ ⟨item.tag, source.inner⟩ region,
          @supplied_of_some _ ⟨item.tag, source.inner⟩ _ found]
        exact if_neg closed

/-- **Grafting the same counterpart twice** is grafting it once, if names are distinct in it. -/
theorem graft_graft (distinctOther : counterpart.names.Nodup) :
    graft skeleton counterpart (graft skeleton counterpart forest) =
      graft skeleton counterpart forest := by
  induction forest with
  | empty => rfl
  | text content next ih => rw [graft, graft, ih]
  | element tag inner next ihInner ihNext =>
    rw [graft, graft, ihNext, decided_decided distinctOther ihInner]

end Forest

namespace Merge

variable {delimiter fresh existing own other : Text} {requested : SyncMode}
  {freshForest existingForest ownForest otherForest : Forest}

/-! ### Tidy files -/

/-- A file that can be read as a forest and leaves nothing open: its last line is complete, no two
elements share a name, every close marker closes an element, and it declares no mode. -/
structure IsTidy (delimiter content : Text) (forest : Forest) : Prop where
  read : Forest.parse delimiter content = .ok forest
  closed : content.IsClosed
  distinct : forest.names.Nodup
  closes : forest.strays delimiter = []
  undeclared : Tag.fileSyncMode? delimiter content = none

instance (delimiter content : Text) : Decidable (∃ forest, IsTidy delimiter content forest) :=
  decidable_of_iff (∃ forest ∈ (Forest.parse delimiter content).toOption, content.IsClosed ∧
      forest.names.Nodup ∧ forest.strays delimiter = [] ∧
      Tag.fileSyncMode? delimiter content = none) <| by
    constructor
    · rintro ⟨forest, read, closed, distinct, closes, undeclared⟩
      have read := Forest.toOption_parse_eq_some_iff.mp read
      exact ⟨forest, read, closed, distinct, closes, undeclared⟩
    · rintro ⟨forest, read, closed, distinct, closes, undeclared⟩
      have read := Forest.toOption_parse_eq_some_iff.mpr read
      exact ⟨forest, read, closed, distinct, closes, undeclared⟩

theorem IsTidy.fits (tidy : IsTidy delimiter own ownForest) :
    Forest.Fits delimiter [] ownForest :=
  (Forest.fits_of_parse tidy.read).1

theorem IsTidy.isSealed (tidy : IsTidy delimiter own ownForest) : ownForest.IsSealed True :=
  Forest.isSealed_of_parse tidy.read fun _ => tidy.closed

/-- No element of a tidy file declares a mode. -/
theorem IsTidy.undeclared_of_mem (tidy : IsTidy delimiter own ownForest) {item : Element}
    (member : item.tag ∈ ownForest.elements.map Element.tag) :
    (item.tag.attributes.get? Tag.syncKey).bind (@Named.ofWord? SyncMode _) = none := by
  have undeclared := tidy.undeclared
  rw [Tag.fileSyncMode?, ← Forest.render_of_parse tidy.read,
    Forest.firstValue?_render tidy.fits tidy.isSealed.isLined, List.findSome?_eq_none_iff]
    at undeclared
  obtain ⟨same, inside, tagged⟩ := List.mem_map.mp member
  rw [← tagged]
  exact undeclared same inside

/-- **A merge of tidy files is read back as the graft**, and declares no mode. -/
theorem read_graft (skeleton : Skeleton) (tidyOwn : IsTidy delimiter own ownForest)
    (tidyOther : IsTidy delimiter other otherForest) :
    Forest.parse delimiter (Forest.graft skeleton otherForest ownForest).render =
        .ok ((Forest.graft skeleton otherForest ownForest).settle 0) ∧
      Tag.fileSyncMode? delimiter (Forest.graft skeleton otherForest ownForest).render = none := by
  have fits : Forest.Fits delimiter [] (Forest.graft skeleton otherForest ownForest) :=
    (Forest.fits_graft_iff tidyOther.fits tidyOwn.fits).mpr
      (Forest.isApart_of_strays tidyOther.closes)
  have isSealed : (Forest.graft skeleton otherForest ownForest).IsSealed (([] : List Text) ≠ []) :=
    Forest.isSealed_graft tidyOther.fits (tidyOther.isSealed.mono False.elim) tidyOwn.fits
      (tidyOwn.isSealed.mono fun _ => trivial)
      (Forest.isJoined_of_isSealed tidyOther.fits tidyOther.isSealed)
  refine ⟨Forest.parse_render fits isSealed.isLined, ?_⟩
  rw [Tag.fileSyncMode?, Forest.firstValue?_render fits isSealed.isLined,
    List.findSome?_eq_none_iff]
  intro item member
  rcases Forest.mem_elements_graft member with moved | tagged
  · exact tidyOther.undeclared_of_mem (List.mem_map_of_mem moved)
  · exact tidyOwn.undeclared_of_mem tagged

/-- A file that declares no mode is merged as it is asked for. -/
theorem plan_of_undeclared (undeclared : Tag.fileSyncMode? delimiter existing = none) :
    Plan.ofMode (modeFor delimiter existing requested) = Plan.ofMode requested := by
  rw [modeFor, undeclared]
  cases requested <;> rfl

/-- **Merging twice is merging once.** In tidy files, what was merged is not changed by another
merge of the same fresh version. -/
theorem sync_sync (tidyFresh : IsTidy delimiter fresh freshForest)
    (tidyExisting : IsTidy delimiter existing existingForest)
    (merges : requested = .full ∨ requested = .demand) :
    ∃ merged, sync delimiter fresh existing requested = .ok merged ∧
      sync delimiter fresh merged requested = .ok merged := by
  obtain ⟨skeleton, asked⟩ : ∃ skeleton, Plan.ofMode requested = .merge skeleton := by
    rcases merges with rfl | rfl
    · exact ⟨.fresh, rfl⟩
    · exact ⟨.existing, rfl⟩
  have tidyOwn : IsTidy delimiter (skeleton.own fresh existing)
      (skeleton.own freshForest existingForest) := by
    cases skeleton with
    | fresh => exact tidyFresh
    | existing => exact tidyExisting
  have tidyOther : IsTidy delimiter (skeleton.other fresh existing)
      (skeleton.other freshForest existingForest) := by
    cases skeleton with
    | fresh => exact tidyExisting
    | existing => exact tidyFresh
  obtain ⟨readMerged, undeclared⟩ := read_graft skeleton tidyOwn tidyOther
  have first := (plan_of_undeclared tidyExisting.undeclared).trans asked
  have second := (plan_of_undeclared undeclared).trans asked
  refine ⟨_, sync_eq_graft first tidyFresh.read tidyExisting.read, ?_⟩
  refine (sync_eq_graft second tidyFresh.read readMerged).trans (congrArg Except.ok ?_)
  cases skeleton with
  | fresh =>
    show (Forest.graft .fresh (Forest.settle 0 _) freshForest).render = _
    rw [Forest.render_graft, Forest.mergeWith_settle_counterpart, ← Forest.render_graft]
    exact congrArg Forest.render (Forest.graft_own tidyFresh.distinct tidyExisting.distinct)
  | existing =>
    show (Forest.graft .existing freshForest (Forest.settle 0 _)).render = _
    rw [Forest.render_graft, Forest.mergeWith_settle, ← Forest.render_graft]
    exact congrArg Forest.render (Forest.graft_graft tidyFresh.distinct)

/-- A region that takes an element whole and a second element of the name `c` with it, a region
inside an element, and one without a counterpart. -/
theorem sync_sync_moved :
    ∃ (fresh existing merged : Text) (freshForest existingForest : Forest),
    fresh = ("//<a sync=\"Reserve\"/>\n//<b k=\"v\">\n//<c sync=\"Reserve\">\nnew\n//</c>\n" ++
      "//</b>\n//<d sync=\"Reserve\">\n//</d>\n").toList ∧
      existing = "//<a k=\"v\">\n//<c k=\"v\">\nold\n//</c>\n//</a>\n".toList ∧
      merged = ("//<a k=\"v\">\n//<c k=\"v\">\nold\n//</c>\n//</a>\n" ++
        "//<b k=\"v\">\n//<c sync=\"Reserve\">\nold\n//</c>\n//</b>\n" ++
        "//<d sync=\"Reserve\">\n//</d>\n").toList ∧
      IsTidy "//".toList fresh freshForest ∧ IsTidy "//".toList existing existingForest ∧
      sync "//".toList fresh existing .full = .ok merged ∧
      sync "//".toList fresh merged .full = .ok merged := by
  obtain ⟨freshForest, tidyFresh⟩ : ∃ forest, IsTidy "//".toList
      ("//<a sync=\"Reserve\"/>\n//<b k=\"v\">\n//<c sync=\"Reserve\">\nnew\n//</c>\n" ++
        "//</b>\n//<d sync=\"Reserve\">\n//</d>\n").toList forest := by
    decide +kernel
  obtain ⟨existingForest, tidyExisting⟩ : ∃ forest, IsTidy "//".toList
      "//<a k=\"v\">\n//<c k=\"v\">\nold\n//</c>\n//</a>\n".toList forest := by
    decide +kernel
  obtain ⟨merged, first, second⟩ := sync_sync tidyFresh tidyExisting (Or.inl rfl)
  have made : (sync "//".toList
      ("//<a sync=\"Reserve\"/>\n//<b k=\"v\">\n//<c sync=\"Reserve\">\nnew\n//</c>\n" ++
        "//</b>\n//<d sync=\"Reserve\">\n//</d>\n").toList
      "//<a k=\"v\">\n//<c k=\"v\">\nold\n//</c>\n//</a>\n".toList .full).toOption =
      some ("//<a k=\"v\">\n//<c k=\"v\">\nold\n//</c>\n//</a>\n" ++
        "//<b k=\"v\">\n//<c sync=\"Reserve\">\nold\n//</c>\n//</b>\n" ++
        "//<d sync=\"Reserve\">\n//</d>\n").toList := by
    decide +kernel
  rw [first] at made
  exact ⟨_, _, merged, freshForest, existingForest, rfl, rfl, Option.some.inj made, tidyFresh,
    tidyExisting, first, second⟩

end Merge

end Scaffold
