/-
**Which version the content of a marked element comes from.**

A directive asks for a version: `Reserve` for the existing one, `Replace` for the fresh one. A merge
decides the regions of its skeleton, the outermost elements with a directive, and takes each of them
as it is or from the counterpart; what is inside a region comes with it, whatever its own directive
asks for (`supplier`).

* `decided_of_supplier`: a region holds what its supplier has under its name;
* `find?_graft`: the first element of a marked name in a graft is inside the first region that holds
  one;
* `innerText_sync_of_marked`: so its content is that of the supplier of this region, and if no region
  has it inside, that of the version its own directive asks for;
* `not_honoursMarked`: a region around an element may stand against its directive.
-/

import Scaffold.Proofs.Merge.Regions
import Scaffold.Proofs.Merge.Stability

namespace Scaffold

/-! ### Suppliers -/

/-- The version that a directive asks for. -/
def RegionSync.version : RegionSync → Skeleton
  | .reserve => .existing
  | .replace => .fresh

/-- The version that is not the skeleton. -/
def Skeleton.flip : Skeleton → Skeleton
  | .fresh => .existing
  | .existing => .fresh

theorem Skeleton.own_flip {α : Type} (skeleton : Skeleton) (fresh existing : α) :
    skeleton.flip.own fresh existing = skeleton.other fresh existing := by
  cases skeleton <;> rfl

namespace Forest

/-- The version that supplies the content of a region: the one its directive asks for, or the
skeleton if that one has no element of its name. -/
def supplier (skeleton : Skeleton) (fresh existing : Forest) (region : Element) : Skeleton :=
  match region.tag.regionSync? with
  | none => skeleton
  | some directive =>
    if ((directive.version.own fresh existing).find? region.tag.name).isSome then directive.version
    else skeleton

/-- The names at and inside the first element of a name. -/
def within (forest : Forest) (name : Text) : List Text :=
  match forest.find? name with
  | none => []
  | some item => item.elements.map fun inside => inside.tag.name

/-- The first region of the skeleton that has a name at or inside it, as its supplier knows it. -/
def decider? (skeleton : Skeleton) (fresh existing : Forest) (name : Text) : Option Element :=
  (skeleton.own fresh existing).regions.find? fun region =>
    name ∈ ((supplier skeleton fresh existing region).own fresh existing).within region.tag.name

variable {skeleton : Skeleton} {counterpart forest fresh existing : Forest} {name : Text}

theorem within_of_some {item : Element} (found : forest.find? name = some item) :
    forest.within name = item.elements.map fun inside => inside.tag.name := by
  rw [within, found]

theorem supplier_of_some {region : Element} {directive : RegionSync}
    (directed : region.tag.regionSync? = some directive)
    (known : ((directive.version.own fresh existing).find? region.tag.name).isSome = true) :
    supplier skeleton fresh existing region = directive.version := by
  rw [supplier, directed]
  exact if_pos known

/-- **A region is decided by its supplier**: it stays as it is, or it is filled with the element of
its name in the counterpart. -/
theorem decided_of_supplier {region : Element} (directed : region.tag.regionSync? ≠ none)
    (member : region ∈ (skeleton.own fresh existing).elements) (walked : Forest) :
    supplier skeleton fresh existing region = skeleton ∧
        decided skeleton (skeleton.other fresh existing) region walked = region ∨
      ∃ source, supplier skeleton fresh existing region = skeleton.flip ∧
        (skeleton.other fresh existing).find? region.tag.name = some source ∧
        decided skeleton (skeleton.other fresh existing) region walked =
          if region.tag.isSelfClosing then source else ⟨region.tag, source.inner⟩ := by
  obtain ⟨directive, marked⟩ := Option.ne_none_iff_exists'.mp directed
  have present : ((skeleton.own fresh existing).find? region.tag.name).isSome = true :=
    List.find?_isSome.mpr ⟨region, member, beq_self_eq_true _⟩
  by_cases own : directive.version = skeleton
  · refine Or.inl ⟨?_, decided_of_own ?_ walked⟩
    · rw [supplier_of_some marked (by rw [own]; exact present), own]
    · rw [marked, ← own]
      cases directive <;> rfl
  · have asks : Region.resolve skeleton region.tag.regionSync? = .counterpart := by
      rw [marked]
      cases skeleton <;> cases directive <;> first | rfl | exact absurd rfl own
    have version : directive.version = skeleton.flip := by
      cases skeleton <;> cases directive <;> first | rfl | exact absurd rfl own
    rw [supplier, marked, decided_of_counterpart asks]
    simp only [version, skeleton.own_flip]
    cases found : (skeleton.other fresh existing).find? region.tag.name with
    | none => exact Or.inl ⟨rfl, supplied_of_none found⟩
    | some source => exact Or.inr ⟨source, rfl, rfl, supplied_of_some found⟩

/-! ### What stands in the place of a region -/

/-- In the place of a region stand the names that its supplier has there. -/
theorem names_decided (distinct : (skeleton.own fresh existing).names.Nodup) {region : Element}
    (member : region ∈ (skeleton.own fresh existing).regions) (walked : Forest) :
    ((decided skeleton (skeleton.other fresh existing) region walked).elements.map
        fun item => item.tag.name) =
      ((supplier skeleton fresh existing region).own fresh existing).within region.tag.name := by
  have inside := regions_subset _ member
  rcases decided_of_supplier (regionSync?_of_mem_regions member) inside walked with
    ⟨version, same⟩ | ⟨source, version, found, same⟩
  · rw [version, same, within_of_some (find?_of_distinct distinct inside)]
  · rw [version, same, skeleton.own_flip, within_of_some found]
    split
    · rfl
    · rw [Element.elements, Element.elements, List.map_cons, List.map_cons, name_of_find? found]

/-- An element that stands in the place of a region has the content it has in the supplier. -/
theorem innerText_of_mem_decided (distinctFresh : fresh.names.Nodup)
    (distinctExisting : existing.names.Nodup) {region item : Element}
    (member : region ∈ (skeleton.own fresh existing).regions) {walked : Forest}
    (inside : item ∈ (decided skeleton (skeleton.other fresh existing) region walked).elements) :
    ∃ origin, ((supplier skeleton fresh existing region).own fresh existing).find? item.tag.name =
      some origin ∧ item.innerText = origin.innerText := by
  have distinct : ∀ version : Skeleton, (version.own fresh existing).names.Nodup
    | .fresh => distinctFresh
    | .existing => distinctExisting
  have known := regions_subset _ member
  rcases decided_of_supplier (regionSync?_of_mem_regions member) known walked with
    ⟨version, same⟩ | ⟨source, version, found, same⟩
  · rw [version]
    rw [same] at inside
    exact ⟨item, find?_of_distinct (distinct skeleton) (elements_subset known inside), rfl⟩
  · rw [version]
    have distinctOther := distinct skeleton.flip
    rw [skeleton.own_flip] at distinctOther ⊢
    have moved := mem_of_find? found
    rw [same] at inside
    split at inside
    · exact ⟨item, find?_of_distinct distinctOther (elements_subset moved inside), rfl⟩
    · rcases List.mem_cons.mp inside with rfl | inside
      · exact ⟨source, found, rfl⟩
      · exact ⟨item, find?_of_distinct distinctOther
          (elements_subset moved (List.mem_cons_of_mem _ inside)), rfl⟩

/-! ### The first element of a marked name -/

/-- **The first element of a marked name in a graft** stands in the place of the first region that
has one there. -/
theorem find?_graft
    (marked : ∀ item ∈ forest.elements, item.tag.name = name → item.tag.regionSync? ≠ none) :
    (graft skeleton counterpart forest).find? name =
      forest.regions.findSome? fun region =>
        (decided skeleton counterpart region region.inner).elements.find? fun item =>
          item.tag.name == name := by
  induction forest with
  | empty => rfl
  | text content next ih => exact ih marked
  | element tag inner next ihInner ihNext =>
    have markedInner : ∀ item ∈ inner.elements, item.tag.name = name →
        item.tag.regionSync? ≠ none := fun item inside =>
      marked item (List.mem_cons_of_mem _ (List.mem_append_left _ inside))
    have later := ihNext fun item inside =>
      marked item (List.mem_cons_of_mem _ (List.mem_append_right _ inside))
    have split : (graft skeleton counterpart (element tag inner next)).find? name =
        ((decided skeleton counterpart ⟨tag, inner⟩ (graft skeleton counterpart inner)).elements.find?
          fun item => item.tag.name == name).or ((graft skeleton counterpart next).find? name) := by
      rw [graft, find?, elements_element]
      exact List.find?_append
    rw [split, later, regions_element, List.findSome?_append]
    congr 1
    by_cases directed : tag.regionSync? = none
    · have other : (tag.name == name) = false := beq_eq_false_iff_ne.mpr fun same =>
        marked ⟨tag, inner⟩ List.mem_cons_self same directed
      have walked := @decided_of_recurse skeleton counterpart ⟨tag, inner⟩
        (resolve_eq_recurse_iff.mpr directed) (graft skeleton counterpart inner)
      rw [walked, if_pos directed, Element.elements, ← ihInner markedInner]
      simp only [List.find?_cons, other]
      rfl
    · rw [if_neg directed, decided_of_directive directed _ inner, List.findSome?_cons]
      cases (decided skeleton counterpart ⟨tag, inner⟩ inner).elements.find?
        fun item => item.tag.name == name <;> rfl

/-- The content of the first element of a marked name in a graft is that of the supplier of the first
region that has it there. -/
theorem innerText_find?_graft (distinctFresh : fresh.names.Nodup)
    (distinctExisting : existing.names.Nodup)
    (marked : ∀ item ∈ (skeleton.own fresh existing).elements, item.tag.name = name →
      item.tag.regionSync? ≠ none) {item : Element}
    (found : (graft skeleton (skeleton.other fresh existing)
      (skeleton.own fresh existing)).find? name = some item) :
    ∃ region origin, decider? skeleton fresh existing name = some region ∧
      ((supplier skeleton fresh existing region).own fresh existing).find? name = some origin ∧
      item.innerText = origin.innerText := by
  have distinct : (skeleton.own fresh existing).names.Nodup := by
    cases skeleton with
    | fresh => exact distinctFresh
    | existing => exact distinctExisting
  rw [find?_graft marked] at found
  obtain ⟨before, region, after, split, here, absent⟩ := List.findSome?_eq_some_iff.mp found
  have member : ∀ other, other ∈ before ∨ other = region →
      other ∈ (skeleton.own fresh existing).regions := by
    intro other which
    rw [split]
    rcases which with early | rfl
    · exact List.mem_append_left _ early
    · exact List.mem_append_right _ List.mem_cons_self
  have named := List.find?_some here
  have named := beq_iff_eq.mp named
  obtain ⟨origin, foundOrigin, same⟩ := innerText_of_mem_decided distinctFresh distinctExisting
    (member region (Or.inr rfl)) (List.mem_of_find?_eq_some here)
  rw [named] at foundOrigin
  refine ⟨region, origin, List.find?_eq_some_iff_append.mpr ⟨decide_eq_true ?_, before, after,
    split, fun other early => ?_⟩, foundOrigin, same⟩
  · rw [← names_decided distinct (member region (Or.inr rfl)) region.inner]
    exact List.mem_map.mpr ⟨item, List.mem_of_find?_eq_some here, named⟩
  · rw [Bool.not_eq_true', decide_eq_false_iff_not,
      ← names_decided distinct (member other (Or.inl early)) other.inner]
    intro present
    obtain ⟨inside, among, same⟩ := List.mem_map.mp present
    exact List.find?_eq_none.mp (absent other early) inside among (beq_iff_eq.mpr same)

/-! ### Names that no region has inside -/

/-- No element around `name` has the name of one of the regions. -/
def IsApartFrom (regions : List Element) (forest : Forest) (name : Text) : Prop :=
  ∀ item ∈ forest.nested [], item.element.tag.name = name →
    ∀ tag ∈ item.around, ∀ region ∈ regions, tag.name ≠ region.tag.name

instance (regions : List Element) (forest : Forest) (name : Text) :
    Decidable (IsApartFrom regions forest name) :=
  inferInstanceAs (Decidable (∀ item ∈ forest.nested [], item.element.tag.name = name →
    ∀ tag ∈ item.around, ∀ region ∈ regions, tag.name ≠ region.tag.name))

/-- What is inside an element has its tag around it. -/
theorem exists_nested_of_mem_inner {outer inside : Element} (member : outer ∈ forest.elements)
    (within : inside ∈ outer.inner.elements) (around : List Tag) :
    ∃ item ∈ forest.nested around, item.element = inside ∧ outer.tag ∈ item.around := by
  induction forest generalizing around with
  | empty => cases member
  | text content next ih => exact ih member around
  | element tag inner next ihInner ihNext =>
    rcases List.mem_cons.mp member with rfl | member
    · rw [← map_element_nested (tag :: around)] at within
      obtain ⟨item, found, rfl⟩ := List.mem_map.mp within
      exact ⟨item, List.mem_cons_of_mem _ (List.mem_append_left _ found), rfl,
        around_subset found List.mem_cons_self⟩
    · rcases List.mem_append.mp member with deeper | later
      · obtain ⟨item, found, same, present⟩ := ihInner deeper (tag :: around)
        exact ⟨item, List.mem_cons_of_mem _ (List.mem_append_left _ found), same, present⟩
      · obtain ⟨item, found, same, present⟩ := ihNext later around
        exact ⟨item, List.mem_cons_of_mem _ (List.mem_append_right _ found), same, present⟩

/-- A name that is apart from the regions is in the place of a region only if it is its name. -/
theorem name_eq_of_isApartFrom {regions : List Element} (apart : IsApartFrom regions forest name)
    {region : Element} (member : region ∈ regions)
    (inside : name ∈ forest.within region.tag.name) : region.tag.name = name := by
  rw [within] at inside
  cases found : forest.find? region.tag.name with
  | none =>
    rw [found] at inside
    cases inside
  | some outer =>
    rw [found] at inside
    have named := name_of_find? found
    rcases List.mem_cons.mp inside with here | deeper
    · exact named.symm.trans here.symm
    · obtain ⟨element, among, same⟩ := List.mem_map.mp deeper
      obtain ⟨item, nested, rfl, around⟩ := exists_nested_of_mem_inner (mem_of_find? found) among []
      exact absurd named (apart item nested same outer.tag around region member)

end Forest

namespace Merge

variable {delimiter fresh existing : Text} {requested : SyncMode} {skeleton : Skeleton}
  {freshForest existingForest : Forest}

/-- A merged text that can be read reads as the graft, settled, if the moves are joined. -/
theorem eq_settle_of_parse_graft (readFresh : Forest.parse delimiter fresh = .ok freshForest)
    (readExisting : Forest.parse delimiter existing = .ok existingForest)
    (joined : ∀ move ∈ Forest.moves skeleton (skeleton.other freshForest existingForest) []
      (skeleton.own freshForest existingForest), move.IsJoined) {forest : Forest}
    (read : Forest.parse delimiter (Forest.graft skeleton
      (skeleton.other freshForest existingForest)
      (skeleton.own freshForest existingForest)).render = .ok forest) :
    forest = (Forest.graft skeleton (skeleton.other freshForest existingForest)
      (skeleton.own freshForest existingForest)).settle 0 := by
  have fitsFresh := (Forest.fits_of_parse readFresh).1
  have fitsExisting := (Forest.fits_of_parse readExisting).1
  have sealedFresh := Forest.isSealed_of_parse readFresh False.elim
  have sealedExisting := Forest.isSealed_of_parse readExisting False.elim
  have fitsOwn := skeleton.own_of fitsFresh fitsExisting
  have fitsOther := skeleton.other_of fitsFresh fitsExisting
  have sealedOwn := skeleton.own_of sealedFresh sealedExisting
  have sealedOther := skeleton.other_of sealedFresh sealedExisting
  have stands : Forest.Stands delimiter [] (Forest.graft skeleton
      (skeleton.other freshForest existingForest) (skeleton.own freshForest existingForest)) :=
    Forest.stands_graft fitsOther fitsOwn (List.nil_subset [])
  have isLined := (Forest.isSealed_graft fitsOther sealedOther fitsOwn
    (sealedOwn.mono fun filled => filled rfl) joined).isLined
  have fits := (Forest.parse_render_iff stands isLined).mp ⟨forest, read⟩
  rw [Forest.parse_render fits isLined] at read
  exact (Except.ok.inj read).symm

/-- **The content of a marked element in a merged text** is that of the supplier of the first region
that has it inside. If no region has, this is the version that its directive asks for. -/
theorem innerText_sync_of_marked (readFresh : Forest.parse delimiter fresh = .ok freshForest)
    (readExisting : Forest.parse delimiter existing = .ok existingForest)
    (distinctFresh : freshForest.names.Nodup) (distinctExisting : existingForest.names.Nodup)
    (planned : Plan.ofMode (modeFor delimiter existing requested) = .merge skeleton)
    (joined : ∀ move ∈ Forest.moves skeleton (skeleton.other freshForest existingForest) []
      (skeleton.own freshForest existingForest), move.IsJoined)
    {name : Text} {directive : RegionSync} {itemFresh itemExisting : Element}
    (foundFresh : freshForest.find? name = some itemFresh)
    (foundExisting : existingForest.find? name = some itemExisting)
    (markedFresh : itemFresh.tag.regionSync? = some directive)
    (markedExisting : itemExisting.tag.regionSync? = some directive) :
    ∃ merged, sync delimiter fresh existing requested = .ok merged ∧
      ∀ forest item, Forest.parse delimiter merged = .ok forest → forest.find? name = some item →
        (∃ region, Forest.decider? skeleton freshForest existingForest name = some region ∧
          item.innerText = ((Forest.supplier skeleton freshForest existingForest region).own
            itemFresh itemExisting).innerText) ∧
        ((∀ version : Skeleton,
            Forest.IsApartFrom (skeleton.own freshForest existingForest).regions
              (version.own freshForest existingForest) name) →
          item.innerText = (directive.version.own itemFresh itemExisting).innerText) := by
  refine ⟨_, sync_eq_graft planned readFresh readExisting, fun forest item read found => ?_⟩
  have foundIn : ∀ version : Skeleton, (version.own freshForest existingForest).find? name =
      some (version.own itemFresh itemExisting)
    | .fresh => foundFresh
    | .existing => foundExisting
  have distinctOwn : (skeleton.own freshForest existingForest).names.Nodup := by
    cases skeleton with
    | fresh => exact distinctFresh
    | existing => exact distinctExisting
  have markedOwn : ∀ other ∈ (skeleton.own freshForest existingForest).elements,
      other.tag.name = name → other.tag.regionSync? = some directive := by
    intro other member named
    have same := Forest.find?_of_distinct distinctOwn member
    rw [named, foundIn skeleton] at same
    cases skeleton with
    | fresh => exact Option.some.inj same ▸ markedFresh
    | existing => exact Option.some.inj same ▸ markedExisting
  rw [eq_settle_of_parse_graft readFresh readExisting joined read] at found
  have settled := Forest.find?_settle 0 (Forest.graft skeleton
    (skeleton.other freshForest existingForest) (skeleton.own freshForest existingForest)) name
  rw [found, Option.map_some] at settled
  obtain ⟨grafted, foundGraft, bare⟩ := Option.map_eq_some_iff.mp settled.symm
  have sameText : grafted.innerText = item.innerText := (Prod.mk.inj bare).2
  obtain ⟨region, origin, first, foundOrigin, same⟩ := Forest.innerText_find?_graft distinctFresh
    distinctExisting (fun other member named => by rw [markedOwn other member named]; exact nofun)
    foundGraft
  rw [foundIn] at foundOrigin
  rw [← sameText, same, ← Option.some.inj foundOrigin]
  refine ⟨⟨region, first, rfl⟩, fun apart => ?_⟩
  have member := List.mem_of_find?_eq_some first
  have inside := List.find?_some first
  have named := Forest.name_eq_of_isApartFrom (apart _) member (of_decide_eq_true inside)
  have marked := markedOwn region (Forest.regions_subset _ member) named
  rw [Forest.supplier_of_some marked (by rw [named, foundIn]; rfl)]

/-- A reserved region beside a replaced one that has a reserved element inside it. -/
theorem innerText_sync_of_marked_beside :
    ∃ (fresh existing : Text) (freshForest existingForest : Forest)
      (itemFresh itemExisting : Element),
      fresh = ("//<r sync=\"Replace\">\n//<n sync=\"Reserve\">\nnew\n//</n>\n//</r>\n" ++
        "//<m sync=\"Reserve\"/>\n").toList ∧
      existing = ("//<n sync=\"Reserve\">\nold\n//</n>\n" ++
        "//<m sync=\"Reserve\">\nkept\n//</m>\n").toList ∧
      Forest.parse "//".toList fresh = .ok freshForest ∧
      Forest.parse "//".toList existing = .ok existingForest ∧
      freshForest.find? "m".toList = some itemFresh ∧
      existingForest.find? "m".toList = some itemExisting ∧
      ∃ merged forest item, sync "//".toList fresh existing .full = .ok merged ∧
        Forest.parse "//".toList merged = .ok forest ∧ forest.find? "m".toList = some item ∧
        item.innerText = itemExisting.innerText := by
  have found : ((Forest.parse "//".toList
      ("//<r sync=\"Replace\">\n//<n sync=\"Reserve\">\nnew\n//</n>\n//</r>\n" ++
        "//<m sync=\"Reserve\"/>\n").toList).toOption.bind fun fresh =>
      (Forest.parse "//".toList ("//<n sync=\"Reserve\">\nold\n//</n>\n" ++
        "//<m sync=\"Reserve\">\nkept\n//</m>\n").toList).toOption.bind fun existing =>
          (fresh.find? "m".toList).bind fun itemFresh =>
            (existing.find? "m".toList).map fun itemExisting =>
              decide (fresh.names.Nodup ∧ existing.names.Nodup ∧
                (∀ move ∈ Forest.moves .fresh existing [] fresh, move.IsJoined) ∧
                itemFresh.tag.regionSync? = some .reserve ∧
                itemExisting.tag.regionSync? = some .reserve ∧
                Forest.IsApartFrom fresh.regions fresh "m".toList ∧
                Forest.IsApartFrom fresh.regions existing "m".toList)) = some true := by
    decide +kernel
  obtain ⟨freshForest, readFresh, rest⟩ := Option.bind_eq_some_iff.mp found
  obtain ⟨existingForest, readExisting, rest⟩ := Option.bind_eq_some_iff.mp rest
  obtain ⟨itemFresh, foundFresh, rest⟩ := Option.bind_eq_some_iff.mp rest
  obtain ⟨itemExisting, foundExisting, rest⟩ := Option.map_eq_some_iff.mp rest
  obtain ⟨distinctFresh, distinctExisting, joined, markedFresh, markedExisting, apartFresh,
    apartExisting⟩ := of_decide_eq_true rest
  have readFresh := Forest.toOption_parse_eq_some_iff.mp readFresh
  have readExisting := Forest.toOption_parse_eq_some_iff.mp readExisting
  have planned : Plan.ofMode (modeFor "//".toList ("//<n sync=\"Reserve\">\nold\n//</n>\n" ++
      "//<m sync=\"Reserve\">\nkept\n//</m>\n").toList .full) = .merge .fresh := by
    decide +kernel
  obtain ⟨merged, synced, content⟩ := innerText_sync_of_marked readFresh readExisting distinctFresh
    distinctExisting planned joined foundFresh foundExisting markedFresh markedExisting
  have again : ((sync "//".toList
      ("//<r sync=\"Replace\">\n//<n sync=\"Reserve\">\nnew\n//</n>\n//</r>\n" ++
        "//<m sync=\"Reserve\"/>\n").toList ("//<n sync=\"Reserve\">\nold\n//</n>\n" ++
        "//<m sync=\"Reserve\">\nkept\n//</m>\n").toList .full).toOption.bind fun merged =>
      (Forest.parse "//".toList merged).toOption.bind fun forest =>
        forest.find? "m".toList).isSome = true := by
    decide +kernel
  rw [synced] at again
  obtain ⟨item, read⟩ := Option.isSome_iff_exists.mp again
  change ((Forest.parse "//".toList merged).toOption.bind fun forest =>
    forest.find? "m".toList) = some item at read
  obtain ⟨forest, readMerged, foundItem⟩ := Option.bind_eq_some_iff.mp read
  have readMerged := Forest.toOption_parse_eq_some_iff.mp readMerged
  refine ⟨_, _, freshForest, existingForest, itemFresh, itemExisting, rfl, rfl, readFresh,
    readExisting, foundFresh, foundExisting, merged, forest, item, synced, readMerged, foundItem,
    (content forest item readMerged foundItem).2 ?_⟩
  intro version
  cases version with
  | fresh => exact apartFresh
  | existing => exact apartExisting

end Merge

/-! ### Directives that are not honoured -/

namespace Forest

/-- An element that carries the same directive in both versions has, in the merged one, the content
of the version its directive asks for. -/
def Honours (fresh existing merged : Forest) (name : Text) : Prop :=
  ∀ itemFresh ∈ fresh.find? name, ∀ itemExisting ∈ existing.find? name,
    ∀ directive ∈ itemFresh.tag.regionSync?, itemExisting.tag.regionSync? = some directive →
      ∀ item ∈ merged.find? name,
        item.innerText = (directive.version.own itemFresh itemExisting).innerText

instance (fresh existing merged : Forest) (name : Text) :
    Decidable (Honours fresh existing merged name) :=
  inferInstanceAs (Decidable (∀ itemFresh ∈ fresh.find? name, ∀ itemExisting ∈ existing.find? name,
    ∀ directive ∈ itemFresh.tag.regionSync?, itemExisting.tag.regionSync? = some directive →
      ∀ item ∈ merged.find? name,
        item.innerText = (directive.version.own itemFresh itemExisting).innerText))

end Forest

namespace Merge

/-- Where names are distinct in both versions, a merge that can be read again honours the directive
of an element, at any depth. -/
def HonoursMarked (delimiter fresh existing : Text) (requested : SyncMode) (name : Text) : Prop :=
  ∀ freshForest ∈ (Forest.parse delimiter fresh).toOption,
    ∀ existingForest ∈ (Forest.parse delimiter existing).toOption,
      freshForest.names.Nodup ∧ existingForest.names.Nodup →
        (modeFor delimiter existing requested = .full ∨
          modeFor delimiter existing requested = .demand) →
          ∀ merged ∈ (sync delimiter fresh existing requested).toOption,
            ∀ forest ∈ (Forest.parse delimiter merged).toOption,
              Forest.Honours freshForest existingForest forest name

instance (delimiter fresh existing : Text) (requested : SyncMode) (name : Text) :
    Decidable (HonoursMarked delimiter fresh existing requested name) :=
  inferInstanceAs (Decidable (∀ freshForest ∈ (Forest.parse delimiter fresh).toOption,
    ∀ existingForest ∈ (Forest.parse delimiter existing).toOption,
      freshForest.names.Nodup ∧ existingForest.names.Nodup →
        (modeFor delimiter existing requested = .full ∨
          modeFor delimiter existing requested = .demand) →
          ∀ merged ∈ (sync delimiter fresh existing requested).toOption,
            ∀ forest ∈ (Forest.parse delimiter merged).toOption,
              Forest.Honours freshForest existingForest forest name))

/-- **Four merges that do not honour a directive.** The element `n` is reserved inside a region that
is replaced; reserved inside a region that has no counterpart; replaced and moved along with a region
that is reserved; and reserved, but taken whole without a line feed in front of more text. -/
theorem not_honoursMarked :
    ¬ HonoursMarked "//".toList
      "//<r sync=\"Replace\">\n//<n sync=\"Reserve\">\nnew\n//</n>\n//</r>\n".toList
      "//<n sync=\"Reserve\">\nold\n//</n>\n".toList .full "n".toList ∧
    ¬ HonoursMarked "//".toList
      "//<r sync=\"Reserve\">\n//<n sync=\"Reserve\">\nnew\n//</n>\n//</r>\n".toList
      "//<n sync=\"Reserve\">\nold\n//</n>\n".toList .full "n".toList ∧
    ¬ HonoursMarked "//".toList
      "//<r sync=\"Reserve\">\n//</r>\n//<n sync=\"Replace\">\nnew\n//</n>\n".toList
      "//<r k=\"v\">\n//<n sync=\"Replace\">\nold\n//</n>\n//</r>\n".toList .full "n".toList ∧
    ¬ HonoursMarked "//".toList "//<n sync=\"Reserve\"/>\ntail\n//</n>\n".toList
      "//<n sync=\"Reserve\">\nx\n//</n>".toList .full "n".toList := by
  decide +kernel

end Merge

end Scaffold
