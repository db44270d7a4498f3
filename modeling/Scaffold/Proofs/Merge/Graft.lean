/-
**A merge as a forest.**

Merging writes a text. The same decisions give a forest, the skeleton with regions of the
counterpart grafted onto it (`graft`), and this forest is what the merge writes (`render_graft`).
Statements about merged text are made about the graft:

* `decided_cases`: what can stand in the place of an element of the skeleton;
* `graft_congr`: a graft depends on the counterpart through what it supplies for the topmost regions
  that ask for it (`requests`);
* `graft_of_found`: nothing changes where every region finds itself;
* `mergeWith_settle_counterpart`, `mergeWith_settle`: the offsets of the tags play no part, and
  neither does the way in which plain text is cut into pieces.
-/

import Scaffold.Merge.Sync
import Scaffold.Proofs.Tag.Layout

namespace Scaffold

/-! ### Decisions -/

namespace Forest

/-- What stands in the place of an element of the skeleton when the counterpart is asked: the
element of its name there as a whole, or only the inside of it. -/
def supplied (counterpart : Forest) (item : Element) : Element :=
  match counterpart.find? item.tag.name with
  | none => item
  | some other => if item.tag.isSelfClosing then other else ⟨item.tag, other.inner⟩

/-- What stands in the place of an element of the skeleton whose inside has become `walked`. -/
def decided (skeleton : Skeleton) (counterpart : Forest) (item : Element) (walked : Forest) :
    Element :=
  match Region.resolve skeleton item.tag.regionSync? with
  | .own => item
  | .recurse => ⟨item.tag, walked⟩
  | .counterpart => counterpart.supplied item

/-- The skeleton with the regions of the counterpart in it. -/
def graft (skeleton : Skeleton) (counterpart : Forest) : Forest → Forest
  | empty => empty
  | text content next => text content (graft skeleton counterpart next)
  | element tag inner next =>
    let item := decided skeleton counterpart ⟨tag, inner⟩ (graft skeleton counterpart inner)
    element item.tag item.inner (graft skeleton counterpart next)

/-- The topmost regions that ask the counterpart, in an element with the regions `inside` asking
inside it. -/
def requested (skeleton : Skeleton) (item : Element) (inside : List Element) : List Element :=
  match Region.resolve skeleton item.tag.regionSync? with
  | .own => []
  | .recurse => inside
  | .counterpart => [item]

/-- The topmost regions of the skeleton that ask the counterpart. -/
def requests (skeleton : Skeleton) : Forest → List Element
  | empty => []
  | text _ next => next.requests skeleton
  | element tag inner next =>
    requested skeleton ⟨tag, inner⟩ (inner.requests skeleton) ++ next.requests skeleton

variable {skeleton : Skeleton} {counterpart : Forest}

theorem supplied_of_none {item : Element} (none : counterpart.find? item.tag.name = none) :
    counterpart.supplied item = item := by
  rw [supplied, none]

theorem supplied_of_some {item other : Element}
    (some : counterpart.find? item.tag.name = some other) :
    counterpart.supplied item =
      if item.tag.isSelfClosing then other else ⟨item.tag, other.inner⟩ := by
  rw [supplied, some]

theorem inner_supplied_of_some {item other : Element}
    (some : counterpart.find? item.tag.name = some other) :
    (counterpart.supplied item).inner = other.inner := by
  rw [supplied_of_some some]
  split <;> rfl

/-- A region that finds itself stays as it is. -/
theorem supplied_of_self {item : Element} (self : counterpart.find? item.tag.name = some item) :
    counterpart.supplied item = item := by
  rw [supplied_of_some self]
  split <;> rfl

theorem name_of_find? {forest : Forest} {name : Text} {item : Element}
    (found : forest.find? name = some item) : item.tag.name = name := by
  have named := List.find?_some found
  exact beq_iff_eq.mp named

theorem mem_of_find? {forest : Forest} {name : Text} {item : Element}
    (found : forest.find? name = some item) : item ∈ forest.elements :=
  List.mem_of_find?_eq_some found

/-- What is supplied has the name that was asked for. -/
theorem name_supplied (counterpart : Forest) (item : Element) :
    (counterpart.supplied item).tag.name = item.tag.name := by
  cases found : counterpart.find? item.tag.name with
  | none => rw [supplied_of_none found]
  | some other =>
    rw [supplied_of_some found]
    split
    · exact name_of_find? found
    · rfl

theorem decided_of_own {item : Element}
    (own : Region.resolve skeleton item.tag.regionSync? = .own) (walked : Forest) :
    decided skeleton counterpart item walked = item := by
  rw [decided, own]

theorem decided_of_recurse {item : Element}
    (recurse : Region.resolve skeleton item.tag.regionSync? = .recurse) (walked : Forest) :
    decided skeleton counterpart item walked = ⟨item.tag, walked⟩ := by
  rw [decided, recurse]

theorem decided_of_counterpart {item : Element}
    (asks : Region.resolve skeleton item.tag.regionSync? = .counterpart) (walked : Forest) :
    decided skeleton counterpart item walked = counterpart.supplied item := by
  rw [decided, asks]

/-- A region asks by itself, or for a region inside an element that is walked into. -/
theorem mem_requested {item other : Element} {inside : List Element} :
    other ∈ requested skeleton item inside ↔
      Region.resolve skeleton item.tag.regionSync? = .recurse ∧ other ∈ inside ∨
        Region.resolve skeleton item.tag.regionSync? = .counterpart ∧ other = item := by
  rw [requested]
  cases Region.resolve skeleton item.tag.regionSync? <;> simp

/-- **What can stand in the place of an element**: the element as it is or with its inside walked,
an element of the counterpart, or the inside of one. -/
theorem decided_cases (skeleton : Skeleton) (counterpart : Forest) (item : Element)
    (walked : Forest) :
    decided skeleton counterpart item walked = item ∨
      Region.resolve skeleton item.tag.regionSync? = .recurse ∧
        decided skeleton counterpart item walked = ⟨item.tag, walked⟩ ∨
      ∃ source, Region.resolve skeleton item.tag.regionSync? = .counterpart ∧
        counterpart.find? item.tag.name = some source ∧
        (item.tag.isSelfClosing = true ∧ decided skeleton counterpart item walked = source ∨
          item.tag.isSelfClosing = false ∧
            decided skeleton counterpart item walked = ⟨item.tag, source.inner⟩) := by
  cases region : Region.resolve skeleton item.tag.regionSync? with
  | own => exact Or.inl (decided_of_own region walked)
  | recurse => exact Or.inr (Or.inl ⟨rfl, decided_of_recurse region walked⟩)
  | counterpart =>
    rw [decided_of_counterpart region]
    cases found : counterpart.find? item.tag.name with
    | none => exact Or.inl (supplied_of_none found)
    | some source =>
      refine Or.inr (Or.inr ⟨source, rfl, rfl, ?_⟩)
      rw [supplied_of_some found]
      cases closed : item.tag.isSelfClosing with
      | true => exact Or.inl ⟨rfl, rfl⟩
      | false => exact Or.inr ⟨rfl, rfl⟩

/-- The name of an element stays in its place. -/
theorem name_decided (skeleton : Skeleton) (counterpart : Forest) (item : Element)
    (walked : Forest) : (decided skeleton counterpart item walked).tag.name = item.tag.name := by
  rcases decided_cases skeleton counterpart item walked with
    same | ⟨_, same⟩ | ⟨source, _, found, ⟨_, same⟩ | ⟨_, same⟩⟩
  · rw [same]
  · rw [same]
  · rw [same, name_of_find? found]
  · rw [same]

/-! ### The graft is what a merge writes -/

/-- **A merge writes the graft.** -/
theorem render_graft (skeleton : Skeleton) (counterpart forest : Forest) :
    (graft skeleton counterpart forest).render = mergeWith skeleton counterpart forest := by
  induction forest with
  | empty => rfl
  | text content next ih => rw [graft, render, mergeWith, ih]
  | element tag inner next ihInner ihNext =>
    rw [graft, render, mergeWith, ihNext]
    congr 1
    cases region : Region.resolve skeleton tag.regionSync? with
    | own => rw [decided_of_own region]
    | recurse => rw [decided_of_recurse region, ihInner]
    | counterpart =>
      rw [decided_of_counterpart region]
      cases found : counterpart.find? tag.name with
      | none => rw [supplied_of_none found]
      | some other =>
        rw [supplied_of_some found]
        by_cases closed : tag.isSelfClosing = true
        · rw [if_pos closed]
          simp only [if_pos closed]
          rfl
        · rw [if_neg closed]
          simp only [if_neg closed]
          rfl

/-! ### What a graft depends on -/

/-- **Counterparts that supply the same** give the same graft. -/
theorem graft_congr {other forest : Forest}
    (same : ∀ item ∈ forest.requests skeleton, counterpart.supplied item = other.supplied item) :
    graft skeleton counterpart forest = graft skeleton other forest := by
  induction forest with
  | empty => rfl
  | text content next ih => rw [graft, graft, ih same]
  | element tag inner next ihInner ihNext =>
    rw [requests] at same
    have later := ihNext fun item member => same item (List.mem_append_right _ member)
    have here : decided skeleton counterpart ⟨tag, inner⟩ (graft skeleton counterpart inner) =
        decided skeleton other ⟨tag, inner⟩ (graft skeleton other inner) := by
      cases region : Region.resolve skeleton tag.regionSync? with
      | own => rw [decided_of_own region, decided_of_own region]
      | recurse =>
        have inside := ihInner fun item member =>
          same item (List.mem_append_left _ (mem_requested.mpr (Or.inl ⟨region, member⟩)))
        rw [decided_of_recurse region, decided_of_recurse region, inside]
      | counterpart =>
        rw [decided_of_counterpart region, decided_of_counterpart region]
        exact same _ (List.mem_append_left _ (mem_requested.mpr (Or.inr ⟨region, rfl⟩)))
    rw [graft, graft, later, here]

/-- A region without a directive is walked into. -/
theorem regionSync?_of_resolve {directive : Option RegionSync}
    (asks : Region.resolve skeleton directive = .counterpart) : directive ≠ none := by
  rintro rfl
  cases skeleton <;> cases asks

theorem decided_of_found {item : Element} {walked : Forest} (stays : walked = item.inner)
    (self : item.tag.regionSync? ≠ none → counterpart.find? item.tag.name = some item) :
    decided skeleton counterpart item walked = item := by
  cases region : Region.resolve skeleton item.tag.regionSync? with
  | own => exact decided_of_own region walked
  | recurse => rw [decided_of_recurse region, stays]
  | counterpart =>
    rw [decided_of_counterpart region]
    exact supplied_of_self (self (regionSync?_of_resolve region))

/-- **Where every region finds itself, the skeleton stays as it is.** -/
theorem graft_of_found {forest : Forest}
    (self : ∀ item ∈ forest.elements, item.tag.regionSync? ≠ none →
      counterpart.find? item.tag.name = some item) :
    graft skeleton counterpart forest = forest := by
  induction forest with
  | empty => rfl
  | text content next ih => rw [graft, ih self]
  | element tag inner next ihInner ihNext =>
    have inside := ihInner fun item member =>
      self item (List.mem_cons_of_mem _ (List.mem_append_left _ member))
    have later := ihNext fun item member =>
      self item (List.mem_cons_of_mem _ (List.mem_append_right _ member))
    rw [graft, decided_of_found inside (self ⟨tag, inner⟩ List.mem_cons_self), later]

/-! ### Offsets play no part -/

theorem render_of_bare {item other : Element} (same : item.bare = other.bare) :
    item.render = other.render := by
  obtain ⟨sameTag, sameInner⟩ := Prod.mk.inj same
  have opens := congrArg Tag.openMarker sameTag
  have closes := congrArg Tag.closeMarker sameTag
  change item.tag.openMarker = other.tag.openMarker at opens
  change item.tag.closeMarker = other.tag.closeMarker at closes
  show item.tag.openMarker ++ item.innerText ++ item.tag.closeMarker = _
  rw [opens, sameInner, closes]
  rfl

/-- What is supplied is written in the same way whether the counterpart is settled or not. -/
theorem render_supplied_settle (offset : Nat) (counterpart : Forest) (item : Element) :
    ((counterpart.settle offset).supplied item).render = (counterpart.supplied item).render := by
  have same := find?_settle offset counterpart item.tag.name
  cases found : counterpart.find? item.tag.name with
  | none =>
    rw [found, Option.map_none, Option.map_eq_none_iff] at same
    rw [supplied_of_none found, supplied_of_none same]
  | some other =>
    rw [found, Option.map_some, Option.map_eq_some_iff] at same
    obtain ⟨settled, again, bare⟩ := same
    rw [supplied_of_some found, supplied_of_some again]
    split
    · exact render_of_bare bare
    · exact congrArg item.tag.around (Prod.mk.inj bare).2

/-- A merge with a settled counterpart. -/
theorem mergeWith_settle_counterpart (offset : Nat) (forest : Forest) :
    mergeWith skeleton (counterpart.settle offset) forest =
      mergeWith skeleton counterpart forest := by
  rw [← render_graft, ← render_graft]
  induction forest with
  | empty => rfl
  | text content next ih => rw [graft, graft, render, render, ih]
  | element tag inner next ihInner ihNext =>
    rw [graft, graft, render, render, ihNext]
    congr 1
    cases region : Region.resolve skeleton tag.regionSync? with
    | own => rw [decided_of_own region, decided_of_own region]
    | recurse => rw [decided_of_recurse region, decided_of_recurse region, ihInner]
    | counterpart =>
      rw [decided_of_counterpart region, decided_of_counterpart region]
      exact render_supplied_settle offset counterpart ⟨tag, inner⟩

theorem mergeWith_prependText (content : Text) (forest : Forest) :
    mergeWith skeleton counterpart (forest.prependText content) =
      content ++ mergeWith skeleton counterpart forest := by
  cases forest <;> simp [prependText, mergeWith]

/-- A merge with a settled skeleton. -/
theorem mergeWith_settle (offset : Nat) (forest : Forest) :
    mergeWith skeleton counterpart (forest.settle offset) =
      mergeWith skeleton counterpart forest := by
  induction forest generalizing offset with
  | empty => rfl
  | text content next ih =>
    rw [settle]
    split
    · rename_i none
      rw [ih, mergeWith, none, List.nil_append]
    · rw [mergeWith_prependText, ih, mergeWith]
  | element tag inner next ihInner ihNext =>
    rw [settle, mergeWith, mergeWith, ihInner, ihNext, render_settle]
    rfl

end Forest

/-! ### The two versions of a merge -/

/-- The version that the skeleton is, of a fresh and an existing one. -/
def Skeleton.own {α : Type} : Skeleton → (fresh existing : α) → α
  | .fresh, first, _ => first
  | .existing, _, second => second

/-- The version that the counterpart is, of a fresh and an existing one. -/
def Skeleton.other {α : Type} : Skeleton → (fresh existing : α) → α
  | .fresh, _, second => second
  | .existing, first, _ => first

theorem Skeleton.own_of {α : Type} {holds : α → Prop} (skeleton : Skeleton) {fresh existing : α}
    (ofFresh : holds fresh) (ofExisting : holds existing) :
    holds (skeleton.own fresh existing) := by
  cases skeleton with
  | fresh => exact ofFresh
  | existing => exact ofExisting

theorem Skeleton.other_of {α : Type} {holds : α → Prop} (skeleton : Skeleton) {fresh existing : α}
    (ofFresh : holds fresh) (ofExisting : holds existing) :
    holds (skeleton.other fresh existing) := by
  cases skeleton with
  | fresh => exact ofExisting
  | existing => exact ofFresh

namespace Merge

variable {delimiter fresh existing : Text} {requested : SyncMode} {skeleton : Skeleton}
  {freshForest existingForest : Forest}

theorem forests_eq (skeleton : Skeleton) (fresh existing : Forest) :
    forests skeleton fresh existing =
      (Forest.graft skeleton (skeleton.other fresh existing)
        (skeleton.own fresh existing)).render := by
  rw [Forest.render_graft]
  cases skeleton <;> rfl

/-- **A merge of two texts that can be read** always gives a text, that of the graft. -/
theorem sync_eq_graft
    (planned : Plan.ofMode (modeFor delimiter existing requested) = .merge skeleton)
    (readFresh : Forest.parse delimiter fresh = .ok freshForest)
    (readExisting : Forest.parse delimiter existing = .ok existingForest) :
    sync delimiter fresh existing requested =
      .ok (Forest.graft skeleton (skeleton.other freshForest existingForest)
        (skeleton.own freshForest existingForest)).render := by
  rw [sync, planned, readFresh, readExisting, ← forests_eq]
  rfl

end Merge

end Scaffold
