/-
**The order in which the elements of a text are met.**

The open markers of a text are looked for line by line, with no forest in mind. If the text is a
forest, they come in the order of its elements, parents before their children. In that order

* `yields_elements`: the elements are met with a stack of the forests still to be walked through;
* `find?_eq_some_iff`: the offsets grow, so the first element of a name is the one furthest to the
  front;
* `openMarkers_agree`: names, attributes and the modes of the file are the same on both sides.
-/

import Scaffold.Proofs.Tag.Declared
import Scaffold.Proofs.Tag.Lossless

namespace Scaffold.Forest

variable {delimiter : Text}

/-! ### Walking with a stack -/

/-- The next element of the forests that are pending, and what is pending after it: first its
inside, then what follows it. -/
def nextElement? : (pending : List Forest) → Option (Element × List Forest)
  | [] => none
  | empty :: outer => nextElement? outer
  | text _ next :: outer => nextElement? (next :: outer)
  | element tag inner next :: outer => some (⟨tag, inner⟩, inner :: next :: outer)

/-- Asking for the next element until there is none gives these elements. -/
inductive Yields : (pending : List Forest) → List Element → Prop
  | done {pending : List Forest} (ended : nextElement? pending = none) : Yields pending []
  | more {pending rest : List Forest} {item : Element} {items : List Element}
      (found : nextElement? pending = some (item, rest)) (others : Yields rest items) :
      Yields pending (item :: items)

theorem flatMap_of_nextElement?_none {pending : List Forest} (ended : nextElement? pending = none) :
    pending.flatMap elements = [] := by
  fun_induction nextElement? pending with
  | case1 => rfl
  | case2 outer ih => exact ih ended
  | case3 outer content next ih => exact ih ended
  | case4 => cases ended

/-- One step takes one element off the front. -/
theorem flatMap_of_nextElement? {pending rest : List Forest} {item : Element}
    (found : nextElement? pending = some (item, rest)) :
    pending.flatMap elements = item :: rest.flatMap elements := by
  fun_induction nextElement? pending with
  | case1 => cases found
  | case2 outer ih => exact ih found
  | case3 outer content next ih => exact ih found
  | case4 tag inner next outer =>
    cases found
    simp [elements]

/-- **Every walk ends**, and it has met the elements of what was pending. -/
theorem yields_flatMap (pending : List Forest) : Yields pending (pending.flatMap elements) := by
  -- the induction is on the elements that are left, since a step makes the stack longer
  generalize all : pending.flatMap elements = items
  induction items generalizing pending with
  | nil =>
    refine .done ?_
    cases found : nextElement? pending with
    | none => rfl
    | some step => cases (flatMap_of_nextElement? found).symm.trans all
  | cons item items ih =>
    cases found : nextElement? pending with
    | none => cases (flatMap_of_nextElement?_none found).symm.trans all
    | some step =>
      obtain ⟨first, rest⟩ := step
      obtain ⟨rfl, others⟩ := List.cons.inj ((flatMap_of_nextElement? found).symm.trans all)
      exact .more found (ih rest others)

theorem yields_elements (forest : Forest) : Yields [forest] forest.elements := by
  have walk := yields_flatMap [forest]
  rwa [List.flatMap_singleton] at walk

/-! ### First and furthest to the front -/

/-- Where offsets grow, the first of some elements is the one with the smallest offset. -/
theorem find?_eq_some_iff_of_pairwise {items : List Element} {item : Element}
    {wanted : Element → Bool}
    (grow : (items.map fun item => item.tag.offset).Pairwise (· < ·)) :
    items.find? wanted = some item ↔ item ∈ items ∧ wanted item = true ∧
      ∀ other ∈ items, wanted other = true → item.tag.offset ≤ other.tag.offset := by
  induction items with
  | nil => simp
  | cons first items ih =>
    obtain ⟨before, growRest⟩ := List.pairwise_cons.mp grow
    have beyond : ∀ other ∈ items, first.tag.offset < other.tag.offset := fun other member =>
      before _ (List.mem_map_of_mem member)
    by_cases isFirst : wanted first = true
    · rw [List.find?_cons_of_pos isFirst]
      constructor
      · rintro ⟨⟩
        refine ⟨List.mem_cons_self, isFirst, fun other member _ => ?_⟩
        rcases List.mem_cons.mp member with rfl | member
        · exact Nat.le_refl _
        · exact Nat.le_of_lt (beyond other member)
      · rintro ⟨member, -, least⟩
        rcases List.mem_cons.mp member with rfl | member
        · rfl
        · have := least first List.mem_cons_self isFirst
          exact absurd (beyond item member) (Nat.not_lt.mpr this)
    · rw [List.find?_cons_of_neg isFirst, ih growRest]
      constructor
      · rintro ⟨member, isWanted, least⟩
        exact ⟨List.mem_cons_of_mem _ member, isWanted,
          List.forall_mem_cons.mpr ⟨fun wantedFirst => absurd wantedFirst isFirst, least⟩⟩
      · rintro ⟨member, isWanted, least⟩
        rcases List.mem_cons.mp member with rfl | member
        · exact absurd isWanted isFirst
        · exact ⟨member, isWanted, (List.forall_mem_cons.mp least).2⟩

/-- **A name is looked up** by the smallest offset. -/
theorem find?_eq_some_iff {content : Text} {forest : Forest}
    (read : parse delimiter content = .ok forest) {name : Text} {item : Element} :
    forest.find? name = some item ↔ item ∈ forest.elements ∧ item.tag.name = name ∧
      ∀ other ∈ forest.elements, other.tag.name = name → item.tag.offset ≤ other.tag.offset := by
  rw [find?, find?_eq_some_iff_of_pairwise (pairwise_offset_of_parse read)]
  simp only [beq_iff_eq]

/-- **The lines of a text and its forest agree** on its open markers, in their order. -/
theorem openMarkers_agree {content : Text} {forest : Forest}
    (read : parse delimiter content = .ok forest) :
    Tag.openMarkers delimiter content =
      forest.elements.map (fun item => (item.tag.name, item.tag.attributes)) ∧
    Yields [forest] forest.elements ∧
    Tag.fileSyncMode? delimiter content =
      forest.elements.findSome? (fun item => (item.attribute? Tag.syncKey).bind Named.ofWord?) ∧
    Tag.fileGenMode? delimiter content =
      forest.elements.findSome? (fun item => (item.attribute? Tag.genKey).bind Named.ofWord?) ∧
    ∀ name item, forest.find? name = some item ↔ item ∈ forest.elements ∧ item.tag.name = name ∧
      ∀ other ∈ forest.elements, other.tag.name = name → item.tag.offset ≤ other.tag.offset := by
  have fits := (fits_of_parse read).1
  have isLined := (isSealed_of_parse read False.elim).isLined
  refine ⟨openMarkers_of_parse read, yields_elements forest, ?_, ?_,
    fun _ _ => find?_eq_some_iff read⟩
  · rw [← render_of_parse read]
    exact firstValue?_render fits isLined SyncMode Tag.syncKey
  · rw [← render_of_parse read]
    exact firstValue?_render fits isLined GenMode Tag.genKey

/-- A value that is not known before one that is, and a name that comes twice. -/
theorem openMarkers_agree_twice : ∃ content forest,
    content = ("#<a sync=\"Never\">\n#<b gen=\"Skip\"/>\n#</a>\n" ++
      "#<b sync=\"Full\" gen=\"Force\">\n#</c>\n#</b>\n").toList ∧
      parse "#".toList content = .ok forest ∧
      (forest.elements.map fun item => item.tag.name) = ["a".toList, "b".toList, "b".toList] ∧
      Yields [forest] forest.elements ∧
      forest.elements.findSome? (fun item => (item.attribute? Tag.syncKey).bind Named.ofWord?) =
        some SyncMode.full ∧
      forest.elements.findSome? (fun item => (item.attribute? Tag.genKey).bind Named.ofWord?) =
        some GenMode.skip ∧
      ∃ item ∈ forest.elements, item.tag.offset = 18 ∧
        ∀ other ∈ forest.elements, other.tag.name = "b".toList → 18 ≤ other.tag.offset := by
  have markers : (Tag.openMarkers "#".toList
      ("#<a sync=\"Never\">\n#<b gen=\"Skip\"/>\n#</a>\n" ++
        "#<b sync=\"Full\" gen=\"Force\">\n#</c>\n#</b>\n").toList).map Prod.fst =
      ["a".toList, "b".toList, "b".toList] := by
    decide +kernel
  have found : (((parse "#".toList
      ("#<a sync=\"Never\">\n#<b gen=\"Skip\"/>\n#</a>\n" ++
        "#<b sync=\"Full\" gen=\"Force\">\n#</c>\n#</b>\n").toList).toOption.bind
          fun forest => forest.find? "b".toList).map fun item => item.tag.offset) = some 18 := by
    decide +kernel
  obtain ⟨item, named, place⟩ := Option.map_eq_some_iff.mp found
  obtain ⟨forest, read, first⟩ := Option.bind_eq_some_iff.mp named
  have parsed := toOption_parse_eq_some_iff.mp read
  obtain ⟨names, walk, sync, gen, lookup⟩ := openMarkers_agree parsed
  obtain ⟨member, -, least⟩ := (lookup _ _).mp first
  rw [names, List.map_map] at markers
  rw [place] at least
  exact ⟨_, forest, rfl, parsed, markers, walk, sync.symm.trans (by decide +kernel),
    gen.symm.trans (by decide +kernel), item, member, place, least⟩

end Scaffold.Forest
