/-
**Every region is a text of its own.**

Whether a close marker is structure or text depends on the tags that are open around it, and in a
region that is read alone fewer of them are. Nothing is read differently there: a close marker that
is text in the region names none of the tags around it, so it names none of those that are left.

* `settle_eq_mapOffset`: a forest that was read, read alone, is the same one further to the front;
* `parse_region`: the inside of an element is read as what is inside it, and the element with its
  markers as this element alone.
-/

import Scaffold.Proofs.Tag.WellFormed

namespace Scaffold.Forest

variable {delimiter : Text}

/-! ### Forests at another place -/

/-- The forest with other offsets. -/
def mapOffset (place : Nat → Nat) : Forest → Forest
  | empty => empty
  | text content next => text content (next.mapOffset place)
  | element tag inner next =>
    element { tag with offset := place tag.offset } (inner.mapOffset place) (next.mapOffset place)

@[simp] theorem startsPlain_mapOffset (place : Nat → Nat) (forest : Forest) :
    (forest.mapOffset place).startsPlain = forest.startsPlain := by
  cases forest <;> rfl

/-- The settled form of a forest, `start` bytes further to the front. -/
theorem settle_eq_mapOffset {start offset : Nat} {forest : Forest} (normal : forest.IsNormal)
    (placed : forest.Placed (start + offset)) :
    forest.settle offset = forest.mapOffset (· - start) := by
  induction forest generalizing offset with
  | empty => rfl
  | text content next ih =>
    obtain ⟨filled, apart, normalNext⟩ := normal
    rw [Placed, Nat.add_assoc] at placed
    rw [settle, if_neg filled, ih normalNext placed, prependText_of_not_startsPlain, mapOffset]
    rw [startsPlain_mapOffset, apart]
  | element tag inner next ihInner ihNext =>
    obtain ⟨here, placedInner, placedNext⟩ := placed
    rw [Nat.add_assoc] at placedInner placedNext
    have place : offset = tag.offset - start := by
      rw [here, Nat.add_sub_cancel_left]
    rw [settle, ihInner normal.1 placedInner, ihNext normal.2 placedNext, place]
    rfl

/-! ### Elements at any depth -/

theorem IsNormal.of_mem {forest : Forest} (normal : forest.IsNormal) {item : Element}
    (member : item ∈ forest.elements) : item.inner.IsNormal := by
  induction forest with
  | empty => cases member
  | text content next ih => exact ih normal.2.2 member
  | element tag inner next ihInner ihNext =>
    rcases List.mem_cons.mp member with rfl | member
    · exact normal.1
    · rcases List.mem_append.mp member with inside | after
      · exact ihInner normal.1 inside
      · exact ihNext normal.2 after

/-- What is inside an element starts after its open marker. -/
theorem Placed.of_mem {offset : Nat} {forest : Forest} (placed : forest.Placed offset)
    {item : Element} (member : item ∈ forest.elements) :
    item.inner.Placed (item.tag.offset + item.tag.openMarker.size) := by
  induction forest generalizing offset with
  | empty => cases member
  | text content next ih => exact ih placed member
  | element tag inner next ihInner ihNext =>
    obtain ⟨here, placedInner, placedNext⟩ := placed
    rcases List.mem_cons.mp member with rfl | member
    · rw [here]
      exact placedInner
    · rcases List.mem_append.mp member with inside | after
      · exact ihInner placedInner inside
      · exact ihNext placedNext after

/-- **A region is read alone** as it was read in the text, its inside as well as the whole of it;
only the places are counted from its start. -/
theorem parse_region {content : Text} {forest : Forest}
    (read : parse delimiter content = .ok forest) {item : Element}
    (member : item ∈ forest.elements) :
    parse delimiter item.innerText =
      .ok (item.inner.mapOffset (· - (item.tag.offset + item.tag.openMarker.size))) ∧
    parse delimiter item.render =
      .ok ((element item.tag item.inner .empty).mapOffset (· - item.tag.offset)) ∧
    ∀ other ∈ item.inner.elements,
      item.tag.offset + item.tag.openMarker.size ≤ other.tag.offset := by
  obtain ⟨fits, -⟩ := fits_of_parse read
  obtain ⟨marked, around, fitsInner⟩ := fits.of_mem member
  have normal := (settle_of_parse read ▸ normal_settle 0 forest).of_mem member
  have placed := (placed_of_parse read).of_mem member
  have isSealed := (isSealed_of_parse read False.elim).of_mem fits member
  refine ⟨?_, ?_, fun other inside => (placed.offset_bounds inside).1⟩
  · have fitsAlone : Fits delimiter [] item.inner :=
      fitsInner.move (show item.tag.name :: around = [] ++ _ from rfl) fun _ _ => List.not_mem_nil
    have first : item.inner.Placed (item.tag.offset + item.tag.openMarker.size + 0) := placed
    rw [Element.innerText, parse_render fitsAlone (isSealed_inner marked isSealed).isLined,
      settle_eq_mapOffset normal first]
  · have fitsOwn : Fits delimiter [item.tag.name] item.inner :=
      fitsInner.move (show item.tag.name :: around = [item.tag.name] ++ around from rfl)
        fun _ _ => List.not_mem_nil
    have fitsAlone : Fits delimiter [] (element item.tag item.inner .empty) :=
      fits_element.mpr ⟨marked, fitsOwn, .empty⟩
    have sealedAlone : (element item.tag item.inner .empty).IsSealed False :=
      isSealed_element.mpr ⟨isSealed.mono (Or.rec id (absurd rfl)), Text.sealed_nil False⟩
    have normalAlone : (element item.tag item.inner .empty).IsNormal := ⟨normal, trivial⟩
    have first : (element item.tag item.inner .empty).Placed (item.tag.offset + 0) :=
      ⟨rfl, placed, trivial⟩
    have written : (element item.tag item.inner .empty).render = item.render := List.append_nil _
    rw [← written, parse_render fitsAlone sealedAlone.isLined,
      settle_eq_mapOffset normalAlone first]

/-- An element inside another one, with a stray close marker in it and an element that closes
itself. -/
theorem parse_region_nested : ∃ content forest item,
    content = ("é\n//<a k=\"1\">\n//<b k=\"2\">\n//</q>\n" ++
      " //<c k=\"3\"/>\n//</b>\n//</a>\n").toList ∧
      parse "//".toList content = .ok forest ∧ item ∈ forest.elements ∧
      item.innerText = "//</q>\n //<c k=\"3\"/>\n".toList ∧
      (item.tag.offset, item.tag.openMarker.size,
        item.inner.elements.map fun other => other.tag.offset) = (15, 12, [34]) ∧
      parse "//".toList "//</q>\n //<c k=\"3\"/>\n".toList =
        .ok (item.inner.mapOffset (· - 27)) ∧
      parse "//".toList item.render =
        .ok ((element item.tag item.inner .empty).mapOffset (· - 15)) := by
  have found : (((parse "//".toList ("é\n//<a k=\"1\">\n//<b k=\"2\">\n//</q>\n" ++
      " //<c k=\"3\"/>\n//</b>\n//</a>\n").toList).toOption.bind
        fun forest => forest.find? "b".toList).map fun item =>
          (item.innerText, item.tag.offset, item.tag.openMarker.size,
            item.inner.elements.map fun other => other.tag.offset)) =
      some ("//</q>\n //<c k=\"3\"/>\n".toList, 15, 12, [34]) := by
    decide +kernel
  obtain ⟨item, named, parts⟩ := Option.map_eq_some_iff.mp found
  obtain ⟨forest, read, first⟩ := Option.bind_eq_some_iff.mp named
  obtain ⟨inner, places⟩ := Prod.mk.inj parts
  obtain ⟨offset, rest⟩ := Prod.mk.inj places
  obtain ⟨size, -⟩ := Prod.mk.inj rest
  have member := List.mem_of_find?_eq_some first
  have parsed := toOption_parse_eq_some_iff.mp read
  obtain ⟨inside, whole, -⟩ := parse_region parsed member
  rw [inner, offset, size] at inside
  rw [offset] at whole
  exact ⟨_, forest, item, rfl, parsed, member, inner, places, inside, whole⟩

end Scaffold.Forest
