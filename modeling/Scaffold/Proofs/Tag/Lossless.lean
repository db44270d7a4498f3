/-
**Nothing of a text is lost when it is read.**

`parse_lossless`: a forest that was read is written as the text it was read from; each of its
elements, at any depth, is found in the text at the offset of its tag; and the offsets grow in
document order. The last two hold of every forest whose tags are placed (`Placed.mem_elements`,
`Placed.pairwise_offset`), and reading places them.
-/

import Scaffold.Proofs.Tag.RoundTrip

namespace Scaffold.Forest

variable {delimiter : Text}

/-! ### Elements of placed forests -/

/-- **Every element of a placed forest is at its offset**, between the text before it and the text
after it. -/
theorem Placed.mem_elements {offset : Nat} {forest : Forest} (placed : forest.Placed offset)
    {item : Element} (member : item ∈ forest.elements) :
    ∃ before after, forest.render = before ++ item.render ++ after ∧
      item.tag.offset = offset + Text.size before := by
  induction forest generalizing offset with
  | empty => cases member
  | text content next ih =>
    obtain ⟨before, after, split, place⟩ := ih placed member
    refine ⟨content ++ before, after, ?_, ?_⟩
    · rw [render, split, List.append_assoc, List.append_assoc, List.append_assoc]
    · rw [place, Text.size_append, Nat.add_assoc]
  | element tag inner next ihInner ihNext =>
    obtain ⟨here, placedInner, placedNext⟩ := placed
    rcases List.mem_cons.mp member with rfl | member
    · exact ⟨[], next.render, rfl, here⟩
    · rcases List.mem_append.mp member with inside | later
      · obtain ⟨before, after, split, place⟩ := ihInner placedInner inside
        refine ⟨tag.openMarker ++ before, after ++ tag.closeMarker ++ next.render, ?_, ?_⟩
        · rw [render, Tag.around, split]
          simp only [List.append_assoc]
        · rw [place, Text.size_append, Nat.add_assoc]
      · obtain ⟨before, after, split, place⟩ := ihNext placedNext later
        refine ⟨tag.around inner.render ++ before, after, ?_, ?_⟩
        · rw [render, split]
          simp only [List.append_assoc]
        · rw [place, Text.size_append, Nat.add_assoc]

/-- The elements of a placed forest lie between its ends. -/
theorem Placed.offset_bounds {offset : Nat} {forest : Forest} (placed : forest.Placed offset)
    {item : Element} (member : item ∈ forest.elements) :
    offset ≤ item.tag.offset ∧
      item.tag.offset + item.render.size ≤ offset + forest.render.size := by
  obtain ⟨before, after, split, place⟩ := placed.mem_elements member
  rw [split, place, Text.size_append, Text.size_append]
  omega

/-- **Offsets grow in document order**, if no open marker is empty. -/
theorem Placed.pairwise_offset {offset : Nat} {forest : Forest} (placed : forest.Placed offset)
    (filled : ∀ item ∈ forest.elements, item.tag.openMarker ≠ []) :
    (forest.elements.map fun item => item.tag.offset).Pairwise (· < ·) := by
  induction forest generalizing offset with
  | empty => exact List.Pairwise.nil
  | text content next ih => exact ih placed filled
  | element tag inner next ihInner ihNext =>
    obtain ⟨here, placedInner, placedNext⟩ := placed
    have filledHere : 0 < tag.openMarker.size :=
      Text.size_pos (filled ⟨tag, inner⟩ List.mem_cons_self)
    have filledInner : ∀ item ∈ inner.elements, item.tag.openMarker ≠ [] := fun item inside =>
      filled item (List.mem_cons_of_mem _ (List.mem_append_left _ inside))
    have filledNext : ∀ item ∈ next.elements, item.tag.openMarker ≠ [] := fun item later =>
      filled item (List.mem_cons_of_mem _ (List.mem_append_right _ later))
    have whole : (tag.around inner.render).size =
        tag.openMarker.size + inner.render.size + tag.closeMarker.size := by
      rw [Tag.around, Text.size_append, Text.size_append]
    rw [elements, List.map_cons, List.map_append, List.pairwise_cons, List.pairwise_append]
    refine ⟨fun place member => ?_, ihInner placedInner filledInner, ihNext placedNext filledNext,
      fun first inInner second inNext => ?_⟩
    · show tag.offset < place
      rw [here]
      rcases List.mem_append.mp member with inside | later
      · obtain ⟨item, found, rfl⟩ := List.mem_map.mp inside
        have bounds := placedInner.offset_bounds found
        omega
      · obtain ⟨item, found, rfl⟩ := List.mem_map.mp later
        have bounds := placedNext.offset_bounds found
        omega
    · obtain ⟨item, inside, rfl⟩ := List.mem_map.mp inInner
      obtain ⟨other, later, rfl⟩ := List.mem_map.mp inNext
      have boundsInner := placedInner.offset_bounds inside
      have boundsNext := placedNext.offset_bounds later
      have filledItem := Text.size_pos (filledInner item inside)
      have inItem : item.render.size =
          item.tag.openMarker.size + item.inner.render.size + item.tag.closeMarker.size := by
        rw [Element.render, Tag.around, Text.size_append, Text.size_append]
      omega

/-! ### Forests that were read -/

/-- The open marker of an element that fits is a line. -/
theorem Fits.isLine_openMarker {outer : List Text} {forest : Forest}
    (fits : Fits delimiter outer forest) {item : Element} (member : item ∈ forest.elements) :
    item.tag.openMarker.IsLine := by
  rcases (fits.of_mem member).1 with ⟨isLeaf, _⟩ | isPair
  · exact isLeaf.openLine
  · exact isPair.openLine

/-- And it is one of the rows of the forest. -/
theorem Fits.openMarker_mem_rows {outer : List Text} {forest : Forest}
    (fits : Fits delimiter outer forest) {item : Element} (member : item ∈ forest.elements) :
    item.tag.openMarker ∈ forest.rows := by
  induction forest generalizing outer with
  | empty => cases member
  | text content next ih =>
    cases fits with
    | text _ fitsNext => exact List.mem_append_right _ (ih fitsNext member)
  | element tag inner next ihInner ihNext =>
    have openLine : tag.openMarker.IsLine := fits.isLine_openMarker List.mem_cons_self
    obtain ⟨_, fitsInner, fitsNext⟩ := fits_element.mp fits
    rw [rows, openLine, List.singleton_append, List.mem_cons, List.mem_append, List.mem_append]
    rcases List.mem_cons.mp member with rfl | member
    · exact Or.inl rfl
    · rcases List.mem_append.mp member with inside | later
      · exact Or.inr (Or.inl (ihInner fitsInner inside))
      · exact Or.inr (Or.inr (Or.inr (ihNext fitsNext later)))

theorem placed_of_parse {content : Text} {forest : Forest}
    (read : parse delimiter content = .ok forest) : forest.Placed 0 := by
  rw [← settle_of_parse read]
  exact placed_settle 0 forest

/-- The offsets of a forest that was read grow in document order. -/
theorem pairwise_offset_of_parse {content : Text} {forest : Forest}
    (read : parse delimiter content = .ok forest) :
    (forest.elements.map fun item => item.tag.offset).Pairwise (· < ·) :=
  (placed_of_parse read).pairwise_offset fun _ member =>
    ((fits_of_parse read).1.isLine_openMarker member).ne_nil

/-- **Reading a text loses nothing.** The forest is written as the text; every element, its markers
and what is between them, stands in the text at its offset; and the offsets grow in document
order. -/
theorem parse_lossless {content : Text} {forest : Forest}
    (read : parse delimiter content = .ok forest) :
    forest.render = content ∧
      (∀ item ∈ forest.elements, ∃ before after,
        content = before ++ item.render ++ after ∧ item.tag.offset = Text.size before) ∧
      (forest.elements.map fun item => item.tag.offset).Pairwise (· < ·) := by
  have same := render_of_parse read
  have placed := placed_of_parse read
  refine ⟨same, fun item member => ?_, pairwise_offset_of_parse read⟩
  obtain ⟨before, after, split, place⟩ := placed.mem_elements member
  exact ⟨before, after, same ▸ split, by rw [place, Nat.zero_add]⟩

/-- Nested elements, one that closes itself, a stray close marker and a last line without a line
feed. -/
theorem parse_lossless_nested : ∃ content forest,
    content = "é\n//<a k=\"v\">\n//</p>\n  //<b sync=\"Full\" />\n//</a>\ntail".toList ∧
      parse "//".toList content = .ok forest ∧
      forest.elements.map (fun item => item.tag.offset) = [3, 22] ∧ forest.render = content ∧
      (∀ item ∈ forest.elements, ∃ before after,
        content = before ++ item.render ++ after ∧ item.tag.offset = Text.size before) := by
  have found : ((parse "//".toList
      "é\n//<a k=\"v\">\n//</p>\n  //<b sync=\"Full\" />\n//</a>\ntail".toList).toOption.map
        fun forest => forest.elements.map fun item => item.tag.offset) = some [3, 22] := by
    decide +kernel
  obtain ⟨forest, read, places⟩ := Option.map_eq_some_iff.mp found
  have lossless := parse_lossless (toOption_parse_eq_some_iff.mp read)
  exact ⟨_, forest, rfl, toOption_parse_eq_some_iff.mp read, places, lossless.1, lossless.2.1⟩

end Scaffold.Forest
