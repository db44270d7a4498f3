/-
**Forests laid out as rows.**

A forest is written as rows: the lines of its plain pieces and its marker lines. Three properties of
a forest, each by its structure alone, say when reading these rows gives the forest back:

* `Fits delimiter outer`: every marker line is what its tag says, and every plain line is text
  where the names `outer` and those of the elements around it are open;
* `IsLined`: no two rows share a line, and `IsSealed`: not even with what stands after them;
* `Placed offset`: the offsets of the tags are the places of their open markers.

`settle` gives a forest the form in which it is read: neighbouring plain pieces joined, tags placed.
Its elements are those of the forest, up to their offsets (`map_bare_elements_settle`).
-/

import Scaffold.Proofs.Tag.Reading
import Scaffold.Proofs.Text.Lines

namespace Scaffold

namespace Tag

/-- The tag has one marker, a line that closes itself. -/
structure IsLeaf (delimiter : Text) (tag : Tag) : Prop where
  openLine : Text.IsLine tag.openMarker
  opens : Marker.Reads delimiter tag.openMarker (some (.opening tag.name tag.attributes true))
  close : tag.closeMarker = []

/-- The tag has two markers, and both are lines of its name. -/
structure IsPair (delimiter : Text) (tag : Tag) : Prop where
  openLine : Text.IsLine tag.openMarker
  opens : Marker.Reads delimiter tag.openMarker (some (.opening tag.name tag.attributes false))
  closeLine : Text.IsLine tag.closeMarker
  closes : Marker.Reads delimiter tag.closeMarker (some (.closing tag.name))

end Tag

/-- The markers of the element are what its tag says. -/
def Element.IsMarked (delimiter : Text) (item : Element) : Prop :=
  item.tag.IsLeaf delimiter ∧ item.inner = .empty ∨ item.tag.IsPair delimiter

namespace Forest

/-! ### Rows -/

/-- The lines of the plain pieces and the markers, in order. -/
def rows : Forest → List Text
  | empty => []
  | text content next => content.lines ++ next.rows
  | element tag inner next =>
    tag.openMarker.lines ++ (inner.rows ++ (tag.closeMarker.lines ++ next.rows))

@[simp] theorem flatten_rows (forest : Forest) : forest.rows.flatten = forest.render := by
  induction forest with
  | empty => rfl
  | text content next ih => simp [rows, render, Text.lines_flatten, ih]
  | element tag inner next ihInner ihNext =>
    simp [rows, render, Tag.around, Text.lines_flatten, ihInner, ihNext]

/-- No two rows share a line. -/
def IsLined (forest : Forest) : Prop := Text.Lined forest.rows

theorem IsLined.lines_render {forest : Forest} (lined : forest.IsLined) :
    forest.render.lines = forest.rows := by
  rw [← flatten_rows]
  exact lined

/-- No two rows share a line, and if something stands after the forest, its last line is complete
too. -/
def IsSealed (followed : Prop) (forest : Forest) : Prop := Text.Sealed followed forest.rows

theorem IsSealed.isLined {followed : Prop} {forest : Forest} (isSealed : forest.IsSealed followed) :
    forest.IsLined :=
  isSealed.1

end Forest

/-- The lines of an element. -/
def Element.rows (item : Element) : List Text :=
  item.tag.openMarker.lines ++ (item.inner.rows ++ item.tag.closeMarker.lines)

@[simp] theorem Element.flatten_rows (item : Element) : item.rows.flatten = item.render := by
  simp [Element.rows, Element.render, Tag.around, Text.lines_flatten]

/-- The same for an element alone. -/
def Element.IsSealed (followed : Prop) (item : Element) : Prop := Text.Sealed followed item.rows

namespace Forest

theorem rows_element (tag : Tag) (inner next : Forest) :
    (element tag inner next).rows = (Element.mk tag inner).rows ++ next.rows := by
  simp [Element.rows, rows]

theorem isSealed_text {followed : Prop} {content : Text} {next : Forest} :
    (text content next).IsSealed followed ↔
      ((followed ∨ next.rows ≠ []) → content.IsClosed) ∧ next.IsSealed followed := by
  rw [IsSealed, rows, Text.sealed_append, Text.sealed_lines]
  exact Iff.rfl

/-- **A forest is sealed** if its first element is, with what follows it, and the rest is. -/
theorem isSealed_element {followed : Prop} {tag : Tag} {inner next : Forest} :
    (element tag inner next).IsSealed followed ↔
      (Element.mk tag inner).IsSealed (followed ∨ next.rows ≠ []) ∧ next.IsSealed followed := by
  rw [IsSealed, rows_element, Text.sealed_append]
  exact Iff.rfl

variable {delimiter : Text}

/-- An element with two markers is sealed if the markers are, and its inside is. -/
theorem isSealed_of_isPair {followed : Prop} {tag : Tag} (isPair : tag.IsPair delimiter)
    {inner : Forest} :
    (Element.mk tag inner).IsSealed followed ↔
      tag.openMarker.IsClosed ∧ inner.IsSealed True ∧ (followed → tag.closeMarker.IsClosed) := by
  rw [Element.IsSealed, Element.rows, Text.sealed_append, Text.sealed_append, isPair.openLine,
    isPair.closeLine, Text.sealed_singleton isPair.openLine, Text.sealed_singleton isPair.closeLine]
  simp [IsSealed]

/-- What is inside an element is sealed. -/
theorem isSealed_inner {followed : Prop} {item : Element} (marked : item.IsMarked delimiter)
    (isSealed : item.IsSealed followed) : item.inner.IsSealed True := by
  obtain ⟨tag, inner⟩ := item
  rcases marked with ⟨_, rfl⟩ | isPair
  · exact Text.sealed_nil True
  · exact ((isSealed_of_isPair isPair).mp isSealed).2.1

/-! ### Markers in their context -/

/-- Every marker line is what its tag says, and every other line is text where it stands. The names
`outer` are open around the forest. -/
inductive Fits (delimiter : Text) : (outer : List Text) → Forest → Prop
  | empty {outer : List Text} : Fits delimiter outer empty
  | text {outer : List Text} {content : Text} {next : Forest}
      (plain : ∀ line ∈ content.lines, Tag.Marker.IsPlain delimiter outer line)
      (fitsNext : Fits delimiter outer next) : Fits delimiter outer (text content next)
  | leaf {outer : List Text} {tag : Tag} {next : Forest} (isLeaf : tag.IsLeaf delimiter)
      (fitsNext : Fits delimiter outer next) : Fits delimiter outer (element tag .empty next)
  | pair {outer : List Text} {tag : Tag} {inner next : Forest} (isPair : tag.IsPair delimiter)
      (fitsInner : Fits delimiter (tag.name :: outer) inner)
      (fitsNext : Fits delimiter outer next) : Fits delimiter outer (element tag inner next)

/-- The names on the close markers that stand in the forest as text. -/
def strays (delimiter : Text) : Forest → List Text
  | empty => []
  | text content next =>
    content.lines.filterMap (Tag.Marker.closingName? delimiter) ++ next.strays delimiter
  | element _ inner next => inner.strays delimiter ++ next.strays delimiter

variable {delimiter : Text}

/-- **A forest fits where none of its stray close markers has a partner.** The names `shared` are
open around it in both places, the names `old` in the first one only. -/
theorem Fits.move {shared old outer : List Text} {forest : Forest}
    (fits : Fits delimiter outer forest) (split : outer = shared ++ old) {new : List Text}
    (apart : ∀ name ∈ forest.strays delimiter, name ∉ new) :
    Fits delimiter (shared ++ new) forest := by
  induction fits generalizing shared with
  | empty => exact .empty
  | @text outer content next plain fitsNext ih =>
    refine .text (fun line member => ?_)
      (ih split fun name inside => apart name (List.mem_append_right _ inside))
    rcases plain line member with reads | ⟨name, reads, absent⟩
    · exact Or.inl reads
    · refine Or.inr ⟨name, reads, fun present => ?_⟩
      rcases List.mem_append.mp present with inShared | inNew
      · exact absent (split ▸ List.mem_append_left _ inShared)
      · refine apart name (List.mem_append_left _ (List.mem_filterMap.mpr ⟨line, member, ?_⟩)) inNew
        exact Tag.Marker.closingName?_eq_some_iff.mpr reads
  | leaf isLeaf fitsNext ih => exact .leaf isLeaf (ih split apart)
  | @pair outer tag inner next isPair fitsInner fitsNext ihInner ihNext =>
    have opened : tag.name :: outer = (tag.name :: shared) ++ old := congrArg (tag.name :: ·) split
    refine .pair isPair (ihInner opened fun name inside => ?_) (ihNext split fun name inside => ?_)
    · exact apart name (List.mem_append_left _ inside)
    · exact apart name (List.mem_append_right _ inside)

theorem fits_element {outer : List Text} {tag : Tag} {inner next : Forest} :
    Fits delimiter outer (element tag inner next) ↔
      (Element.mk tag inner).IsMarked delimiter ∧ Fits delimiter (tag.name :: outer) inner ∧
        Fits delimiter outer next := by
  constructor
  · intro fits
    cases fits with
    | leaf isLeaf fitsNext => exact ⟨Or.inl ⟨isLeaf, rfl⟩, .empty, fitsNext⟩
    | pair isPair fitsInner fitsNext => exact ⟨Or.inr isPair, fitsInner, fitsNext⟩
  · rintro ⟨⟨isLeaf, rfl⟩ | isPair, fitsInner, fitsNext⟩
    · exact .leaf isLeaf fitsNext
    · exact .pair isPair fitsInner fitsNext

/-- **Every element has its markers**, and its inside fits somewhere. -/
theorem Fits.of_mem {outer : List Text} {forest : Forest} (fits : Fits delimiter outer forest)
    {item : Element} (member : item ∈ forest.elements) :
    item.IsMarked delimiter ∧ ∃ around, Fits delimiter (item.tag.name :: around) item.inner := by
  induction forest generalizing outer with
  | empty => cases member
  | text content next ih =>
    cases fits with
    | text _ fitsNext => exact ih fitsNext member
  | element tag inner next ihInner ihNext =>
    obtain ⟨marked, fitsInner, fitsNext⟩ := fits_element.mp fits
    rcases List.mem_cons.mp member with rfl | member
    · exact ⟨marked, outer, fitsInner⟩
    · rcases List.mem_append.mp member with inside | after
      · exact ihInner fitsInner inside
      · exact ihNext fitsNext after

/-- The elements of a sealed forest are sealed. -/
theorem IsSealed.of_mem {outer : List Text} {forest : Forest} {followed : Prop}
    (isSealed : forest.IsSealed followed) (fits : Fits delimiter outer forest) {item : Element}
    (member : item ∈ forest.elements) : item.IsSealed followed := by
  induction forest generalizing outer followed with
  | empty => cases member
  | text content next ih =>
    cases fits with
    | text _ fitsNext => exact ih (isSealed_text.mp isSealed).2 fitsNext member
  | element tag inner next ihInner ihNext =>
    obtain ⟨marked, fitsInner, fitsNext⟩ := fits_element.mp fits
    obtain ⟨sealedHere, sealedNext⟩ := isSealed_element.mp isSealed
    rcases List.mem_cons.mp member with rfl | member
    · exact sealedHere.mono Or.inl
    · rcases List.mem_append.mp member with inside | after
      · exact (ihInner (isSealed_inner marked sealedHere) fitsInner inside).mono fun _ => trivial
      · exact ihNext sealedNext fitsNext after

/-- A forest without rows has no elements. -/
theorem Fits.elements_eq_nil {outer : List Text} {forest : Forest}
    (fits : Fits delimiter outer forest) (none : forest.rows = []) : forest.elements = [] := by
  induction fits with
  | empty => rfl
  | text _ _ ih => exact ih (List.append_eq_nil_iff.mp none).2
  | leaf isLeaf _ _ =>
    have noMarker := (List.append_eq_nil_iff.mp none).1
    exact absurd (Text.lines_eq_nil.mp noMarker) isLeaf.openLine.ne_nil
  | pair isPair _ _ _ _ =>
    have noMarker := (List.append_eq_nil_iff.mp none).1
    exact absurd (Text.lines_eq_nil.mp noMarker) isPair.openLine.ne_nil

/-- No stray close marker names an element around it. -/
theorem Fits.apart {outer : List Text} {forest : Forest} (fits : Fits delimiter outer forest) :
    ∀ name ∈ forest.strays delimiter, name ∉ outer := by
  induction fits with
  | empty => exact fun _ member => nomatch member
  | @text outer content next plain fitsNext ih =>
    intro name member
    rcases List.mem_append.mp member with here | later
    · obtain ⟨line, inside, closing⟩ := List.mem_filterMap.mp here
      have reads := Tag.Marker.closingName?_eq_some_iff.mp closing
      rcases plain line inside with plainly | ⟨other, readsOther, absent⟩
      · cases reads.unique plainly
      · cases reads.unique readsOther
        exact absent
    · exact ih name later
  | leaf _ _ ih => exact ih
  | @pair outer tag inner next isPair fitsInner fitsNext ihInner ihNext =>
    intro name member
    rcases List.mem_append.mp member with inside | later
    · exact fun present => ihInner name inside (List.mem_cons_of_mem _ present)
    · exact ihNext name later

/-- A stray close marker inside an element is one of the forest. -/
theorem strays_subset {forest : Forest} {item : Element} (member : item ∈ forest.elements) :
    item.inner.strays delimiter ⊆ forest.strays delimiter := by
  induction forest with
  | empty => cases member
  | text content next ih =>
    intro name inside
    exact List.mem_append_right _ (ih member inside)
  | element tag inner next ihInner ihNext =>
    intro name inside
    rcases List.mem_cons.mp member with rfl | member
    · exact List.mem_append_left _ inside
    · rcases List.mem_append.mp member with within | after
      · exact List.mem_append_left _ (ihInner within inside)
      · exact List.mem_append_right _ (ihNext after inside)

/-- The inside of an element fits wherever its stray close markers have no partner. -/
theorem fits_inner_iff {name : Text} {old new : List Text} {inner : Forest}
    (fits : Fits delimiter (name :: old) inner) :
    Fits delimiter (name :: new) inner ↔ ∀ stray ∈ inner.strays delimiter, stray ∉ new := by
  constructor
  · intro moved stray member present
    exact moved.apart stray member (List.mem_cons_of_mem _ present)
  · exact fits.move (show name :: old = [name] ++ old from rfl)

/-- A line of text in front of a forest. -/
theorem Fits.prependText {outer : List Text} {forest : Forest} (fits : Fits delimiter outer forest)
    {line : Text} (isLine : line.IsLine) (seam : line.IsClosed ∨ forest.rows = [])
    (plain : Tag.Marker.IsPlain delimiter outer line) :
    Fits delimiter outer (forest.prependText line) ∧
      (forest.prependText line).rows = line :: forest.rows := by
  have alone : ∀ other ∈ line.lines, Tag.Marker.IsPlain delimiter outer other := by
    intro other member
    rw [isLine, List.mem_singleton] at member
    rw [member]
    exact plain
  have front : ∀ next : Forest, (Forest.text line next).rows = line :: next.rows := fun next => by
    rw [rows, isLine]
    rfl
  cases fits with
  | empty => exact ⟨.text alone .empty, front _⟩
  | @text _ content next plainContent fitsNext =>
    have joined : (line ++ content).lines = line :: content.lines := by
      rcases seam with closed | none
      · rw [Text.lines_append closed, isLine]
        rfl
      · have nothing := Text.lines_eq_nil.mp (List.append_eq_nil_iff.mp none).1
        rw [nothing, List.append_nil, isLine]
        rfl
    refine ⟨.text (fun other member => ?_) fitsNext, ?_⟩
    · rw [joined] at member
      rcases List.mem_cons.mp member with rfl | member
      · exact plain
      · exact plainContent other member
    · show (Forest.text (line ++ content) next).rows = _
      rw [rows, joined]
      rfl
  | leaf isLeaf fitsNext => exact ⟨.text alone (.leaf isLeaf fitsNext), front _⟩
  | pair isPair fitsInner fitsNext => exact ⟨.text alone (.pair isPair fitsInner fitsNext), front _⟩

/-! ### Places -/

/-- The offset of every tag is the place of its open marker, in a text where the forest starts at
`offset`. -/
def Placed : (offset : Nat) → Forest → Prop
  | _, empty => True
  | offset, text content next => next.Placed (offset + content.size)
  | offset, element tag inner next =>
    tag.offset = offset ∧ inner.Placed (offset + tag.openMarker.size) ∧
      next.Placed (offset + (tag.around inner.render).size)

theorem placed_prependText {offset : Nat} {content : Text} {forest : Forest} :
    (forest.prependText content).Placed offset ↔ forest.Placed (offset + content.size) := by
  cases forest with
  | text more next => rw [prependText, Placed, Placed, Text.size_append, Nat.add_assoc]
  | empty => exact Iff.rfl
  | element tag inner next => exact Iff.rfl

/-! ### The form in which a forest is read -/

/-- The forest with neighbouring plain pieces joined, empty ones left out, and every tag placed. -/
def settle : (offset : Nat) → Forest → Forest
  | _, empty => empty
  | offset, text content next =>
    if content = [] then next.settle offset
    else (next.settle (offset + content.size)).prependText content
  | offset, element tag inner next =>
    element { tag with offset } (inner.settle (offset + tag.openMarker.size))
      (next.settle (offset + (tag.around inner.render).size))

@[simp] theorem render_settle (offset : Nat) (forest : Forest) :
    (forest.settle offset).render = forest.render := by
  induction forest generalizing offset with
  | empty => rfl
  | text content next ih =>
    rw [settle]
    split
    · rename_i none
      rw [ih, render, none, List.nil_append]
    · rw [render_prependText, ih, render]
  | element tag inner next ihInner ihNext =>
    rw [settle, render, render, ihInner, ihNext]
    rfl

theorem placed_settle (offset : Nat) (forest : Forest) : (forest.settle offset).Placed offset := by
  induction forest generalizing offset with
  | empty => trivial
  | text content next ih =>
    rw [settle]
    split
    · exact ih offset
    · exact placed_prependText.mpr (ih _)
  | element tag inner next ihInner ihNext =>
    refine ⟨rfl, ihInner _, ?_⟩
    rw [render_settle]
    exact ihNext _

@[simp] theorem elements_prependText (content : Text) (forest : Forest) :
    (forest.prependText content).elements = forest.elements := by
  cases forest <;> rfl

end Forest

/-- What is written of an element, wherever it stands. -/
def Element.bare (item : Element) : Tag × Text := ({ item.tag with offset := 0 }, item.innerText)

namespace Forest

/-- **Settling keeps the elements**, up to their offsets. -/
theorem map_bare_elements_settle (offset : Nat) (forest : Forest) :
    (forest.settle offset).elements.map Element.bare = forest.elements.map Element.bare := by
  induction forest generalizing offset with
  | empty => rfl
  | text content next ih =>
    rw [settle]
    split
    · exact ih offset
    · rw [elements_prependText]
      exact ih _
  | element tag inner next ihInner ihNext =>
    rw [settle, elements, elements, List.map_cons, List.map_cons, List.map_append, List.map_append,
      ihInner, ihNext, Element.bare, Element.bare, Element.innerText, Element.innerText,
      render_settle]

theorem find?_map_bare (forest : Forest) (name : Text) :
    (forest.find? name).map Element.bare =
      (forest.elements.map Element.bare).find? fun item => item.1.name == name := by
  rw [List.find?_map]
  rfl

/-- The first element of a name is the same one, up to its offset. -/
theorem find?_settle (offset : Nat) (forest : Forest) (name : Text) :
    ((forest.settle offset).find? name).map Element.bare =
      (forest.find? name).map Element.bare := by
  rw [find?_map_bare, find?_map_bare, map_bare_elements_settle]

end Forest

end Scaffold
