/-
**Which forests can be read back.**

Where the marker lines of a forest are what its tags say, only its stray close markers can keep it
from being read back, and of these the ones that name an element around them:

* a forest *stands* (`Stands`) if no stray close marker names the innermost element around it, so
  that every element ends where it should;
* `parse_render_iff`: what a forest that stands is written as can be read if and only if the forest
  fits, and then it reads as that forest.
-/

import Scaffold.Proofs.Tag.RoundTrip

namespace Scaffold

namespace Forest

/-- Every marker line is what its tag says, and every other line is text where the names `near` are
open: those of the innermost element around it. -/
inductive Stands (delimiter : Text) : (near : List Text) → Forest → Prop
  | empty {near : List Text} : Stands delimiter near empty
  | text {near : List Text} {content : Text} {next : Forest}
      (plain : ∀ line ∈ content.lines, Tag.Marker.IsPlain delimiter near line)
      (standsNext : Stands delimiter near next) : Stands delimiter near (text content next)
  | leaf {near : List Text} {tag : Tag} {next : Forest} (isLeaf : tag.IsLeaf delimiter)
      (standsNext : Stands delimiter near next) : Stands delimiter near (element tag .empty next)
  | pair {near : List Text} {tag : Tag} {inner next : Forest} (isPair : tag.IsPair delimiter)
      (standsInner : Stands delimiter [tag.name] inner)
      (standsNext : Stands delimiter near next) : Stands delimiter near (element tag inner next)

variable {delimiter : Text}

theorem stands_element {near : List Text} {tag : Tag} {inner next : Forest} :
    Stands delimiter near (element tag inner next) ↔
      (Element.mk tag inner).IsMarked delimiter ∧ Stands delimiter [tag.name] inner ∧
        Stands delimiter near next := by
  constructor
  · intro stands
    cases stands with
    | leaf isLeaf standsNext => exact ⟨Or.inl ⟨isLeaf, rfl⟩, .empty, standsNext⟩
    | pair isPair standsInner standsNext => exact ⟨Or.inr isPair, standsInner, standsNext⟩
  · rintro ⟨⟨isLeaf, rfl⟩ | isPair, standsInner, standsNext⟩
    · exact .leaf isLeaf standsNext
    · exact .pair isPair standsInner standsNext

/-- A forest that fits stands. -/
theorem Fits.stands {outer near : List Text} {forest : Forest} (fits : Fits delimiter outer forest)
    (known : near ⊆ outer) : Stands delimiter near forest := by
  induction fits generalizing near with
  | empty => exact .empty
  | text plain _ ih =>
    refine .text (fun line member => (plain line member).imp_right ?_) (ih known)
    rintro ⟨name, reads, absent⟩
    exact ⟨name, reads, fun present => absent (known present)⟩
  | leaf isLeaf _ ih => exact .leaf isLeaf (ih known)
  | pair isPair _ _ ihInner ihNext =>
    refine .pair isPair (ihInner fun name member => ?_) (ihNext known)
    rw [List.mem_singleton.mp member]
    exact List.mem_cons_self

end Forest

namespace Tag.Piece

variable {delimiter : Text}

/-- Lines that are text as far as the innermost open tag goes are text, if they are read. -/
theorem plain_of_ofLines {near : List Text} {outer : List Tag}
    (known : ∀ tag ∈ outer.head?, tag.name ∈ near) {lines rest : List Text}
    (plain : ∀ line ∈ lines, Marker.IsPlain delimiter near line) {offset : Nat}
    {pieces : List Piece} (run : ofLines delimiter outer (placeLines offset (lines ++ rest)) =
      .ok pieces) : ∀ line ∈ lines, Marker.IsPlain delimiter (outer.map Tag.name) line := by
  induction lines generalizing offset pieces with
  | nil => exact fun _ member => nomatch member
  | cons line lines ih =>
    have here := plain line List.mem_cons_self
    have later : ∀ other ∈ lines, Marker.IsPlain delimiter near other :=
      fun other member => plain other (List.mem_cons_of_mem _ member)
    obtain ⟨piece, still, more, step, others, _⟩ := ofLines_cons run
    have first : Marker.IsPlain delimiter (outer.map Tag.name) line ∧ still = outer := by
      cases step with
      | text isPlain => exact ⟨isPlain, rfl⟩
      | leaf reads =>
        rcases here with none | ⟨name, closing, _⟩
        · cases reads.unique none
        · cases reads.unique closing
      | opening reads =>
        rcases here with none | ⟨name, closing, _⟩
        · cases reads.unique none
        · cases reads.unique closing
      | closing reads =>
        rcases here with none | ⟨name, closing, absent⟩
        · cases reads.unique none
        · cases reads.unique closing
          exact absurd (known _ rfl) absent
    rw [first.2] at others
    intro other member
    rcases List.mem_cons.mp member with rfl | member
    · exact first.1
    · exact ih later others other member

end Tag.Piece

namespace Forest

variable {delimiter : Text}

/-- **A forest that stands and is read fits**, whatever comes after it. -/
theorem Stands.fits_of_ofLines {near : List Text} {forest : Forest}
    (stands : Stands delimiter near forest) {outer : List Tag}
    (known : ∀ tag ∈ outer.head?, tag.name ∈ near) {offset : Nat} {rest : List Text}
    {pieces : List Tag.Piece}
    (run : Tag.Piece.ofLines delimiter outer (Tag.placeLines offset (forest.rows ++ rest)) =
      .ok pieces) : Fits delimiter (outer.map Tag.name) forest := by
  induction stands generalizing outer offset rest pieces with
  | empty => exact .empty
  | text plain _ ih =>
    rw [rows, List.append_assoc] at run
    have plainHere := Tag.Piece.plain_of_ofLines known plain run
    rw [Tag.Piece.ofLines_text plainHere] at run
    obtain ⟨more, runNext, -⟩ := map_eq_ok_iff.mp run
    exact .text plainHere (ih known runNext)
  | @leaf near tag next isLeaf _ ih =>
    have first : Tag.Piece.Step delimiter outer ⟨tag.openMarker, offset⟩ _ outer :=
      .leaf isLeaf.opens
    have one : (element tag .empty next).rows = tag.openMarker :: next.rows := by
      rw [rows, isLeaf.openLine, isLeaf.close]
      rfl
    rw [one, List.cons_append, Tag.placeLines, first.ofLines] at run
    obtain ⟨more, runNext, -⟩ := map_eq_ok_iff.mp run
    exact .leaf isLeaf (ih known runNext)
  | @pair near tag inner next isPair _ _ ihInner ihNext =>
    have first : Tag.Piece.Step delimiter outer ⟨tag.openMarker, offset⟩ _
        (⟨tag.name, tag.attributes, tag.openMarker, [], offset⟩ :: outer) := .opening isPair.opens
    have split : (element tag inner next).rows ++ rest =
        tag.openMarker :: (inner.rows ++ (tag.closeMarker :: (next.rows ++ rest))) := by
      rw [rows, isPair.openLine, isPair.closeLine]
      simp
    rw [split, Tag.placeLines, first.ofLines] at run
    obtain ⟨more, runInner, -⟩ := map_eq_ok_iff.mp run
    have fitsInner := ihInner (fun opened here => by cases here; exact List.mem_singleton_self _)
      runInner
    rw [Tag.Piece.ofLines_rows fitsInner rfl] at runInner
    obtain ⟨more, runClose, -⟩ := map_eq_ok_iff.mp runInner
    have last : Tag.Piece.Step delimiter
        (⟨tag.name, tag.attributes, tag.openMarker, [], offset⟩ :: outer)
        ⟨tag.closeMarker, offset + tag.openMarker.size + inner.render.size⟩
        (.closing tag.closeMarker) outer := .closing isPair.closes
    rw [Tag.placeLines, last.ofLines] at runClose
    obtain ⟨more, runNext, -⟩ := map_eq_ok_iff.mp runClose
    exact .pair isPair fitsInner (ihNext known runNext)

/-- **What a forest that stands is written as can be read** if and only if the forest fits. -/
theorem parse_render_iff {forest : Forest} (stands : Stands delimiter [] forest)
    (isLined : forest.IsLined) :
    (∃ found, parse delimiter forest.render = .ok found) ↔ Fits delimiter [] forest := by
  constructor
  · rintro ⟨found, read⟩
    obtain ⟨pieces, run, _⟩ := parse_eq_ok_iff.mp read
    rw [Forest.pieces, Tag.linesOf, isLined.lines_render, ← List.append_nil forest.rows] at run
    refine stands.fits_of_ofLines (fun _ member => ?_) run
    cases member
  · intro fits
    exact ⟨forest.settle 0, parse_render fits isLined⟩

end Forest

end Scaffold
