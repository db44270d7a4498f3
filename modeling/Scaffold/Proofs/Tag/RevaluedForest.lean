/-
**Forests with the values of one attribute rewritten.**

A rewriting changes open markers where they stand, so a forest keeps its shape:

* `rows_revalue`, `render_revalue`: a rewritten forest is written as the rewritten text;
* `Fits.revalue`: it can be read where the forest can;
* `find?_revalue`: its elements are found by the same names;
* `parse_text_iff`: **a rewritten text can be read if and only if the text can**, and then it is the
  rewritten forest.
-/

import Scaffold.Proofs.Tag.Legible
import Scaffold.Proofs.Tag.Revalued

namespace Scaffold

namespace Tag.Revaluation

variable {revaluation : Revaluation} {delimiter : Text}

/-- A tag with new values on its open marker. -/
def onTag (revaluation : Revaluation) (delimiter : Text) (tag : Tag) : Tag :=
  { tag with
    attributes := revaluation.attributes tag.attributes
    openMarker := revaluation.line delimiter tag.openMarker }

/-- A forest with new values on all its open markers. -/
def onForest (revaluation : Revaluation) (delimiter : Text) : Forest → Forest
  | .empty => .empty
  | .text content next => .text content (revaluation.onForest delimiter next)
  | .element tag inner next =>
    .element (revaluation.onTag delimiter tag) (revaluation.onForest delimiter inner)
      (revaluation.onForest delimiter next)

/-- An element with new values on all its open markers. -/
def onElement (revaluation : Revaluation) (delimiter : Text) (item : Element) : Element :=
  ⟨revaluation.onTag delimiter item.tag, revaluation.onForest delimiter item.inner⟩

/-! ### Markers -/

theorem isLeaf_onTag (revaluation : Revaluation) {tag : Tag} (isLeaf : tag.IsLeaf delimiter) :
    (revaluation.onTag delimiter tag).IsLeaf delimiter :=
  ⟨(isLine_line revaluation delimiter isLeaf.openLine).1,
    reads_line_iff.mpr ⟨_, isLeaf.opens, rfl⟩, isLeaf.close⟩

theorem isPair_onTag (revaluation : Revaluation) {tag : Tag} (isPair : tag.IsPair delimiter) :
    (revaluation.onTag delimiter tag).IsPair delimiter :=
  ⟨(isLine_line revaluation delimiter isPair.openLine).1,
    reads_line_iff.mpr ⟨_, isPair.opens, rfl⟩, isPair.closeLine, isPair.closes⟩

/-- A close marker stays as it is. -/
theorem line_of_closing (revaluation : Revaluation) {content name : Text}
    (reads : Marker.Reads delimiter content (some (.closing name))) :
    revaluation.line delimiter content = content :=
  line_of_reads reads nofun

/-- Plain text stays as it is. -/
theorem line_of_isPlain {near : List Text} {content : Text}
    (plain : Marker.IsPlain delimiter near content) :
    revaluation.line delimiter content = content := by
  rcases plain with reads | ⟨name, reads, _⟩
  · exact line_of_reads reads nofun
  · exact line_of_closing revaluation reads

theorem reads_line_opening_iff {content name : Text} {attributes : Attributes}
    {selfClosing : Bool} :
    Marker.Reads delimiter (revaluation.line delimiter content)
        (some (.opening name attributes selfClosing)) ↔
      ∃ before, Marker.Reads delimiter content (some (.opening name before selfClosing)) ∧
        attributes = revaluation.attributes before := by
  rw [reads_line_iff]
  constructor
  · rintro ⟨_ | ⟨_, before, _⟩ | _, reads, same⟩
    · cases same
    · cases same
      exact ⟨before, reads, rfl⟩
    · cases same
  · rintro ⟨before, reads, rfl⟩
    exact ⟨_, reads, rfl⟩

theorem reads_line_closing_iff {content name : Text} :
    Marker.Reads delimiter (revaluation.line delimiter content) (some (.closing name)) ↔
      Marker.Reads delimiter content (some (.closing name)) := by
  rw [reads_line_iff]
  constructor
  · rintro ⟨_ | _ | _, reads, same⟩
    · cases same
    · cases same
    · cases same
      exact reads
  · intro reads
    exact ⟨_, reads, rfl⟩

/-- A rewritten line is text where the line is. -/
theorem isPlain_line_iff {near : List Text} {content : Text} :
    Marker.IsPlain delimiter near (revaluation.line delimiter content) ↔
      Marker.IsPlain delimiter near content := by
  have unmarked : Marker.Reads delimiter (revaluation.line delimiter content) none ↔
      Marker.Reads delimiter content none := by
    rw [reads_line_iff]
    constructor
    · rintro ⟨before, reads, same⟩
      rw [Option.map_eq_none_iff.mp same.symm] at reads
      exact reads
    · intro reads
      exact ⟨none, reads, rfl⟩
  rw [Marker.IsPlain, unmarked]
  simp only [reads_line_closing_iff, Marker.IsPlain]

end Tag.Revaluation

namespace Forest

open Tag.Revaluation

variable {revaluation : Tag.Revaluation} {delimiter : Text} {forest : Forest}

/-! ### Rows -/

/-- **The rows of a rewritten forest** are the rewritten rows. -/
theorem rows_onForest {near : List Text} (stands : Stands delimiter near forest) :
    (revaluation.onForest delimiter forest).rows =
      forest.rows.map (revaluation.line delimiter) := by
  induction stands with
  | empty => rfl
  | @text near content next plain _ ih =>
    have same : content.lines.map (revaluation.line delimiter) = content.lines :=
      (List.map_congr_left fun line member => line_of_isPlain (plain line member)).trans
        (List.map_id _)
    rw [onForest, rows, rows, List.map_append, same, ih]
  | @leaf near tag next isLeaf _ ih =>
    have isLeafNew := isLeaf_onTag revaluation isLeaf
    rw [onForest, rows, rows, isLeaf.openLine, isLeafNew.openLine, isLeaf.close, isLeafNew.close,
      List.map_append, List.map_append, List.map_append, ih]
    rfl
  | @pair near tag inner next isPair _ _ ihInner ihNext =>
    have isPairNew := isPair_onTag revaluation isPair
    have closing := line_of_closing revaluation isPair.closes
    rw [onForest, rows, rows, isPair.openLine, isPairNew.openLine, isPair.closeLine,
      isPairNew.closeLine, List.map_append, List.map_append, List.map_append, ihInner, ihNext,
      List.map_singleton, List.map_singleton, closing]
    rfl

/-- **A rewritten forest is written** as the rewritten text. -/
theorem render_onForest {near : List Text} (stands : Stands delimiter near forest)
    (isLined : forest.IsLined) :
    (revaluation.onForest delimiter forest).render =
      revaluation.text delimiter forest.render := by
  rw [← flatten_rows, rows_onForest stands, Tag.Revaluation.text, isLined.lines_render]

theorem isSealed_onForest {followed : Prop} {near : List Text}
    (stands : Stands delimiter near forest) (isSealed : forest.IsSealed followed) :
    (revaluation.onForest delimiter forest).IsSealed followed := by
  rw [IsSealed, rows_onForest stands]
  exact sealed_map isSealed

/-- **A rewritten forest fits** where the forest does. -/
theorem Fits.onForest {outer : List Text} (fits : Fits delimiter outer forest) :
    Fits delimiter outer (revaluation.onForest delimiter forest) := by
  induction fits with
  | empty => exact .empty
  | text plain _ ih => exact .text plain ih
  | leaf isLeaf _ ih => exact .leaf (isLeaf_onTag revaluation isLeaf) ih
  | pair isPair _ _ ihInner ihNext => exact .pair (isPair_onTag revaluation isPair) ihInner ihNext

/-! ### Elements -/

theorem elements_onForest :
    (revaluation.onForest delimiter forest).elements =
      forest.elements.map (revaluation.onElement delimiter) := by
  induction forest with
  | empty => rfl
  | text content next ih => exact ih
  | element tag inner next ihInner ihNext =>
    rw [Tag.Revaluation.onForest, elements, elements, ihInner, ihNext, List.map_cons,
      List.map_append]
    rfl

/-- **Elements are found** by the names they had. -/
theorem find?_onForest (name : Text) :
    (revaluation.onForest delimiter forest).find? name =
      (forest.find? name).map (revaluation.onElement delimiter) := by
  rw [find?, elements_onForest, List.find?_map]
  rfl

end Forest

namespace Tag.Piece

open Tag.Revaluation

variable {revaluation : Tag.Revaluation} {delimiter : Text}

/-! ### Reading -/

/-- **Lines can be read if the rewritten lines can**, with tags of the same names open. -/
theorem exists_ofLines_of_line {outer outerNew : List Tag}
    (names : outerNew.map Tag.name = outer.map Tag.name) {rows : List Text} {offset place : Nat}
    {pieces : List Piece}
    (run : ofLines delimiter outerNew
      (placeLines place (rows.map (revaluation.line delimiter))) = .ok pieces) :
    ∃ before, ofLines delimiter outer (placeLines offset rows) = .ok before := by
  induction rows generalizing outer outerNew offset place pieces with
  | nil =>
    cases outerNew with
    | nil =>
      rw [List.map_nil, eq_comm, List.map_eq_nil_iff] at names
      rw [names]
      exact ⟨[], rfl⟩
    | cons tag enclosing => cases run
  | cons row rest ih =>
    obtain ⟨piece, still, more, step, others, _⟩ := ofLines_cons run
    have onwards : ∀ {piece : Piece} {after : List Tag},
        Step delimiter outer ⟨row, offset⟩ piece after →
          still.map Tag.name = after.map Tag.name →
            ∃ before, ofLines delimiter outer (placeLines offset (row :: rest)) = .ok before := by
      intro piece after stepHere same
      obtain ⟨before, runRest⟩ := ih same others
      exact ⟨piece :: before, by rw [placeLines, stepHere.ofLines, runRest]; rfl⟩
    generalize located : (⟨revaluation.line delimiter row, place⟩ : Excerpt) = line at step
    cases step with
    | text plain =>
      subst located
      rw [names] at plain
      exact onwards (.text (isPlain_line_iff.mp plain)) names
    | leaf reads =>
      subst located
      obtain ⟨_, readsHere, _⟩ := reads_line_opening_iff.mp reads
      exact onwards (.leaf readsHere) names
    | opening reads =>
      subst located
      obtain ⟨_, readsHere, _⟩ := reads_line_opening_iff.mp reads
      exact onwards (.opening readsHere) (congrArg (_ :: ·) names)
    | @closing innermost _ _ reads =>
      subst located
      cases outer with
      | nil => cases names
      | cons tag enclosing =>
        obtain ⟨same, sameMore⟩ := List.cons.inj names
        rw [same] at reads
        exact onwards (.closing (reads_line_closing_iff.mp reads)) sameMore

end Tag.Piece

namespace Forest

open Tag.Revaluation

variable {revaluation : Tag.Revaluation} {delimiter content : Text} {forest : Forest}

/-- A text that is read can be read rewritten, as the rewritten forest. -/
theorem parse_text (read : parse delimiter content = .ok forest) :
    parse delimiter (revaluation.text delimiter content) =
      .ok ((revaluation.onForest delimiter forest).settle 0) := by
  have fits := (fits_of_parse read).1
  have stands := fits.stands (List.nil_subset [])
  have isLined : forest.IsLined := (isSealed_of_parse read False.elim).isLined
  have sealedNew : (revaluation.onForest delimiter forest).IsSealed False :=
    isSealed_onForest stands ⟨isLined, False.elim⟩
  have again := parse_render fits.onForest sealedNew.isLined
  rw [render_onForest stands isLined, render_of_parse read] at again
  exact again

/-- **A rewritten text can be read** if and only if the text can. -/
theorem parse_text_iff :
    (∃ found, parse delimiter (revaluation.text delimiter content) = .ok found) ↔
      ∃ found, parse delimiter content = .ok found := by
  constructor
  · rintro ⟨found, read⟩
    obtain ⟨pieces, run, _⟩ := parse_eq_ok_iff.mp read
    rw [Forest.pieces, Tag.linesOf, lines_text] at run
    have runBefore : ∃ before, Forest.pieces delimiter content = .ok before :=
      Tag.Piece.exists_ofLines_of_line rfl run
    obtain ⟨before, runBefore⟩ := runBefore
    exact ⟨_, parse_eq_ok_iff.mpr ⟨before, runBefore, rfl⟩⟩
  · rintro ⟨found, read⟩
    exact ⟨_, parse_text read⟩

/-- **What a rewritten text is read as**, if the text is read. -/
theorem toOption_parse_text (revaluation : Tag.Revaluation) (delimiter content : Text) :
    (parse delimiter (revaluation.text delimiter content)).toOption =
      (parse delimiter content).toOption.map fun forest =>
        (revaluation.onForest delimiter forest).settle 0 := by
  cases read : parse delimiter content with
  | ok forest =>
    rw [parse_text read]
    rfl
  | error fault =>
    cases readNew : parse delimiter (revaluation.text delimiter content) with
    | error _ => rfl
    | ok found =>
      obtain ⟨before, readBefore⟩ := parse_text_iff.mp ⟨found, readNew⟩
      rw [read] at readBefore
      cases readBefore

end Forest

end Scaffold
