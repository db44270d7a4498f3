/-
**What a forest declares about its file.**

The mode of a file is the first known value on any of its open markers, and these are looked for
line by line. In a text that is read, or that a forest is written as, they are the open markers of
its elements, in document order (`openMarkers_render`), so the mode is the first known value among
the elements (`firstValue?_render`).
-/

import Scaffold.Proofs.Tag.RoundTrip
import Scaffold.Tag.Directive

namespace Scaffold

namespace Tag

variable {delimiter : Text}

/-- The name and the attributes on a line that is an open marker. -/
def Marker.opening? (delimiter line : Text) : Option (Text × Attributes) :=
  match ofLine? delimiter ⟨line, 0⟩ with
  | .ok (some (.opening name attributes _)) => some (name, attributes)
  | _ => none

theorem Marker.opening?_of_opening {line name : Text} {attributes : Attributes} {selfClosing : Bool}
    (reads : Reads delimiter line (some (.opening name attributes selfClosing))) :
    opening? delimiter line = some (name, attributes) := by
  rw [opening?, reads]

theorem Marker.opening?_of_closing {line name : Text}
    (reads : Reads delimiter line (some (.closing name))) : opening? delimiter line = none := by
  rw [opening?, reads]

theorem Marker.opening?_of_isPlain {outer : List Text} {line : Text}
    (plain : IsPlain delimiter outer line) : opening? delimiter line = none := by
  rcases plain with reads | ⟨name, reads, _⟩
  · rw [opening?, reads]
  · exact opening?_of_closing reads

theorem Marker.exists_reads_of_opening? {line : Text} {marker : Text × Attributes}
    (opens : opening? delimiter line = some marker) :
    ∃ selfClosing, Reads delimiter line (some (.opening marker.1 marker.2 selfClosing)) := by
  unfold opening? at opens
  split at opens
  · rename_i selfClosing read
    cases opens
    exact ⟨selfClosing, read⟩
  · cases opens

/-- The open markers of a text are those of its lines, wherever they stand. -/
theorem openMarkers_eq (delimiter content : Text) :
    openMarkers delimiter content = content.lines.filterMap (Marker.opening? delimiter) := by
  rw [openMarkers, linesOf]
  generalize 0 = offset
  induction content.lines generalizing offset with
  | nil => rfl
  | cons line rest ih =>
    rw [placeLines, List.filterMap_cons, List.filterMap_cons, ih, Marker.ofLine?_moved,
      Marker.opening?]
    cases Marker.ofLine? delimiter ⟨line, 0⟩ <;> rfl

end Tag

namespace Forest

variable {delimiter : Text}

/-- The open markers among the rows of a forest are those of its elements. -/
theorem filterMap_rows {outer : List Text} {forest : Forest} (fits : Fits delimiter outer forest) :
    forest.rows.filterMap (Tag.Marker.opening? delimiter) =
      forest.elements.map fun item => (item.tag.name, item.tag.attributes) := by
  induction fits with
  | empty => rfl
  | text plain _ ih =>
    have none := List.filterMap_eq_nil_iff.mpr fun line member =>
      Tag.Marker.opening?_of_isPlain (plain line member)
    rw [rows, List.filterMap_append, none, ih]
    rfl
  | leaf isLeaf _ ih =>
    rw [rows, isLeaf.openLine, isLeaf.close, List.singleton_append,
      List.filterMap_cons_some (Tag.Marker.opening?_of_opening isLeaf.opens),
      List.filterMap_append, List.filterMap_append, ih]
    rfl
  | pair isPair _ _ ihInner ihNext =>
    rw [rows, isPair.openLine, isPair.closeLine, List.singleton_append, List.singleton_append,
      List.filterMap_cons_some (Tag.Marker.opening?_of_opening isPair.opens),
      List.filterMap_append,
      List.filterMap_cons_none (Tag.Marker.opening?_of_closing isPair.closes), ihInner, ihNext,
      elements, List.map_cons, List.map_append]

/-- **The open markers of a text** are those of the elements of the forest it is. -/
theorem openMarkers_render {outer : List Text} {forest : Forest}
    (fits : Fits delimiter outer forest) (isLined : forest.IsLined) :
    Tag.openMarkers delimiter forest.render =
      forest.elements.map fun item => (item.tag.name, item.tag.attributes) := by
  rw [Tag.openMarkers_eq, isLined.lines_render, filterMap_rows fits]

/-- The open markers of a text that was read are those of its elements. -/
theorem openMarkers_of_parse {content : Text} {forest : Forest}
    (read : parse delimiter content = .ok forest) :
    Tag.openMarkers delimiter content =
      forest.elements.map fun item => (item.tag.name, item.tag.attributes) := by
  rw [← render_of_parse read]
  exact openMarkers_render (fits_of_parse read).1 (isSealed_of_parse read False.elim).isLined

/-- **A file declares** the first known value among its elements. -/
theorem firstValue?_render {outer : List Text} {forest : Forest}
    (fits : Fits delimiter outer forest) (isLined : forest.IsLined) (α : Type) [Named α]
    (key : Text) :
    Tag.firstValue? α key delimiter forest.render =
      forest.elements.findSome? fun item =>
        (item.tag.attributes.get? key).bind Named.ofWord? := by
  rw [Tag.firstValue?, openMarkers_render fits isLined, List.findSome?_map]
  rfl

end Forest

end Scaffold
