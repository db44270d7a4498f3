/-
**Texts whose last line is completed.**

Completing the last line of a text changes none of its markers:

* `parse_closeLine`: a text that can be read can be read completed, with the same names and
  attributes on its tags;
* `fits_content`: a content without markers fits anywhere, completed.
-/

import Scaffold.Proofs.Tag.Declared
import Scaffold.Proofs.Tag.MarkerLine

namespace Scaffold

namespace Tag

variable {delimiter : Text}

theorem Marker.reads_newline (usable : IsUsable delimiter) {line : Text} (absent : '\n' ∉ line)
    {found : Option Marker} :
    Reads delimiter (line ++ ['\n']) found ↔ Reads delimiter line found := by
  rw [Reads, Reads, ofLine?_newline usable absent]

theorem Marker.isPlain_newline (usable : IsUsable delimiter) {line : Text} (absent : '\n' ∉ line)
    {outer : List Text} :
    IsPlain delimiter outer (line ++ ['\n']) ↔ IsPlain delimiter outer line := by
  simp only [IsPlain, reads_newline usable absent]

namespace Piece

/-- A last line that is read is read completed. -/
theorem ofLines_newline_last (usable : Marker.IsUsable delimiter) {line : Text}
    (absent : '\n' ∉ line) {outer : List Tag} {offset : Nat} {pieces : List Piece}
    (run : ofLines delimiter outer [⟨line, offset⟩] = .ok pieces) :
    ∃ completed, ofLines delimiter outer [⟨line ++ ['\n'], offset⟩] = .ok completed := by
  obtain ⟨piece, still, more, step, others, _⟩ := ofLines_cons run
  cases step with
  | text plain =>
    have completed : Step delimiter outer ⟨line ++ ['\n'], offset⟩ _ outer :=
      .text ((Marker.isPlain_newline usable absent).mpr plain)
    exact ⟨_, by rw [completed.ofLines, others]; rfl⟩
  | leaf reads =>
    have completed : Step delimiter outer ⟨line ++ ['\n'], offset⟩ _ outer :=
      .leaf ((Marker.reads_newline usable absent).mpr reads)
    exact ⟨_, by rw [completed.ofLines, others]; rfl⟩
  | opening reads =>
    cases others
  | @closing innermost _ _ reads =>
    have completed : Step delimiter (innermost :: still) ⟨line ++ ['\n'], offset⟩ _ still :=
      .closing ((Marker.reads_newline usable absent).mpr reads)
    exact ⟨_, by rw [completed.ofLines, others]; rfl⟩

theorem ofLines_newline (usable : Marker.IsUsable delimiter) {rows : List Text} {last : Text}
    (absent : '\n' ∉ last) {outer : List Tag} {offset : Nat} {pieces : List Piece}
    (run : ofLines delimiter outer (placeLines offset (rows ++ [last])) = .ok pieces) :
    ∃ completed, ofLines delimiter outer (placeLines offset (rows ++ [last ++ ['\n']])) =
      .ok completed := by
  induction rows generalizing outer offset pieces with
  | nil => exact ofLines_newline_last usable absent run
  | cons line rest ih =>
    obtain ⟨piece, still, more, step, others, _⟩ := ofLines_cons run
    obtain ⟨completed, again⟩ := ih others
    refine ⟨piece :: completed, ?_⟩
    rw [List.cons_append, placeLines, step.ofLines, again]
    rfl

end Piece

/-- Completing a text changes none of its open markers. -/
theorem openMarkers_closeLine (usable : Marker.IsUsable delimiter) (content : Text) :
    openMarkers delimiter content.closeLine = openMarkers delimiter content := by
  by_cases closed : content.IsClosed
  · rw [Text.closeLine_eq_self closed]
  · obtain ⟨rows, last, split, absent, completed⟩ := Text.lines_closeLine closed
    have same : Marker.opening? delimiter (last ++ ['\n']) = Marker.opening? delimiter last := by
      rw [Marker.opening?, Marker.opening?, Marker.ofLine?_newline usable absent]
    rw [openMarkers_eq, openMarkers_eq, split, completed, List.filterMap_append,
      List.filterMap_append, List.filterMap_cons, List.filterMap_cons, same]

end Tag

namespace Forest

variable {delimiter : Text}

/-- **A text that can be read can be read completed**, with the same names and attributes. -/
theorem parse_closeLine (usable : Tag.Marker.IsUsable delimiter) {content : Text} {forest : Forest}
    (read : parse delimiter content = .ok forest) :
    ∃ completed, parse delimiter content.closeLine = .ok completed ∧
      (completed.elements.map fun item => (item.tag.name, item.tag.attributes)) =
        forest.elements.map fun item => (item.tag.name, item.tag.attributes) := by
  suffices again : ∃ completed, parse delimiter content.closeLine = .ok completed by
    obtain ⟨completed, readCompleted⟩ := again
    refine ⟨completed, readCompleted, ?_⟩
    rw [← openMarkers_of_parse readCompleted, Tag.openMarkers_closeLine usable,
      openMarkers_of_parse read]
  by_cases closed : content.IsClosed
  · rw [Text.closeLine_eq_self closed]
    exact ⟨forest, read⟩
  · obtain ⟨found, run, _⟩ := parse_eq_ok_iff.mp read
    obtain ⟨rows, last, split, absent, completed⟩ := Text.lines_closeLine closed
    rw [pieces, Tag.linesOf, split] at run
    obtain ⟨pieces, again⟩ := Tag.Piece.ofLines_newline usable absent run
    refine ⟨_, parse_eq_ok_iff.mpr ⟨pieces, ?_, rfl⟩⟩
    rw [Forest.pieces, Tag.linesOf, completed]
    exact again

/-! ### Contents -/

variable {content : Text}

/-- A content without markers has none once its last line is complete. -/
theorem plain_closeLine (usable : Tag.Marker.IsUsable delimiter)
    (plain : ∀ line ∈ content.lines, Tag.Marker.Reads delimiter line none) :
    ∀ line ∈ content.closeLine.lines, Tag.Marker.Reads delimiter line none := by
  by_cases closed : content.IsClosed
  · rw [Text.closeLine_eq_self closed]
    exact plain
  · obtain ⟨rows, last, split, absent, completed⟩ := Text.lines_closeLine closed
    rw [split, List.forall_mem_append] at plain
    rw [completed, List.forall_mem_append]
    refine ⟨plain.1, fun line member => ?_⟩
    rw [List.mem_singleton.mp member, Tag.Marker.reads_newline usable absent]
    exact plain.2 last List.mem_cons_self

/-- **A content without markers fits** inside any elements. -/
theorem fits_content (usable : Tag.Marker.IsUsable delimiter)
    (plain : ∀ line ∈ content.lines, Tag.Marker.Reads delimiter line none) (outer : List Text) :
    Fits delimiter outer (text content.closeLine empty) :=
  .text (fun line member => Or.inl (plain_closeLine usable plain line member)) .empty

/-- A content of complete lines can have anything after it. -/
theorem isSealed_content (content : Text) : (text content.closeLine empty).IsSealed True :=
  isSealed_text.mpr ⟨fun _ => Text.isClosed_closeLine content, Text.sealed_nil True⟩

end Forest

end Scaffold
