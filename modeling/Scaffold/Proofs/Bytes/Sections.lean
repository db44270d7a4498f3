/-
**Sections by byte offsets.**

Keeping a section up to date reads the mode of the file from its open markers, and then the file as a
forest. A marker that closes itself is taken apart: its line end is what is behind its body, and its
indentation is as long as the marker less what is left once the blanks are skipped.

* `expandMarkers?_eq`: the parts of a marker can be sliced out of it;
* `regenerate?_eq`: the file with its section, or the fault, is that of the model;
* `runs_on_bytes_have_results`: no input makes any of the readers slice or subtract out of range.
-/

import Scaffold.Merge.Section
import Scaffold.Proofs.Bytes.Forests
import Scaffold.Proofs.Bytes.Sources
import Scaffold.Proofs.Text.Trimming

namespace Scaffold

namespace Section

/-! ### Markers of a section -/

/-- The open and the close marker that a marker closing itself turns into, from slices of it. -/
def expandMarkers? (delimiter : Text) (tag : Tag) : Option (Text × Text) := do
  let body := tag.openMarker.dropEndWhile isLineBreak
  let ending ← tag.openMarker.from? body.size
  let blanks ← minus? tag.openMarker.size (Text.size (Tag.skipInline tag.openMarker))
  let indent ← tag.openMarker.upTo? blanks
  let lineEnd := if ending = [] then ['\n'] else ending
  let trimmed := body.trimEnd
  let opened := match trimmed.before? "/>".toList with
    | some head => head.trimEnd ++ ['>']
    | none => trimmed
  return (opened ++ lineEnd, indent ++ delimiter ++ '<' :: '/' :: tag.name ++ '>' :: lineEnd)

/-- A section's text with new content. -/
def replaced? (delimiter : Text) (tag : Tag) (content : Text) : Option Text := do
  let around ←
    if tag.isSelfClosing then expandMarkers? delimiter tag
    else some (tag.openMarker, tag.closeMarker)
  return around.1 ++ content.closeLine ++ around.2

/-- **The parts of a marker** can be sliced out of it. -/
theorem expandMarkers?_eq (delimiter : Text) (tag : Tag) :
    expandMarkers? delimiter tag = some (expandMarkers delimiter tag) := by
  obtain ⟨trail, whole, -⟩ := Text.dropEndWhile_eq_iff.mp
    (rfl : tag.openMarker.dropEndWhile isLineBreak = _)
  have behind : tag.openMarker.drop (tag.openMarker.dropEndWhile isLineBreak).length = trail :=
    (congrArg (List.drop _) whole).trans List.drop_left
  have ending := Text.from?_append (tag.openMarker.dropEndWhile isLineBreak) trail
  rw [← whole, ← behind] at ending
  have split : tag.openMarker.takeWhile Text.isInlineBlank ++ Tag.skipInline tag.openMarker =
      tag.openMarker := List.takeWhile_append_dropWhile
  have blanks := Text.minus?_append (tag.openMarker.takeWhile Text.isInlineBlank)
    (Tag.skipInline tag.openMarker)
  have indent := Text.upTo?_append (tag.openMarker.takeWhile Text.isInlineBlank)
    (Tag.skipInline tag.openMarker)
  rw [split] at blanks indent
  simp only [expandMarkers?, ending, blanks, indent, Option.bind_eq_bind, Option.bind_some]
  rfl

theorem replaced?_eq (delimiter : Text) (tag : Tag) (content : Text) :
    replaced? delimiter tag content = some (replaced delimiter tag content) := by
  rw [replaced?, replaced, markers]
  split
  · rw [expandMarkers?_eq]
    rfl
  · rfl

/-! ### Files -/

/-- The mode of a file. -/
def modeFor? (delimiter existing : Text) : Option GenMode := do
  let markers ← Tag.openMarkers? delimiter existing
  let declared := markers.findSome? fun marker =>
    (marker.2.get? Tag.genKey).bind Named.ofWord?
  return declared.getD .demand

/-- The file with the content of a section brought up to date. -/
def regenerate? (delimiter existing name content : Text) : Option (Except Fault Text) :=
  if Tag.isName name then do
    match ← modeFor? delimiter existing with
    | .skip => return .ok existing
    | mode =>
      match ← Forest.parse? delimiter existing with
      | .error fault => return .error fault
      | .ok forest =>
        match Action.of mode (forest.find? name) with
        | .append => return .ok (append delimiter existing name content)
        | .replace tag =>
          let text ← replaced? delimiter tag content
          return .ok (forest.renderReplacing tag.offset text)
        | .leave => return .ok existing
  else do
    let fault ← (Defect.malformed (.invalidSectionName name) 0).locate? name
    return .error fault

theorem modeFor?_eq (delimiter existing : Text) :
    modeFor? delimiter existing = some (modeFor delimiter existing) := by
  rw [modeFor?, Tag.openMarkers?_eq]
  rfl

/-- **No file makes the work on a section slice or subtract out of range**: it has a result, and the
result is that of the model. -/
theorem regenerate?_eq (delimiter existing name content : Text) :
    regenerate? delimiter existing name content =
      some (regenerate delimiter existing name content) := by
  rw [regenerate?, regenerate]
  split
  · rw [modeFor?_eq, Option.bind_eq_bind, Option.bind_some]
    cases modeFor delimiter existing with
    | skip => rfl
    | force | demand =>
      dsimp only
      rw [Forest.parse?_eq, Option.bind_eq_bind, Option.bind_some]
      cases Forest.parse delimiter existing with
      | error fault => rfl
      | ok forest =>
        dsimp only [bind, Except.bind]
        cases Action.of _ (forest.find? name) with
        | append | leave => rfl
        | replace tag =>
          dsimp only
          rw [replaced?_eq]
          rfl
  · rw [Defect.locate?_eq]
    rfl

end Section

/-! ### All readers -/

/-- **Nothing is sliced or subtracted out of range**: for every extractor and source, and for every
delimiter and text, each of the runs on bytes has a result, the one of the model. -/
theorem runs_on_bytes_have_results :
    (∀ (extractor : Extractor) (source : Text),
      extractor.parse? source = some (extractor.parse source)) ∧
    (∀ delimiter text : Text, Forest.parse? delimiter text = some (Forest.parse delimiter text)) ∧
    ∀ delimiter existing name content : Text,
      Section.regenerate? delimiter existing name content =
        some (Section.regenerate delimiter existing name content) :=
  ⟨Extractor.parse?_eq, Forest.parse?_eq, Section.regenerate?_eq⟩

end Scaffold
