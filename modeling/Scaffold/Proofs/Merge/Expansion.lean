/-
**A marker that closes itself, turned into two.**

A section that closes itself gets content between two markers. The line is taken apart as it was
written (`LeafLine`): everything up to its last attribute goes to both markers, and so does the
end of the line.

* `expandMarkers_eq`: the two lines that a marker closing itself turns into;
* `reads_expandMarkers`: they are an open and a close marker of the same tag;
* `ofLine?_expandMarkers`: so they are wherever they stand, and they end in a line feed unless the
  line before was ended by a bare carriage return;
* `isPair_opened`: so a section that gets content has two markers, whatever it had before.
-/

import Scaffold.Merge.Section
import Scaffold.Proofs.Tag.Completed
import Scaffold.Proofs.Tag.Reading
import Scaffold.Proofs.Text.Trimming

namespace Scaffold

namespace Tag

theorem IsInline.isBlank {blanks : Text} (inline : IsInline blanks) :
    ∀ char ∈ blanks, Text.isBlank char = true := by
  intro char member
  rcases isInlineBlank_iff.mp (inline char member) with rfl | rfl <;> decide

/-! ### The parts of a marker that closes itself -/

/-- The parts of a line that is a marker closing itself, without the delimiter and the end of the
tag: the tag up to its last attribute, and the blanks and the end of the line around it. -/
structure LeafLine where
  indent : Text
  lead : Text
  gap : Text
  blanks : Text
  lineEnd : Text

namespace LeafLine

/-- The line up to the last attribute. -/
def front (delimiter : Text) (line : LeafLine) : Text := line.indent ++ delimiter ++ line.lead

/-- The line that has these parts. -/
def text (delimiter : Text) (line : LeafLine) : Text :=
  line.front delimiter ++ line.gap ++ ['/', '>'] ++ line.blanks ++ line.lineEnd

/-- The parts are what they are meant to be, for a tag of this name with these attributes. -/
structure IsOf (delimiter name : Text) (attributes : Attributes) (line : LeafLine) : Prop where
  inline : IsInline line.indent
  stops : Stops Text.isInlineBlank (delimiter ++ line.lead)
  leads : ∃ pairs, LeadsOpening (line.indent.size + delimiter.size) name pairs line.lead ∧
    collect .empty pairs = .ok attributes
  inlineGap : IsInline line.gap
  inlineBlanks : IsInline line.blanks
  ends : line.lineEnd ∈ lineEnds

variable {delimiter name : Text} {attributes : Attributes} {line : LeafLine}

theorem IsOf.stops_append (isOf : line.IsOf delimiter name attributes) (rest : Text) :
    Stops Text.isInlineBlank (delimiter ++ (line.lead ++ rest)) := by
  obtain ⟨pairs, leads, _⟩ := isOf.leads
  rw [← List.append_assoc]
  exact isOf.stops.append_of_ne_nil (List.append_ne_nil_of_right_ne_nil _ leads.ne_nil) rest

theorem IsOf.takeWhile_text (isOf : line.IsOf delimiter name attributes) :
    (line.text delimiter).takeWhile Text.isInlineBlank = line.indent := by
  have place : line.text delimiter = line.indent ++ (delimiter ++
      (line.lead ++ (line.gap ++ ['/', '>'] ++ line.blanks ++ line.lineEnd))) := by
    simp only [text, front, List.append_assoc]
  exact (takeWhile_eq_and_dropWhile_eq_iff.mpr
    ⟨place, isOf.inline, isOf.stops_append _⟩).1

/-- Blanks at the end of a tag are trimmed. -/
theorem IsOf.trimEnd_blanks (isOf : line.IsOf delimiter name attributes) (start : Text) :
    Text.trimEnd (start ++ ['/', '>'] ++ line.blanks) = start ++ ['/', '>'] := by
  refine Text.dropEndWhile_append isOf.inlineBlanks.isBlank fun char member => ?_
  rw [List.getLast?_append] at member
  cases member
  decide

/-- Blanks after the last attribute are trimmed. -/
theorem IsOf.trimEnd_gap (isOf : line.IsOf delimiter name attributes) :
    Text.trimEnd (line.front delimiter ++ line.gap) = line.front delimiter := by
  obtain ⟨pairs, leads, _⟩ := isOf.leads
  refine Text.dropEndWhile_append isOf.inlineGap.isBlank fun char member => ?_
  rw [front, List.getLast?_append, leads.getLast?] at member
  cases member
  decide

theorem newline_not_mem_front (isLine : (line.text delimiter).IsLine) :
    '\n' ∉ line.front delimiter := by
  intro member
  refine (Text.isLine_iff.mp isLine).2 ?_
  rw [text, List.append_assoc, List.append_assoc, List.append_assoc,
    List.dropLast_append_of_ne_nil (by simp)]
  exact List.mem_append_left _ member

end LeafLine

variable {delimiter : Text}

/-- **An open marker that closes itself** can be taken apart. -/
theorem exists_leafLine_of_reads {content name : Text} {attributes : Attributes}
    (reads : Marker.Reads delimiter content (some (.opening name attributes true))) :
    ∃ line : LeafLine, content = line.text delimiter ∧ line.IsOf delimiter name attributes := by
  obtain ⟨indent, rest, pairs, ⟨split, inline, stops⟩, read, collected⟩ :=
    Marker.reads_opening_iff.mp reads
  obtain ⟨lead, leads, @⟨gap, ending, inlineGap, isEnd⟩⟩ := readOpening?_eq_some_iff.mp read
  obtain ⟨blanks, splitEnd, inlineBlanks, _⟩ :=
    skipInline_eq_iff.mp (rfl : skipInline ending = _)
  refine ⟨⟨indent, lead, gap, blanks, skipInline ending⟩, ?_, inline, ?_,
    ⟨pairs, leads, collected⟩, inlineGap, inlineBlanks, isLineEnd_iff.mp isEnd⟩
  · rw [split, LeafLine.text, LeafLine.front]
    conv_lhs => rw [splitEnd]
    simp [tagEnd]
  · rw [← List.append_assoc] at stops
    exact stops.of_append

end Tag

namespace Section

variable {delimiter : Text}

theorem isLineBreak_of_mem {lineEnd : Text} (ends : lineEnd ∈ Tag.lineEnds) :
    ∀ char ∈ lineEnd, isLineBreak char = true := by
  have all : ∀ known ∈ Tag.lineEnds, known.all isLineBreak = true := by decide
  exact List.all_eq_true.mp (all lineEnd ends)

theorem not_isLineBreak_of_isInlineBlank {char : Char} (blank : Text.isInlineBlank char = true) :
    isLineBreak char = false := by
  rcases Tag.isInlineBlank_iff.mp blank with rfl | rfl <;> decide

/-- The end of a line, with a line feed if there is none. -/
def completed (lineEnd : Text) : Text := if lineEnd = [] then ['\n'] else lineEnd

/-- In front of the end of the line stands no line break. -/
theorem not_isLineBreak_of_getLast? {name : Text} {attributes : Tag.Attributes}
    {line : Tag.LeafLine} (isOf : line.IsOf delimiter name attributes) (start : Text) :
    ∀ char ∈ (start ++ ['/', '>'] ++ line.blanks).getLast?, isLineBreak char = false := by
  intro char member
  rw [List.getLast?_append] at member
  cases last : line.blanks.getLast? with
  | none =>
    rw [last, Option.none_or, List.getLast?_append] at member
    cases member
    decide
  | some blank =>
    rw [last] at member
    cases member
    exact not_isLineBreak_of_isInlineBlank (isOf.inlineBlanks char (List.mem_of_getLast? last))

/-- The end of the line is cut off behind the tag and the blanks after it. -/
theorem dropEndWhile_isLineBreak {name : Text} {attributes : Tag.Attributes} {line : Tag.LeafLine}
    (isOf : line.IsOf delimiter name attributes) :
    (line.text delimiter).dropEndWhile isLineBreak =
      line.front delimiter ++ line.gap ++ ['/', '>'] ++ line.blanks :=
  Text.dropEndWhile_append (isLineBreak_of_mem isOf.ends) (not_isLineBreak_of_getLast? isOf _)

/-- The line ends in a carriage return if that is all there is of its end. -/
theorem getLast?_leafLine_eq_return_iff {name : Text} {attributes : Tag.Attributes}
    {line : Tag.LeafLine} (isOf : line.IsOf delimiter name attributes) :
    (line.text delimiter).getLast? = some '\r' ↔ line.lineEnd = ['\r'] := by
  have ends := isOf.ends
  simp only [Tag.lineEnds, List.mem_cons, List.not_mem_nil, or_false] at ends
  rw [Tag.LeafLine.text]
  rcases ends with none | feed | bare | both
  · rw [none, List.append_nil]
    refine iff_of_false (fun last => ?_) (by decide)
    exact absurd (not_isLineBreak_of_getLast? isOf _ _ last) (by decide)
  · rw [feed, List.getLast?_concat]
    decide
  · rw [bare, List.getLast?_concat]
    decide
  · rw [both, List.getLast?_append]
    exact iff_of_false (by simp) (by decide)

/-- **The two markers** that a marker closing itself turns into. -/
theorem expandMarkers_eq {tag : Tag} {line : Tag.LeafLine}
    (split : tag.openMarker = line.text delimiter)
    (isOf : line.IsOf delimiter tag.name tag.attributes) :
    expandMarkers delimiter tag =
      (line.front delimiter ++ '>' :: completed line.lineEnd,
        line.indent ++ delimiter ++ '<' :: '/' :: tag.name ++ '>' :: completed line.lineEnd) := by
  have ending : (line.text delimiter).drop
      (line.front delimiter ++ line.gap ++ ['/', '>'] ++ line.blanks).length = line.lineEnd :=
    List.drop_left
  have before : Text.before? (line.front delimiter ++ line.gap ++ ['/', '>']) "/>".toList =
      some (line.front delimiter ++ line.gap) :=
    Text.before?_eq_some.mpr rfl
  simp only [expandMarkers, split, dropEndWhile_isLineBreak isOf, isOf.takeWhile_text, ending,
    isOf.trimEnd_blanks, before, isOf.trimEnd_gap]
  rw [completed]
  simp only [List.append_assoc, List.cons_append, List.nil_append]

theorem isLineEnd_completed {lineEnd : Text} (ends : lineEnd ∈ Tag.lineEnds) :
    Tag.isLineEnd (completed lineEnd) = true := by
  revert lineEnd
  decide

/-- A completed line end is a line feed, if it is no bare carriage return. -/
theorem exists_completed_eq {lineEnd : Text} (ends : lineEnd ∈ Tag.lineEnds)
    (feed : lineEnd ≠ ['\r']) : ∃ start, completed lineEnd = start ++ ['\n'] ∧ '\n' ∉ start := by
  simp only [Tag.lineEnds, List.mem_cons, List.not_mem_nil, or_false] at ends
  rcases ends with rfl | rfl | rfl | rfl
  · exact ⟨[], rfl, List.not_mem_nil⟩
  · exact ⟨[], rfl, List.not_mem_nil⟩
  · exact absurd rfl feed
  · exact ⟨['\r'], rfl, by decide⟩

/-- **The two markers are read** as an open and a close marker of the tag. -/
theorem reads_expandMarkers {tag : Tag} (reads : Tag.Marker.Reads delimiter tag.openMarker
      (some (.opening tag.name tag.attributes true))) :
    Tag.Marker.Reads delimiter (expandMarkers delimiter tag).1
        (some (.opening tag.name tag.attributes false)) ∧
      Tag.Marker.Reads delimiter (expandMarkers delimiter tag).2 (some (.closing tag.name)) := by
  obtain ⟨line, split, isOf⟩ := Tag.exists_leafLine_of_reads reads
  rw [expandMarkers_eq split isOf]
  obtain ⟨pairs, leads, collected⟩ := isOf.leads
  have isEnd := isLineEnd_completed isOf.ends
  have noGap : Tag.IsInline [] := nofun
  constructor
  · refine Tag.Marker.reads_opening_iff.mpr ⟨line.indent,
      line.lead ++ ([] ++ (Tag.tagEnd false ++ completed line.lineEnd)), pairs,
      ⟨?_, isOf.inline, isOf.stops_append _⟩,
      Tag.readOpening?_eq_some_iff.mpr ⟨line.lead, leads, .mk noGap isEnd⟩, collected⟩
    simp [Tag.LeafLine.front, Tag.tagEnd]
  · have leadsClosing := @Tag.LeadsClosing.mk tag.name [] noGap leads.qualified
    refine Tag.Marker.reads_closing_iff.mpr ⟨line.indent,
      ([] ++ '<' :: '/' :: tag.name) ++ ([] ++ (Tag.tagEnd false ++ completed line.lineEnd)),
      ⟨?_, isOf.inline, isOf.stops.of_append.append (Tag.stops_cons (by decide) _)⟩,
      Tag.readClosing?_eq_some_iff.mpr ⟨_, leadsClosing, .mk noGap isEnd⟩⟩
    simp [Tag.tagEnd]

/-- The two markers are complete lines, unless the line ended in a bare carriage return. -/
theorem isLine_expandMarkers {tag : Tag} (isLine : tag.openMarker.IsLine)
    (reads : Tag.Marker.Reads delimiter tag.openMarker
      (some (.opening tag.name tag.attributes true)))
    (ended : tag.openMarker.getLast? ≠ some '\r') :
    ((expandMarkers delimiter tag).1.IsLine ∧ (expandMarkers delimiter tag).1.IsClosed) ∧
      (expandMarkers delimiter tag).2.IsLine ∧ (expandMarkers delimiter tag).2.IsClosed := by
  obtain ⟨line, split, isOf⟩ := Tag.exists_leafLine_of_reads reads
  rw [expandMarkers_eq split isOf]
  obtain ⟨pairs, leads, _⟩ := isOf.leads
  have feed : line.lineEnd ≠ ['\r'] := by
    intro same
    rw [split, Tag.LeafLine.text, same, List.getLast?_concat] at ended
    exact ended rfl
  obtain ⟨start, same, absentStart⟩ := exists_completed_eq isOf.ends feed
  have absentFront := Tag.LeafLine.newline_not_mem_front (split ▸ isLine)
  have absentIndent : '\n' ∉ line.indent ++ delimiter := fun member =>
    absentFront (List.mem_append_left _ member)
  have absentName := leads.qualified.newline_not_mem
  have opened : line.front delimiter ++ '>' :: completed line.lineEnd =
      (line.front delimiter ++ '>' :: start) ++ ['\n'] := by
    rw [same]
    simp only [List.append_assoc, List.cons_append]
  have closed : line.indent ++ delimiter ++ '<' :: '/' :: tag.name ++ '>' :: completed line.lineEnd =
      (line.indent ++ delimiter ++ '<' :: '/' :: tag.name ++ '>' :: start) ++ ['\n'] := by
    rw [same]
    simp only [List.append_assoc, List.cons_append]
  rw [opened, closed]
  refine ⟨⟨Text.isLine_append_newline ?_, Or.inr List.getLast?_concat⟩,
    Text.isLine_append_newline ?_, Or.inr List.getLast?_concat⟩
  · rw [List.mem_append, not_or, List.mem_cons, not_or]
    exact ⟨absentFront, by decide, absentStart⟩
  · simp only [List.mem_append, List.mem_cons, not_or] at absentIndent ⊢
    exact ⟨⟨absentIndent, by decide, by decide, absentName⟩, by decide, absentStart⟩

/-- A tag with a completed line end ends in a line feed, unless that is a bare carriage return. -/
theorem getLast?_append_completed_iff {lineEnd : Text} (ends : lineEnd ∈ Tag.lineEnds)
    (start : Text) :
    (start ++ '>' :: completed lineEnd).getLast? = some '\n' ↔ lineEnd ≠ ['\r'] := by
  have last : ('>' :: completed lineEnd).getLast? = some '\n' ↔ lineEnd ≠ ['\r'] := by
    revert lineEnd
    decide
  rw [List.getLast?_append, List.getLast?_cons, Option.some_or, ← List.getLast?_cons]
  exact last

/-- **The two lines** are an open and a close marker of the tag wherever they stand, and they end
in a line feed exactly if the line before was not ended by a bare carriage return. -/
theorem ofLine?_expandMarkers {tag : Tag} {offset : Nat}
    (opens : Tag.Marker.ofLine? delimiter ⟨tag.openMarker, offset⟩ =
      .ok (some (.opening tag.name tag.attributes true))) (place : Nat) :
    (Tag.Marker.ofLine? delimiter ⟨(expandMarkers delimiter tag).1, place⟩ =
        .ok (some (.opening tag.name tag.attributes false)) ∧
      ((expandMarkers delimiter tag).1.getLast? = some '\n' ↔
        tag.openMarker.getLast? ≠ some '\r')) ∧
      Tag.Marker.ofLine? delimiter ⟨(expandMarkers delimiter tag).2, place⟩ =
        .ok (some (.closing tag.name)) ∧
      ((expandMarkers delimiter tag).2.getLast? = some '\n' ↔
        tag.openMarker.getLast? ≠ some '\r') := by
  have reads := Tag.Marker.ofLine?_eq_ok_iff.mp opens
  obtain ⟨readsOpen, readsClose⟩ := reads_expandMarkers reads
  obtain ⟨line, split, isOf⟩ := Tag.exists_leafLine_of_reads reads
  have bare : tag.openMarker.getLast? ≠ some '\r' ↔ line.lineEnd ≠ ['\r'] :=
    not_congr (congrArg List.getLast? split ▸ getLast?_leafLine_eq_return_iff isOf)
  refine ⟨⟨Tag.Marker.ofLine?_eq_ok_iff.mpr readsOpen, ?_⟩,
    Tag.Marker.ofLine?_eq_ok_iff.mpr readsClose, ?_⟩
  · rw [bare, expandMarkers_eq split isOf]
    exact getLast?_append_completed_iff isOf.ends _
  · rw [bare, expandMarkers_eq split isOf]
    exact getLast?_append_completed_iff isOf.ends _

/-- An indented marker with blanks in front of its end, in the last line of a text. -/
theorem ofLine?_expandMarkers_indented : ∃ tag : Tag,
    tag.openMarker = "\t//<a k=\"v\" />  ".toList ∧
      expandMarkers "//".toList tag = ("\t//<a k=\"v\">\n".toList, "\t//</a>\n".toList) ∧
      Tag.Marker.ofLine? "//".toList ⟨(expandMarkers "//".toList tag).1, 7⟩ =
        .ok (some (.opening tag.name tag.attributes false)) ∧
      (expandMarkers "//".toList tag).1.getLast? = some '\n' := by
  let attributes : Tag.Attributes := ⟨[("k".toList, "v".toList)], by decide⟩
  let tag : Tag := ⟨"a".toList, attributes, "\t//<a k=\"v\" />  ".toList, [], 3⟩
  have opens : Tag.Marker.ofLine? "//".toList ⟨tag.openMarker, tag.offset⟩ =
      .ok (some (.opening tag.name tag.attributes true)) := by decide +kernel
  obtain ⟨⟨read, last⟩, _⟩ := ofLine?_expandMarkers opens 7
  exact ⟨tag, rfl, by decide +kernel, read, last.mpr (by decide)⟩

/-- A bare carriage return at the end of a text ends the two lines, too: new content goes on in
the line of the open marker, and the section is no longer found. -/
theorem expandMarkers_bareReturn : ∃ tag : Tag,
    tag.openMarker = "//<a gen=\"Replace\"/>\r".toList ∧
      Tag.Marker.ofLine? "//".toList ⟨tag.openMarker, 0⟩ =
        .ok (some (.opening tag.name tag.attributes true)) ∧
      (expandMarkers "//".toList tag).1.getLast? = some '\r' ∧
      (expandMarkers "//".toList tag).2.getLast? = some '\r' ∧
      ∃ result forest, regenerate "//".toList tag.openMarker tag.name "x".toList = .ok result ∧
        Forest.parse "//".toList result = .ok forest ∧ forest.find? tag.name = none := by
  let attributes : Tag.Attributes := ⟨[("gen".toList, "Replace".toList)], by decide⟩
  let tag : Tag := ⟨"a".toList, attributes, "//<a gen=\"Replace\"/>\r".toList, [], 0⟩
  have result : regenerate "//".toList tag.openMarker tag.name "x".toList =
      .ok "//<a gen=\"Replace\">\rx\n//</a>\r".toList := by decide +kernel
  exact ⟨tag, rfl, by decide +kernel, by decide +kernel, by decide +kernel, _,
    .text "//<a gen=\"Replace\">\rx\n//</a>\r".toList .empty, result, by decide +kernel,
    by decide +kernel⟩

/-! ### Sections that get content -/

/-- The tag of a section that gets content. -/
def opened (delimiter : Text) (tag : Tag) : Tag :=
  { tag with openMarker := (markers delimiter tag).1, closeMarker := (markers delimiter tag).2 }

/-- The section with its new content. -/
def renewed (delimiter : Text) (tag : Tag) (content : Text) : Element :=
  ⟨opened delimiter tag, .text content.closeLine .empty⟩

@[simp] theorem innerText_renewed (delimiter : Text) (tag : Tag) (content : Text) :
    (renewed delimiter tag content).innerText = content.closeLine :=
  List.append_nil _

@[simp] theorem render_renewed (delimiter : Text) (tag : Tag) (content : Text) :
    (renewed delimiter tag content).render = replaced delimiter tag content :=
  congrArg (opened delimiter tag).around (innerText_renewed delimiter tag content)

theorem opened_of_isPair {tag : Tag} (isPair : tag.IsPair delimiter) :
    opened delimiter tag = tag := by
  have two : markers delimiter tag = (tag.openMarker, tag.closeMarker) :=
    if_neg (by rw [isPair.isSelfClosing]; exact Bool.false_ne_true)
  rw [opened, two]

theorem markers_of_isLeaf {tag : Tag} (isLeaf : tag.IsLeaf delimiter) :
    markers delimiter tag = expandMarkers delimiter tag :=
  if_pos isLeaf.isSelfClosing

/-- **A section that gets content has two markers**, whatever it had before. -/
theorem isPair_opened {item : Element} (marked : item.IsMarked delimiter)
    (ended : item.tag.openMarker.getLast? ≠ some '\r') :
    (opened delimiter item.tag).IsPair delimiter := by
  rcases marked with ⟨isLeaf, _⟩ | isPair
  · obtain ⟨⟨openLine, _⟩, closeLine, _⟩ := isLine_expandMarkers isLeaf.openLine isLeaf.opens ended
    obtain ⟨opens, closes⟩ := reads_expandMarkers isLeaf.opens
    rw [← markers_of_isLeaf isLeaf] at openLine closeLine opens closes
    exact ⟨openLine, opens, closeLine, closes⟩
  · rw [opened_of_isPair isPair]
    exact isPair

/-- A section with new content is sealed where the section was. -/
theorem isSealed_renewed {followed : Prop} {item : Element} (marked : item.IsMarked delimiter)
    (ended : item.tag.openMarker.getLast? ≠ some '\r') (isSealed : item.IsSealed followed)
    (content : Text) :
    (renewed delimiter item.tag content).IsSealed followed := by
  have inside := Forest.isSealed_content content
  have isPairOpened := isPair_opened marked ended
  rcases marked with ⟨isLeaf, _⟩ | isPair
  · obtain ⟨⟨_, openClosed⟩, _, closeClosed⟩ :=
      isLine_expandMarkers isLeaf.openLine isLeaf.opens ended
    rw [← markers_of_isLeaf isLeaf] at openClosed closeClosed
    exact (Forest.isSealed_of_isPair isPairOpened).mpr ⟨openClosed, inside, fun _ => closeClosed⟩
  · obtain ⟨openClosed, _, closeClosed⟩ := (Forest.isSealed_of_isPair isPair).mp isSealed
    rw [renewed, opened_of_isPair isPair]
    exact (Forest.isSealed_of_isPair isPair).mpr ⟨openClosed, inside, closeClosed⟩

end Section

end Scaffold
