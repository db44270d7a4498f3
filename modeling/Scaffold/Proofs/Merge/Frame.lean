/-
**An update changes its section and nothing else.**

The section is found by its name and written anew by its offset. No two elements of a file share an
offset, so of all elements only the section changes, and the text before and after it is kept as it
is:

* `renderReplacing_of_mem`: a forest with an element replaced, between the texts around that
  element;
* `isSection_replaced`: what is written in its place, between the markers of the section;
* `wrap_added`: what is written for a section that is new;
* `regenerate_frame`: all that an update can do to a file.
-/

import Scaffold.Proofs.Merge.Regeneration

namespace Scaffold

namespace Forest

variable {delimiter : Text} {forest : Forest} {item : Element}

/-! ### Replacing one element -/

/-- Where no element is at the offset nothing is replaced. -/
theorem renderReplacing_of_absent {offset : Nat}
    (absent : ∀ other ∈ forest.elements, other.tag.offset ≠ offset) (replacement : Text) :
    forest.renderReplacing offset replacement = forest.render := by
  induction forest with
  | empty => rfl
  | text content next ih => rw [renderReplacing, render, ih absent]
  | element tag inner next ihInner ihNext =>
    have here : tag.offset ≠ offset := absent ⟨tag, inner⟩ List.mem_cons_self
    have inside := ihInner fun other within =>
      absent other (List.mem_cons_of_mem _ (List.mem_append_left _ within))
    have later := ihNext fun other after =>
      absent other (List.mem_cons_of_mem _ (List.mem_append_right _ after))
    rw [renderReplacing, render, if_neg here, inside, later]

/-- **An element is replaced between the texts around it**, in a forest whose tags are placed and
have different offsets. -/
theorem renderReplacing_of_mem {offset : Nat} (placed : forest.Placed offset)
    (distinct : forest.IsApart) (member : item ∈ forest.elements) :
    ∃ before after, forest.render = before ++ item.render ++ after ∧
      item.tag.offset = offset + Text.size before ∧
      ∀ replacement, forest.renderReplacing item.tag.offset replacement =
        before ++ replacement ++ after := by
  induction forest generalizing offset with
  | empty => cases member
  | text content next ih =>
    obtain ⟨before, after, split, place, replaced⟩ := ih placed distinct member
    refine ⟨content ++ before, after, ?_, ?_, fun replacement => ?_⟩
    · rw [render, split]
      simp only [List.append_assoc]
    · rw [place, Text.size_append, Nat.add_assoc]
    · rw [renderReplacing, replaced]
      simp only [List.append_assoc]
  | element tag inner next ihInner ihNext =>
    obtain ⟨here, placedInner, placedNext⟩ := placed
    obtain ⟨above, distinctInner, distinctNext, apart⟩ := isApart_element distinct
    rcases List.mem_cons.mp member with rfl | member
    · refine ⟨[], next.render, rfl, here, fun replacement => ?_⟩
      have later := renderReplacing_of_absent
        (fun other after => above other (List.mem_append_right _ after)) replacement
      rw [renderReplacing, if_pos rfl, later]
      rfl
    · rcases List.mem_append.mp member with inside | later
      · obtain ⟨before, after, split, place, replaced⟩ :=
          ihInner placedInner distinctInner inside
        refine ⟨tag.openMarker ++ before, after ++ tag.closeMarker ++ next.render, ?_, ?_,
          fun replacement => ?_⟩
        · rw [render, Tag.around, split]
          simp only [List.append_assoc]
        · rw [place, Text.size_append, Nat.add_assoc]
        · have elsewhere : tag.offset ≠ item.tag.offset :=
            (above item (List.mem_append_left _ inside)).symm
          have afterwards := renderReplacing_of_absent
            (fun other after => (apart item inside other after).symm) replacement
          rw [renderReplacing, if_neg elsewhere, replaced, afterwards, Tag.around]
          simp only [List.append_assoc]
      · obtain ⟨before, after, split, place, replaced⟩ := ihNext placedNext distinctNext later
        refine ⟨tag.around inner.render ++ before, after, ?_, ?_, fun replacement => ?_⟩
        · rw [render, split]
          simp only [List.append_assoc]
        · rw [place, Text.size_append, Nat.add_assoc]
        · have elsewhere : tag.offset ≠ item.tag.offset :=
            (above item (List.mem_append_right _ later)).symm
          have inside := renderReplacing_of_absent
            (fun other within => apart other within item later) replacement
          rw [renderReplacing, if_neg elsewhere, inside, replaced]
          simp only [List.append_assoc]

end Forest

namespace Section

variable {delimiter existing name content result : Text}

/-! ### The text of a section -/

/-- The text of a section with this content: the content as complete lines, between the markers of
the section as they are written. A marker that closes itself becomes two: up to its last attribute
it stays the open one, and the close one has the same blanks before and the same end of the line. -/
def IsSection (delimiter : Text) (tag : Tag) (content text : Text) : Prop :=
  tag.isSelfClosing = false ∧ text = tag.openMarker ++ content.closeLine ++ tag.closeMarker ∨
    tag.isSelfClosing = true ∧ ∃ line : Tag.LeafLine,
      tag.openMarker = line.text delimiter ∧ line.IsOf delimiter tag.name tag.attributes ∧
        text = (line.front delimiter ++ '>' :: completed line.lineEnd) ++ content.closeLine ++
          (line.indent ++ delimiter ++ '<' :: '/' :: tag.name ++ '>' :: completed line.lineEnd)

/-- **What is written for a section** is its text with the new content. -/
theorem isSection_replaced {item : Element} (marked : item.IsMarked delimiter) (content : Text) :
    IsSection delimiter item.tag content (replaced delimiter item.tag content) := by
  rcases marked with ⟨isLeaf, _⟩ | isPair
  · obtain ⟨line, split, isOf⟩ := Tag.exists_leafLine_of_reads isLeaf.opens
    refine Or.inr ⟨isLeaf.isSelfClosing, line, split, isOf, ?_⟩
    rw [replaced, markers_of_isLeaf isLeaf, expandMarkers_eq split isOf]
  · refine Or.inl ⟨isPair.isSelfClosing, ?_⟩
    rw [replaced, markers, if_neg (by rw [isPair.isSelfClosing]; exact Bool.false_ne_true)]

/-- **What is written for a new section.** -/
theorem wrap_added (delimiter name content : Text) :
    (added name).wrap content delimiter =
      delimiter ++ '<' :: name ++ " gen=\"Replace\">\n".toList ++ content.closeLine ++
        (delimiter ++ '<' :: '/' :: name ++ ">\n".toList) := by
  have marker : (added name).openMarker delimiter =
      delimiter ++ '<' :: name ++ " gen=\"Replace\">\n".toList := by
    show delimiter ++ '<' :: name ++ " gen=\"Replace\"".toList ++ ">\n".toList = _
    rw [List.append_assoc (delimiter ++ _)]
    rfl
  rw [Directive.wrap, marker]
  rfl

/-! ### The update -/

theorem eq_demand_of_ne {mode : GenMode} (acts : mode ≠ .skip) (unforced : mode ≠ .force) :
    mode = .demand := by
  cases mode with
  | force => exact absurd rfl unforced
  | demand => rfl
  | skip => exact absurd rfl acts

/-- A section that is found is replaced where that is forced, or where it is the generator's. -/
theorem Action.forced_or_owned {mode : GenMode} {item : Element}
    (asked : Action.of mode (some item) = .replace item.tag) :
    mode = .force ∨ item.tag.isMachineOwned = true := by
  by_cases forced : mode = .force
  · exact Or.inl forced
  · by_cases owned : item.tag.isMachineOwned = true
    · exact Or.inr owned
    · have left : Action.of mode (some item) = .leave := by
        cases mode with
        | force => exact absurd rfl forced
        | demand => exact if_neg owned
        | skip => exact if_neg owned
      rw [left] at asked
      cases asked

/-- **All that an update can do to a file**: nothing, if the file is skipped, or if it is not forced
and its first section of the name is missing or does not belong to the generator; a new section
after the file, if it is forced and has no section of the name; and otherwise the text of the first
section of the name, with the new content, where that section stood. -/
theorem regenerate_frame (done : regenerate delimiter existing name content = .ok result) :
    modeFor delimiter existing = .skip ∧ result = existing ∨
      ∃ forest, Forest.parse delimiter existing = .ok forest ∧
        (modeFor delimiter existing = .demand ∧
            (∀ item, forest.find? name = some item → item.tag.isMachineOwned = false) ∧
            result = existing ∨
          modeFor delimiter existing = .force ∧ forest.find? name = none ∧
            result = existing.closeLine ++
              (delimiter ++ '<' :: name ++ " gen=\"Replace\">\n".toList ++ content.closeLine ++
                (delimiter ++ '<' :: '/' :: name ++ ">\n".toList)) ∨
          ∃ item before after, forest.find? name = some item ∧
            (modeFor delimiter existing = .force ∨
              modeFor delimiter existing = .demand ∧ item.tag.isMachineOwned = true) ∧
            existing = before ++ item.render ++ after ∧ item.tag.offset = Text.size before ∧
            ∃ written, IsSection delimiter item.tag content written ∧
              result = before ++ written ++ after) := by
  obtain ⟨_, ⟨skips, rfl⟩ | ⟨mode, forest, read, text⟩⟩ := regenerate_cases done
  · exact Or.inl ⟨skips, rfl⟩
  · refine Or.inr ⟨forest, read, ?_⟩
    rcases Action.of_cases (modeFor delimiter existing) (forest.find? name) with
      ⟨item, found, asked⟩ | ⟨forced, absent, asked⟩ | ⟨unforced, unowned, asked⟩
    · have member := Forest.mem_of_find? found
      have same := Forest.render_of_parse read
      obtain ⟨before, after, split, place, replacing⟩ := Forest.renderReplacing_of_mem
        (Forest.placed_of_parse read) (Forest.isApart_of_parse read) member
      have marked := ((Forest.fits_of_parse read).1.of_mem member).1
      rw [asked, Action.text, replacing] at text
      refine Or.inr (Or.inr ⟨item, before, after, found, ?_, same ▸ split, ?_, _,
        isSection_replaced marked content, text⟩)
      · by_cases forced : modeFor delimiter existing = .force
        · exact Or.inl forced
        · rw [found] at asked
          exact Or.inr ⟨eq_demand_of_ne mode forced,
            (Action.forced_or_owned asked).resolve_left forced⟩
      · rw [place, Nat.zero_add]
    · rw [asked, Action.text, append, wrap_added] at text
      exact Or.inr (Or.inl ⟨forced, absent, text⟩)
    · rw [asked] at text
      exact Or.inl ⟨eq_demand_of_ne mode unforced, unowned, text⟩

/-- The first of two sections of a name closes itself and stands inside another element; the content
looks like a marker, and the file does not end with a line feed. -/
theorem regenerate_frame_nested : ∃ existing result : Text,
    existing = ("//<a k=\"v\">\n\t//<s gen=\"Replace\" />\r\n//</a>\n" ++
      "//<s gen=\"Replace\">\nold\n//</s>").toList ∧
      result = ("//<a k=\"v\">\n\t//<s gen=\"Replace\">\r\n//</a>\n\t//</s>\r\n//</a>\n" ++
        "//<s gen=\"Replace\">\nold\n//</s>").toList ∧
      regenerate "//".toList existing "s".toList "//</a>".toList = .ok result ∧
      modeFor "//".toList existing = .demand ∧
      ∃ forest item before after, Forest.parse "//".toList existing = .ok forest ∧
        forest.find? "s".toList = some item ∧ item.tag.isMachineOwned = true ∧
        existing = before ++ item.render ++ after ∧ item.tag.offset = Text.size before ∧
        ∃ written, IsSection "//".toList item.tag "//</a>".toList written ∧
          result = before ++ written ++ after := by
  have found : (regenerate "//".toList ("//<a k=\"v\">\n\t//<s gen=\"Replace\" />\r\n//</a>\n" ++
      "//<s gen=\"Replace\">\nold\n//</s>").toList "s".toList "//</a>".toList).toOption =
      some ("//<a k=\"v\">\n\t//<s gen=\"Replace\">\r\n//</a>\n\t//</s>\r\n//</a>\n" ++
        "//<s gen=\"Replace\">\nold\n//</s>").toList := by
    decide +kernel
  have mode : modeFor "//".toList ("//<a k=\"v\">\n\t//<s gen=\"Replace\" />\r\n//</a>\n" ++
      "//<s gen=\"Replace\">\nold\n//</s>").toList = .demand := by
    decide +kernel
  have changed : ("//<a k=\"v\">\n\t//<s gen=\"Replace\">\r\n//</a>\n\t//</s>\r\n//</a>\n" ++
      "//<s gen=\"Replace\">\nold\n//</s>").toList ≠
      ("//<a k=\"v\">\n\t//<s gen=\"Replace\" />\r\n//</a>\n" ++
        "//<s gen=\"Replace\">\nold\n//</s>").toList := by
    decide
  have done := ok_of_toOption found
  rcases regenerate_frame done with ⟨skips, _⟩ | ⟨forest, read, ⟨_, _, same⟩ | ⟨forced, _⟩ |
    ⟨item, before, after, first, acts, split, place, written, isSection, text⟩⟩
  · rw [mode] at skips
    cases skips
  · exact absurd same changed
  · rw [mode] at forced
    cases forced
  · refine ⟨_, _, rfl, rfl, done, mode, forest, item, before, after, read, first, ?_, split,
      place, written, isSection, text⟩
    rcases acts with forced | ⟨_, owned⟩
    · rw [mode] at forced
      cases forced
    · exact owned

end Section

end Scaffold
