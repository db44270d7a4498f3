/-
**Directives as they are written.**

A directive is written as a pair of marker lines around a content, and read again as what it was:

* `exists_writesPairs_flatMap`: attributes are read as they were written, if they can be;
* `isPair_tag`: the two lines of a directive are the markers of its tag;
* `fits_forest`: a directive around a content without markers fits inside any elements.
-/

import Scaffold.Proofs.Tag.Completed

namespace Scaffold

namespace Tag

/-! ### Attributes as they are written -/

theorem Attributes.eq_of_entries {first second : Attributes}
    (same : first.entries = second.entries) : first = second := by
  cases first
  cases second
  cases same
  rfl

/-- Pairs are collected as they are, if no key comes twice. -/
theorem collect_eq_ok_iff {attributes more : Attributes} {pairs : List Pair} :
    collect attributes pairs = .ok more ↔
      more.entries = attributes.entries ++ pairs.map fun pair => (pair.key, pair.value) := by
  induction pairs generalizing attributes with
  | nil =>
    rw [collect, List.map_nil, List.append_nil, Except.ok.injEq]
    exact ⟨fun same => same ▸ rfl, fun same => (Attributes.eq_of_entries same).symm⟩
  | cons pair rest ih =>
    rw [collect, List.map_cons]
    by_cases taken : attributes.hasKey pair.key = true
    · have none : attributes.insert? pair.key pair.value = none := dif_pos taken
      rw [none]
      refine iff_of_false (fun failed => by cases failed) fun same => ?_
      have distinct := more.distinct
      rw [same, List.map_append, List.nodup_append] at distinct
      exact distinct.2.2 _ (Attributes.hasKey_iff.mp taken) _ List.mem_cons_self rfl
    · obtain ⟨added, inserted, entries⟩ : ∃ added,
          attributes.insert? pair.key pair.value = some added ∧
            added.entries = attributes.entries ++ [(pair.key, pair.value)] :=
        ⟨_, dif_neg taken, rfl⟩
      rw [inserted]
      simp only [ih, entries, List.append_assoc, List.singleton_append]

/-- An attribute as it is written, after a blank. -/
def entryText (entry : Text × Text) : Text :=
  ' ' :: (entry.1 ++ "=\"".toList ++ entry.2 ++ ['"'])

/-- The attribute can be written so that it is read again. -/
def IsWritable (entry : Text × Text) : Prop :=
  IsWord continuesKey entry.1 ∧ ∀ char ∈ entry.2, isValueChar char = true

theorem join_eq_flatMap {parts : List Text} (filled : parts ≠ []) :
    ' ' :: Text.join [' '] parts = parts.flatMap fun part => ' ' :: part := by
  induction parts with
  | nil => exact absurd rfl filled
  | cons part rest ih =>
    cases rest with
    | nil => simp [Text.join]
    | cons second later =>
      have more := ih (List.cons_ne_nil _ _)
      rw [List.flatMap_cons, ← more]
      simp [Text.join, List.intercalate]

theorem text_eq_flatMap {attributes : Attributes} (filled : attributes.entries ≠ []) :
    ' ' :: attributes.text = attributes.entries.flatMap entryText := by
  rw [Attributes.text, join_eq_flatMap (by simpa using filled), List.flatMap_map]
  rfl

theorem writesPair_entryText {entry : Text × Text} (writable : IsWritable entry) :
    WritesPair [' '] entry.1 entry.2 (entryText entry) := by
  have blank : IsInline [' '] := by
    intro char member
    rw [List.mem_singleton.mp member]
    rfl
  have written : entryText entry =
      [' '] ++ (entry.1 ++ ([] ++ '=' :: ([] ++ '"' :: (entry.2 ++ ['"'])))) := by
    simp [entryText]
  rw [written]
  exact .mk (List.cons_ne_nil _ _) blank writable.1 nofun nofun writable.2

/-- Attributes that can be written are read again. -/
theorem exists_writesPairs_flatMap {entries : List (Text × Text)}
    (writable : ∀ entry ∈ entries, IsWritable entry) (offset : Nat) :
    ∃ pairs, WritesPairs offset pairs (entries.flatMap entryText) ∧
      (pairs.map fun pair => (pair.key, pair.value)) = entries := by
  induction entries generalizing offset with
  | nil => exact ⟨[], .nil, rfl⟩
  | cons entry rest ih =>
    obtain ⟨first, others⟩ := List.forall_mem_cons.mp writable
    obtain ⟨pairs, writes, same⟩ := ih others (offset + (entryText entry).size)
    exact ⟨_, .cons (writesPair_entryText first) writes, congrArg ((entry.1, entry.2) :: ·) same⟩

theorem newline_not_mem_entryText {entry : Text × Text} (writable : IsWritable entry) :
    '\n' ∉ entryText entry := by
  have absentKey := writable.1.newline_not_mem (by decide)
  have absentValue : '\n' ∉ entry.2 := fun member =>
    absurd (writable.2 _ member) (by decide)
  simp [entryText, absentKey, absentValue]

end Tag

/-! ### Directives -/

namespace Directive

variable {delimiter : Text}

/-- **The open marker of a directive** is read as what it was written from. -/
theorem reads_openMarker {directive : Directive} (usable : Tag.Marker.IsUsable delimiter)
    (named : Tag.isName directive.name = true) (filled : directive.attributes.entries ≠ [])
    (writable : ∀ entry ∈ directive.attributes.entries, Tag.IsWritable entry) :
    Tag.Marker.Reads delimiter (directive.openMarker delimiter)
      (some (.opening directive.name directive.attributes false)) := by
  obtain ⟨pairs, writes, entries⟩ := Tag.exists_writesPairs_flatMap writable
    (Text.size [] + delimiter.size + Text.size ([] ++ '<' :: directive.name))
  have some : pairs ≠ [] := by
    rintro rfl
    exact filled entries.symm
  have leads := @Tag.LeadsOpening.mk _ _ _ [] _ nofun (Tag.isName_iff.mp named) writes some
  have line : directive.openMarker delimiter = [] ++ (delimiter ++
      (([] ++ '<' :: (directive.name ++ directive.attributes.entries.flatMap Tag.entryText)) ++
        ([] ++ (Tag.tagEnd false ++ ['\n'])))) := by
    rw [openMarker, if_neg filled, ← Tag.text_eq_flatMap filled]
    simp [Tag.tagEnd]
  rw [line]
  refine Tag.Marker.reads_opening_iff.mpr ⟨[], _, pairs,
    usable.delimits nofun (Tag.stops_cons (by decide) _),
    Tag.readOpening?_eq_some_iff.mpr ⟨_, leads, .mk nofun (by decide)⟩, ?_⟩
  rw [Tag.collect_eq_ok_iff, entries]
  rfl

/-- **The close marker of a directive** is read as what it was written from. -/
theorem reads_closeMarker {directive : Directive} (usable : Tag.Marker.IsUsable delimiter)
    (named : Tag.isName directive.name = true) :
    Tag.Marker.Reads delimiter (directive.closeMarker delimiter)
      (some (.closing directive.name)) := by
  have leads := @Tag.LeadsClosing.mk _ [] nofun (Tag.isName_iff.mp named)
  have line : directive.closeMarker delimiter = [] ++ (delimiter ++
      (([] ++ '<' :: '/' :: directive.name) ++ ([] ++ (Tag.tagEnd false ++ ['\n'])))) := by
    rw [closeMarker]
    simp [Tag.tagEnd]
  rw [line]
  exact Tag.Marker.reads_closing_iff.mpr ⟨[], _,
    usable.delimits nofun (Tag.stops_cons (by decide) _),
    Tag.readClosing?_eq_some_iff.mpr ⟨_, leads, .mk nofun (by decide)⟩⟩

theorem isLine_openMarker {directive : Directive} (usable : Tag.Marker.IsUsable delimiter)
    (named : Tag.isName directive.name = true) (filled : directive.attributes.entries ≠ [])
    (writable : ∀ entry ∈ directive.attributes.entries, Tag.IsWritable entry) :
    (directive.openMarker delimiter).IsLine := by
  have absentName := (Tag.isName_iff.mp named).newline_not_mem
  have absentText : '\n' ∉ directive.attributes.entries.flatMap Tag.entryText := by
    intro member
    obtain ⟨entry, inside, here⟩ := List.mem_flatMap.mp member
    exact Tag.newline_not_mem_entryText (writable entry inside) here
  have line : directive.openMarker delimiter = delimiter ++ '<' :: (directive.name ++
      (directive.attributes.entries.flatMap Tag.entryText ++ ['>'])) ++ ['\n'] := by
    rw [openMarker, if_neg filled, ← Tag.text_eq_flatMap filled]
    simp
  rw [line]
  refine Text.isLine_append_newline ?_
  simp only [List.mem_append, List.mem_cons, not_or]
  exact ⟨usable.oneLine, by decide, absentName, absentText, by decide⟩

theorem isLine_closeMarker {directive : Directive} (usable : Tag.Marker.IsUsable delimiter)
    (named : Tag.isName directive.name = true) : (directive.closeMarker delimiter).IsLine := by
  have absentName := (Tag.isName_iff.mp named).newline_not_mem
  have line : directive.closeMarker delimiter =
      delimiter ++ '<' :: '/' :: (directive.name ++ ['>']) ++ ['\n'] := by
    rw [closeMarker]
    simp
  rw [line]
  refine Text.isLine_append_newline ?_
  simp only [List.mem_append, List.mem_cons, not_or]
  exact ⟨usable.oneLine, by decide, by decide, absentName, by decide⟩

theorem isClosed_markers (directive : Directive) (delimiter : Text) :
    (directive.openMarker delimiter).IsClosed ∧ (directive.closeMarker delimiter).IsClosed := by
  constructor
  · refine Or.inr ?_
    rw [openMarker, List.getLast?_append]
    rfl
  · refine Or.inr ?_
    rw [closeMarker, List.getLast?_append]
    rfl

/-- The tag that a directive is written as, at `offset`. -/
def tag (directive : Directive) (delimiter : Text) (offset : Nat) : Tag :=
  ⟨directive.name, directive.attributes, directive.openMarker delimiter,
    directive.closeMarker delimiter, offset⟩

/-- **A directive is written as a tag with two markers.** -/
theorem isPair_tag {directive : Directive} (usable : Tag.Marker.IsUsable delimiter)
    (named : Tag.isName directive.name = true) (filled : directive.attributes.entries ≠ [])
    (writable : ∀ entry ∈ directive.attributes.entries, Tag.IsWritable entry) (offset : Nat) :
    (directive.tag delimiter offset).IsPair delimiter where
  openLine := isLine_openMarker usable named filled writable
  opens := reads_openMarker usable named filled writable
  closeLine := isLine_closeMarker usable named
  closes := reads_closeMarker usable named

/-! ### Directives around contents -/

variable {content : Text} {directive : Directive}

/-- The element that a directive is when it is wrapped around a content. -/
def element (directive : Directive) (content delimiter : Text) : Element :=
  ⟨directive.tag delimiter 0, .text content.closeLine .empty⟩

/-- The forest of this element alone. -/
def forest (directive : Directive) (content delimiter : Text) : Forest :=
  .element (directive.tag delimiter 0) (.text content.closeLine .empty) .empty

@[simp] theorem innerText_element (directive : Directive) (content delimiter : Text) :
    (directive.element content delimiter).innerText = content.closeLine :=
  List.append_nil _

@[simp] theorem render_forest (directive : Directive) (content delimiter : Text) :
    (directive.forest content delimiter).render = directive.wrap content delimiter := by
  simp [forest, Forest.render, Tag.around, wrap, tag]

/-- **A directive around a content fits** inside any elements. -/
theorem fits_forest (isPair : (directive.tag delimiter 0).IsPair delimiter)
    (usable : Tag.Marker.IsUsable delimiter)
    (plain : ∀ line ∈ content.lines, Tag.Marker.Reads delimiter line none) (outer : List Text) :
    Forest.Fits delimiter outer (directive.forest content delimiter) :=
  .pair isPair (Forest.fits_content usable plain _) .empty

/-- It can have anything after it. -/
theorem isSealed_forest (isPair : (directive.tag delimiter 0).IsPair delimiter) (content : Text) :
    (directive.forest content delimiter).IsSealed True := by
  have closed := directive.isClosed_markers delimiter
  refine Forest.isSealed_element.mpr ⟨?_, Text.sealed_nil True⟩
  exact (Forest.isSealed_of_isPair isPair).mpr
    ⟨closed.1, Forest.isSealed_content content, fun _ => closed.2⟩

end Directive

end Scaffold
