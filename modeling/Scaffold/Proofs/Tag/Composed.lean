/-
**Directives that are put together are read back.**

A directive is put together from a name and attributes that are added one after the other; a key
that comes again is passed over. What is written of it is read as one element with this name and
these attributes, whatever stands in the values: `parse_composed`. On a marker line a name is read
back if and only if it is the name of a tag (`ofLine?_opening_iff`, `ofLine?_closing_iff`).
-/

import Scaffold.Proofs.Tag.Written

namespace Scaffold

namespace Tag

/-! ### Attributes that are added -/

/-- The first pair of each key, in order. -/
def firstOfEach (pairs : List (Text × Text)) : List (Text × Text) :=
  pairs.eraseDupsBy fun pair earlier => pair.1 == earlier.1

theorem firstOfEach_cons (pair : Text × Text) (rest : List (Text × Text)) :
    firstOfEach (pair :: rest) =
      pair :: firstOfEach (rest.filter fun other => decide ((other.1 == pair.1) = false)) :=
  List.eraseDupsBy_cons

theorem firstOfEach_subset (pairs : List (Text × Text)) : firstOfEach pairs ⊆ pairs := by
  -- what is left after a pair has lost the other pairs of its key, so it is no tail of the list
  induction bound : pairs.length using Nat.strongRecOn generalizing pairs with
  | _ length ih =>
    subst bound
    cases pairs with
    | nil => exact fun _ member => member
    | cons pair rest =>
      rw [firstOfEach_cons]
      have shorter := Nat.lt_succ_of_le (List.length_filter_le
        (fun other : Text × Text => decide ((other.1 == pair.1) = false)) rest)
      exact List.cons_subset_cons _
        (List.Subset.trans (ih _ shorter _ rfl) (List.filter_subset_self _))

/-- An attribute whose key is there is not added. -/
theorem Attributes.insert_of_hasKey {attributes : Attributes} {key : Text}
    (taken : attributes.hasKey key = true) (value : Text) :
    attributes.insert key value = attributes := by
  rw [insert, insert?, dif_pos taken]
  rfl

/-- Any other one is, at the end. -/
theorem Attributes.entries_insert {attributes : Attributes} {key : Text}
    (free : ¬ attributes.hasKey key = true) (value : Text) :
    (attributes.insert key value).entries = attributes.entries ++ [(key, value)] := by
  rw [insert, insert?, dif_neg free]
  rfl

theorem Attributes.hasKey_insert {attributes : Attributes} {key : Text}
    (free : ¬ attributes.hasKey key = true) (value other : Text) :
    (attributes.insert key value).hasKey other = (attributes.hasKey other || key == other) := by
  rw [hasKey, entries_insert free, List.any_append, List.any_cons, List.any_nil, Bool.or_false]
  rfl

end Tag

namespace Directive

variable {delimiter : Text}

/-- The directive with these attributes added, one after the other. -/
def withAttributes (directive : Directive) (pairs : List (Text × Text)) : Directive :=
  pairs.foldl (fun directive pair => directive.withAttribute pair.1 pair.2) directive

theorem withAttributes_cons (directive : Directive) (pair : Text × Text)
    (rest : List (Text × Text)) :
    directive.withAttributes (pair :: rest) =
      (directive.withAttribute pair.1 pair.2).withAttributes rest :=
  rfl

theorem name_withAttributes (directive : Directive) (pairs : List (Text × Text)) :
    (directive.withAttributes pairs).name = directive.name := by
  induction pairs generalizing directive with
  | nil => rfl
  | cons pair rest ih =>
    rw [withAttributes_cons, ih]
    rfl

/-- **Of the pairs that are added**, the first of each key comes in if the key is not there. -/
theorem entries_withAttributes (directive : Directive) (pairs : List (Text × Text)) :
    (directive.withAttributes pairs).attributes.entries =
      directive.attributes.entries ++
        Tag.firstOfEach (pairs.filter fun pair => !directive.attributes.hasKey pair.1) := by
  induction pairs generalizing directive with
  | nil => exact (List.append_nil _).symm
  | cons pair rest ih =>
    rw [withAttributes_cons, ih, withAttribute]
    dsimp only
    by_cases taken : directive.attributes.hasKey pair.1 = true
    · rw [Tag.Attributes.insert_of_hasKey taken, List.filter_cons_of_neg (by simp [taken])]
    · have others : (rest.filter fun other =>
            !(directive.attributes.insert pair.1 pair.2).hasKey other.1) =
          (rest.filter fun other => !directive.attributes.hasKey other.1).filter fun other =>
            decide ((other.1 == pair.1) = false) := by
        rw [List.filter_filter]
        refine List.filter_congr fun other _ => ?_
        rw [Tag.Attributes.hasKey_insert taken, Bool.not_or, Bool.and_comm, BEq.comm]
        cases other.1 == pair.1 <;> rfl
      rw [Tag.Attributes.entries_insert taken, List.filter_cons_of_pos (by simp [taken]),
        Tag.firstOfEach_cons, others, List.append_assoc, List.singleton_append]

/-- The directive of this name with these attributes. -/
def composed (name : Text) (pairs : List (Text × Text)) : Directive :=
  (named name).withAttributes pairs

theorem entries_composed (name : Text) (pairs : List (Text × Text)) :
    (composed name pairs).attributes.entries = Tag.firstOfEach pairs := by
  have free : (pairs.filter fun pair => !(named name).attributes.hasKey pair.1) = pairs :=
    List.filter_eq_self.mpr fun _ _ => rfl
  rw [composed, entries_withAttributes, free]
  rfl

/-! ### What is written of it -/

/-- **A directive around a content is read** as one element with nothing around it. -/
theorem parse_wrap {directive : Directive} {content : Text}
    (isPair : (directive.tag delimiter 0).IsPair delimiter)
    (usable : Tag.Marker.IsUsable delimiter)
    (plain : ∀ line ∈ content.lines, Tag.Marker.Reads delimiter line none) :
    ∃ inner, Forest.parse delimiter (directive.wrap content delimiter) =
        .ok (.element (directive.tag delimiter 0) inner .empty) ∧
      inner.elements = [] ∧ inner.render = content.closeLine := by
  have lined := (isSealed_forest isPair content).isLined
  have read := Forest.parse_render (fits_forest isPair usable plain []) lined
  rw [render_forest] at read
  refine ⟨(Forest.text content.closeLine .empty).settle _, read, ?_, ?_⟩
  · rw [Forest.settle]
    split
    · rfl
    · rw [Forest.elements_prependText]
      rfl
  · rw [Forest.render_settle]
    exact List.append_nil _

end Directive

namespace Tag.Marker

variable {delimiter : Text}

/-! ### Names on marker lines -/

/-- What a line is completed, it is as it is. -/
theorem reads_of_newline (usable : IsUsable delimiter) {line : Text} {found : Option Marker}
    (isLine : Text.IsLine (line ++ ['\n'])) (reads : Reads delimiter (line ++ ['\n']) found) :
    Reads delimiter line found := by
  have absent := (Text.isLine_iff.mp isLine).2
  rw [List.dropLast_concat] at absent
  exact (reads_newline usable absent).mp reads

/-- **The names that an open marker is read with** are the names of tags. -/
theorem ofLine?_opening_iff (usable : IsUsable delimiter) (name : Text) (offset : Nat) :
    (∃ attributes selfClosing,
        ofLine? delimiter ⟨delimiter ++ '<' :: (name ++ " k=\"v\">".toList), offset⟩ =
          .ok (some (.opening name attributes selfClosing))) ↔ isName name = true := by
  simp only [ofLine?_eq_ok_iff]
  constructor
  · rintro ⟨attributes, selfClosing, reads⟩
    exact isName_of_reads_opening reads
  · intro named
    let directive := (Directive.named name).withAttribute "k".toList "v".toList
    have written : directive.openMarker delimiter =
        delimiter ++ '<' :: (name ++ " k=\"v\">".toList) ++ ['\n'] := by
      have line : directive.openMarker delimiter =
          delimiter ++ '<' :: name ++ " k=\"v\"".toList ++ ['>', '\n'] := rfl
      rw [line]
      simp
    have writable : ∀ entry ∈ directive.attributes.entries, IsWritable entry :=
      List.forall_mem_singleton.mpr ⟨⟨by decide, nofun⟩, List.forall_mem_singleton.mpr rfl⟩
    have isLine := Directive.isLine_openMarker usable named (List.cons_ne_nil _ _) writable
    have reads := Directive.reads_openMarker usable named (List.cons_ne_nil _ _) writable
    rw [written] at isLine reads
    exact ⟨_, _, reads_of_newline usable isLine reads⟩

/-- **So are those that a close marker is read with.** -/
theorem ofLine?_closing_iff (usable : IsUsable delimiter) (name : Text) (offset : Nat) :
    ofLine? delimiter ⟨delimiter ++ '<' :: '/' :: (name ++ ['>']), offset⟩ =
      .ok (some (.closing name)) ↔ isName name = true := by
  rw [ofLine?_eq_ok_iff]
  constructor
  · exact isName_of_reads_closing
  · intro named
    let directive := Directive.named name
    have written : directive.closeMarker delimiter =
        delimiter ++ '<' :: '/' :: (name ++ ['>']) ++ ['\n'] := by
      have line : directive.closeMarker delimiter =
          delimiter ++ '<' :: '/' :: name ++ ['>', '\n'] := rfl
      rw [line]
      simp
    have isLine := directive.isLine_closeMarker usable named
    have reads := directive.reads_closeMarker usable named
    rw [written] at isLine reads
    exact reads_of_newline usable isLine reads

end Tag.Marker

namespace Directive

variable {delimiter : Text}

/-- **A directive is read back.** One that is put together from a name and attributes, around a
content without markers, is read as one element of this name, with the first of the attributes of
each key and the content inside; and any name is read back from a marker line if and only if it is
the name of a tag. -/
theorem parse_composed (usable : Tag.Marker.IsUsable delimiter) :
    (∀ (name : Text) (pairs : List (Text × Text)) (content : Text), Tag.isName name = true →
      pairs ≠ [] → (∀ pair ∈ pairs, Tag.IsWritable pair) →
      (∀ line ∈ content.lines, Tag.Marker.Reads delimiter line none) →
      ∃ forest item, Forest.parse delimiter ((composed name pairs).wrap content delimiter) =
          .ok forest ∧
        forest.elements = [item] ∧ item.render = (composed name pairs).wrap content delimiter ∧
        item.tag.name = name ∧ item.tag.attributes.entries = Tag.firstOfEach pairs ∧
        item.tag.isSelfClosing = false ∧ item.innerText = content.closeLine) ∧
    (∀ name offset, (∃ attributes selfClosing, Tag.Marker.ofLine? delimiter
        ⟨delimiter ++ '<' :: (name ++ " k=\"v\">".toList), offset⟩ =
          .ok (some (.opening name attributes selfClosing))) ↔ Tag.isName name = true) ∧
    (∀ name offset, Tag.Marker.ofLine? delimiter
        ⟨delimiter ++ '<' :: '/' :: (name ++ ['>']), offset⟩ = .ok (some (.closing name)) ↔
          Tag.isName name = true) := by
  refine ⟨?_, Tag.Marker.ofLine?_opening_iff usable, Tag.Marker.ofLine?_closing_iff usable⟩
  intro name pairs content isName filled writable plain
  have entries := entries_composed name pairs
  have named : (composed name pairs).name = name := name_withAttributes _ _
  have filledEntries : (composed name pairs).attributes.entries ≠ [] := by
    obtain ⟨pair, rest, rfl⟩ := List.exists_cons_of_ne_nil filled
    rw [entries, Tag.firstOfEach_cons]
    exact List.cons_ne_nil _ _
  have writableEntries : ∀ entry ∈ (composed name pairs).attributes.entries,
      Tag.IsWritable entry := by
    rw [entries]
    exact fun entry member => writable entry (Tag.firstOfEach_subset pairs member)
  have isPair := isPair_tag usable (named.symm ▸ isName) filledEntries writableEntries 0
  obtain ⟨inner, read, alone, written⟩ := parse_wrap isPair usable plain
  refine ⟨_, ⟨(composed name pairs).tag delimiter 0, inner⟩, read, ?_, ?_, named, entries,
    isPair.isSelfClosing, written⟩
  · rw [Forest.elements, alone]
    rfl
  · rw [Element.render, written]
    rfl

/-- A key that comes twice, values that look like the end of a tag and like attributes, a line with
the delimiter, and a last line that is not complete. -/
theorem parse_composed_repeated : ∃ written forest item,
    written = "//<a:b k=\"x/>\" sync=\" c=d >\">\n#<c k=\"v\">\n // plain\n//</a:b>\n".toList ∧
      (composed "a:b".toList [("k".toList, "x/>".toList), ("sync".toList, " c=d >".toList),
        ("k".toList, "y".toList)]).wrap "#<c k=\"v\">\n // plain".toList "//".toList = written ∧
      Forest.parse "//".toList written = .ok forest ∧ forest.elements = [item] ∧
      item.tag.name = "a:b".toList ∧
      item.tag.attributes.entries =
        [("k".toList, "x/>".toList), ("sync".toList, " c=d >".toList)] ∧
      item.innerText = "#<c k=\"v\">\n // plain\n".toList ∧
      (∃ attributes selfClosing, Tag.Marker.ofLine? "//".toList ⟨"//<a:b k=\"v\">".toList, 7⟩ =
        .ok (some (.opening "a:b".toList attributes selfClosing))) ∧
      Tag.Marker.ofLine? "//".toList ⟨"//</a:b>".toList, 7⟩ =
        .ok (some (.closing "a:b".toList)) := by
  have usable : Tag.Marker.IsUsable "//".toList :=
    ⟨by decide, Tag.stops_cons (by decide) _⟩
  have word : ∀ {first : Char} {rest : Text}, Text.startsIdentifier first = true →
      rest.all Tag.continuesKey = true → Tag.IsWord Tag.continuesKey (first :: rest) :=
    fun starts continues => ⟨starts, List.all_eq_true.mp continues⟩
  obtain ⟨back, opening, closing⟩ := parse_composed usable
  obtain ⟨forest, item, read, alone, -, named, entries, -, inner⟩ := back "a:b".toList
    [("k".toList, "x/>".toList), ("sync".toList, " c=d >".toList), ("k".toList, "y".toList)]
    "#<c k=\"v\">\n // plain".toList (by decide) (List.cons_ne_nil _ _)
    (by
      simp only [List.forall_mem_cons]
      exact ⟨⟨word (by decide) (by decide), List.all_eq_true.mp (by decide)⟩,
        ⟨word (by decide) (by decide), List.all_eq_true.mp (by decide)⟩,
        ⟨word (by decide) (by decide), List.all_eq_true.mp (by decide)⟩, nofun⟩)
    (by decide +kernel)
  exact ⟨_, forest, item, by decide +kernel, rfl, read, alone, named, entries, inner,
    (opening "a:b".toList 7).mpr (by decide), (closing "a:b".toList 7).mpr (by decide)⟩

end Directive

end Scaffold
