/-
**Keeping a section up to date establishes it, once and for all.**

A call that acts leaves a file with the section in it, between two markers and with the content that
was asked for (`IsCurrent`), whether the section was there before, closed itself or is new. A file
that has the section like this is left as it is by the same call, whatever mode it now declares.

* `regenerate_cases`: what a call that succeeds does;
* `isCurrent_replaced`, `isCurrent_appended`: the two ways in which a call acts establish the section;
* `regenerate_of_isCurrent`: nothing is left to do then;
* `regenerate_establishes`: so a call that acts establishes the section, and no call needs repeating.
-/

import Scaffold.Proofs.Merge.Expansion
import Scaffold.Proofs.Merge.Substitution
import Scaffold.Proofs.Results
import Scaffold.Proofs.Tag.Written

namespace Scaffold

namespace Section

variable {delimiter existing name content result : Text}

/-! ### What a call does -/

/-- The text that an action leaves, in a file that was read as `forest`. -/
def Action.text (delimiter existing name content : Text) (forest : Forest) : Action → Text
  | .append => Section.append delimiter existing name content
  | .replace tag => forest.renderReplacing tag.offset (replaced delimiter tag content)
  | .leave => existing

theorem regenerate_of_skip (named : Tag.isName name = true)
    (mode : modeFor delimiter existing = .skip) :
    regenerate delimiter existing name content = .ok existing := by
  rw [regenerate, if_pos named, mode]

theorem regenerate_eq_map (named : Tag.isName name = true)
    (mode : modeFor delimiter existing ≠ .skip) :
    regenerate delimiter existing name content =
      (Forest.parse delimiter existing).map fun forest =>
        (Action.of (modeFor delimiter existing) (forest.find? name)).text
          delimiter existing name content forest := by
  rw [regenerate, if_pos named]
  split
  · rename_i skips
    exact absurd skips mode
  · cases Forest.parse delimiter existing with
    | error fault => rfl
    | ok forest =>
      simp only [bind, Except.bind, Except.map]
      split <;> rename_i action <;> rw [action] <;> rfl

theorem regenerate_of_parse {forest : Forest} (named : Tag.isName name = true)
    (mode : modeFor delimiter existing ≠ .skip)
    (read : Forest.parse delimiter existing = .ok forest) :
    regenerate delimiter existing name content =
      .ok ((Action.of (modeFor delimiter existing) (forest.find? name)).text
        delimiter existing name content forest) := by
  rw [regenerate_eq_map named mode, read]
  rfl

/-- **What a call that succeeds does**: nothing to a file that is skipped, and otherwise what its
mode and the section ask for. -/
theorem regenerate_cases (done : regenerate delimiter existing name content = .ok result) :
    Tag.isName name = true ∧
      (modeFor delimiter existing = .skip ∧ result = existing ∨
        modeFor delimiter existing ≠ .skip ∧ ∃ forest,
          Forest.parse delimiter existing = .ok forest ∧
            result = (Action.of (modeFor delimiter existing) (forest.find? name)).text
              delimiter existing name content forest) := by
  have named : Tag.isName name = true := by
    by_contra unnamed
    rw [regenerate, if_neg unnamed] at done
    cases done
  refine ⟨named, ?_⟩
  by_cases mode : modeFor delimiter existing = .skip
  · rw [regenerate_of_skip named mode] at done
    exact Or.inl ⟨mode, (Except.ok.inj done).symm⟩
  · rw [regenerate_eq_map named mode] at done
    obtain ⟨forest, read, same⟩ := map_eq_ok_iff.mp done
    exact Or.inr ⟨mode, forest, read, same.symm⟩

/-- The three actions and what they need: a section that is found, a mode that forces, or none of
this. -/
theorem Action.of_cases (mode : GenMode) (found : Option Element) :
    (∃ item, found = some item ∧ Action.of mode found = .replace item.tag) ∨
      (mode = .force ∧ found = none ∧ Action.of mode found = .append) ∨
      (mode ≠ .force ∧ (∀ item ∈ found, item.tag.isMachineOwned = false) ∧
        Action.of mode found = .leave) := by
  by_cases forced : mode = .force
  · subst forced
    cases found with
    | none => exact Or.inr (Or.inl ⟨rfl, rfl, rfl⟩)
    | some item => exact Or.inl ⟨item, rfl, rfl⟩
  · cases found with
    | none => exact Or.inr (Or.inr ⟨forced, nofun, by cases mode <;> trivial⟩)
    | some item =>
      have asked : Action.of mode (some item) =
          if item.tag.isMachineOwned then .replace item.tag else .leave := by
        cases mode with
        | force => exact absurd rfl forced
        | demand => rfl
        | skip => rfl
      by_cases owned : item.tag.isMachineOwned = true
      · exact Or.inl ⟨item, rfl, asked.trans (if_pos owned)⟩
      · refine Or.inr (Or.inr ⟨forced, fun other same => ?_, asked.trans (if_neg owned)⟩)
        cases same
        exact Bool.eq_false_iff.mpr owned

/-! ### Files with the section in place -/

/-- The file has the section between two markers, with this content. -/
def IsCurrent (delimiter text name content : Text) : Prop :=
  ∃ forest item, Forest.parse delimiter text = .ok forest ∧ forest.find? name = some item ∧
    item.tag.isSelfClosing = false ∧ item.innerText = content.closeLine

/-- A section with this content is written as it is. -/
theorem replaced_of_innerText {item : Element} (twofold : item.tag.isSelfClosing = false)
    (same : item.innerText = content.closeLine) :
    replaced delimiter item.tag content = item.render := by
  have two : markers delimiter item.tag = (item.tag.openMarker, item.tag.closeMarker) :=
    if_neg (by rw [twofold]; exact Bool.false_ne_true)
  rw [replaced, two, ← same]
  rfl

/-- **Where the section is in place nothing is left to do**, whatever mode the file declares. -/
theorem regenerate_of_isCurrent (named : Tag.isName name = true)
    (current : IsCurrent delimiter existing name content) :
    regenerate delimiter existing name content = .ok existing := by
  obtain ⟨forest, item, read, found, twofold, same⟩ := current
  by_cases mode : modeFor delimiter existing = .skip
  · exact regenerate_of_skip named mode
  · rw [regenerate_of_parse named mode read, found]
    refine congrArg Except.ok ?_
    rcases Action.of_cases (modeFor delimiter existing) (some item) with
      ⟨other, itself, asked⟩ | ⟨_, none, _⟩ | ⟨_, _, asked⟩
    · cases itself
      have alone := Forest.isAlone_of_parse read (Forest.mem_of_find? found)
      rw [asked, Action.text, replaced_of_innerText twofold same,
        Forest.renderReplacing_self alone, Forest.render_of_parse read]
    · cases none
    · rw [asked]
      rfl

/-- A forest with the section in place is written as such a file. -/
theorem isCurrent_render {forest : Forest} {item : Element}
    (fits : Forest.Fits delimiter [] forest) (isLined : forest.IsLined)
    (found : forest.find? name = some item) (twofold : item.tag.isSelfClosing = false)
    (same : item.innerText = content.closeLine) :
    IsCurrent delimiter forest.render name content := by
  have settled := forest.find?_settle 0 name
  rw [found, Option.map_some, Option.map_eq_some_iff] at settled
  obtain ⟨placed, foundPlaced, bare⟩ := settled
  obtain ⟨sameTag, sameText⟩ := Prod.mk.inj bare
  have sameClose := congrArg Tag.closeMarker sameTag
  change placed.tag.closeMarker = item.tag.closeMarker at sameClose
  refine ⟨_, placed, Forest.parse_render fits isLined, foundPlaced, ?_, sameText.trans same⟩
  rw [Tag.isSelfClosing, sameClose]
  exact twofold

/-! ### Delimiters of files -/

/-- The delimiter of a file with an element is usable. -/
theorem isUsable_of_isMarked {item : Element} (marked : item.IsMarked delimiter) :
    Tag.Marker.IsUsable delimiter := by
  rcases marked with ⟨isLeaf, _⟩ | isPair
  · exact Tag.Marker.isUsable_of_reads isLeaf.openLine isLeaf.opens
  · exact Tag.Marker.isUsable_of_reads isPair.openLine isPair.opens

/-- The delimiter of a file that declares a mode is usable. -/
theorem isUsable_of_fileGenMode? {mode : GenMode}
    (declared : Tag.fileGenMode? delimiter existing = some mode) :
    Tag.Marker.IsUsable delimiter := by
  obtain ⟨marker, member, _⟩ := List.exists_of_findSome?_eq_some declared
  rw [Tag.openMarkers_eq, List.mem_filterMap] at member
  obtain ⟨line, inside, opens⟩ := member
  obtain ⟨selfClosing, reads⟩ := Tag.Marker.exists_reads_of_opening? opens
  exact Tag.Marker.isUsable_of_reads
    ((Text.lined_iff.mp (Text.lined_lines existing)).1 line inside) reads

theorem isUsable_of_force (forced : modeFor delimiter existing = .force) :
    Tag.Marker.IsUsable delimiter := by
  cases declared : Tag.fileGenMode? delimiter existing with
  | none =>
    rw [modeFor, declared] at forced
    cases forced
  | some mode => exact isUsable_of_fileGenMode? declared

/-- An open marker of a file that does not end in a carriage return does not either. -/
theorem getLast?_openMarker {forest : Forest} {item : Element}
    (read : Forest.parse delimiter existing = .ok forest) (member : item ∈ forest.elements)
    (ended : existing.getLast? ≠ some '\r') : item.tag.openMarker.getLast? ≠ some '\r' := by
  obtain ⟨fits, rows⟩ := Forest.fits_of_parse read
  have inside : item.tag.openMarker ∈ existing.lines := rows ▸ fits.openMarker_mem_rows member
  intro last
  rcases Text.getLast?_of_mem_lines inside with feed | same
  · rw [last] at feed
    cases feed
  · exact ended (same ▸ last)

/-! ### A section that is replaced -/

/-- **With a section replaced the file can be read**, and it is sealed where it was. -/
theorem fits_substitute_renewed {forest : Forest} {item : Element}
    (plain : ∀ line ∈ content.lines, Tag.Marker.Reads delimiter line none)
    (ended : existing.getLast? ≠ some '\r')
    (read : Forest.parse delimiter existing = .ok forest) (member : item ∈ forest.elements) :
    Forest.Fits delimiter []
        (forest.substitute item.tag.offset (renewed delimiter item.tag content)) ∧
      ∀ followed, forest.IsSealed followed →
        (forest.substitute item.tag.offset (renewed delimiter item.tag content)).IsSealed
          followed := by
  have feed := getLast?_openMarker read member ended
  have fits := (Forest.fits_of_parse read).1
  have marked := (fits.of_mem member).1
  refine ⟨fits.substitute (isPair_opened marked feed)
    (Forest.fits_content (isUsable_of_isMarked marked) plain) _, fun followed isSealed => ?_⟩
  exact isSealed.substitute fits (Forest.isAlone_of_parse read member) fun _ sealedItem =>
    isSealed_renewed marked feed sealedItem content

/-- **A section that is replaced is in place.** -/
theorem isCurrent_replaced {forest : Forest} {item : Element}
    (plain : ∀ line ∈ content.lines, Tag.Marker.Reads delimiter line none)
    (ended : existing.getLast? ≠ some '\r')
    (read : Forest.parse delimiter existing = .ok forest) (found : forest.find? name = some item) :
    IsCurrent delimiter (forest.renderReplacing item.tag.offset (replaced delimiter item.tag content))
      name content := by
  have member := Forest.mem_of_find? found
  have named := Forest.name_of_find? found
  have marked := ((Forest.fits_of_parse read).1.of_mem member).1
  have isPair := isPair_opened marked (getLast?_openMarker read member ended)
  have isSealed : forest.IsSealed False := Forest.isSealed_of_parse read False.elim
  obtain ⟨fits, stays⟩ := fits_substitute_renewed plain ended read member
  rw [← render_renewed, ← Forest.render_substitute]
  exact isCurrent_render fits (stays False isSealed).isLined
    (Forest.find?_substitute found (Forest.isAlone_of_parse read member) named)
    isPair.isSelfClosing (innerText_renewed delimiter item.tag content)

/-! ### A section that is added -/

theorem isWritable_added {entry : Text × Text} (member : entry ∈ (added name).attributes.entries) :
    Tag.IsWritable entry := by
  obtain rfl : entry = (Tag.genKey, Named.label RegionGen.replace) := List.mem_singleton.mp member
  exact ⟨⟨by decide, List.all_eq_true.mp (by decide)⟩, List.all_eq_true.mp (by decide)⟩

/-- Names that are absent stay absent where the open markers are the same. -/
theorem find?_eq_none_of_same {first second : Forest}
    (same : (first.elements.map fun item => (item.tag.name, item.tag.attributes)) =
      second.elements.map fun item => (item.tag.name, item.tag.attributes))
    (absent : second.find? name = none) : first.find? name = none := by
  refine List.find?_eq_none.mpr fun item member named => ?_
  have shared : (item.tag.name, item.tag.attributes) ∈
      second.elements.map fun item => (item.tag.name, item.tag.attributes) :=
    same ▸ List.mem_map_of_mem member
  obtain ⟨other, inside, equal⟩ := List.mem_map.mp shared
  refine List.find?_eq_none.mp absent other inside ?_
  rw [(Prod.mk.inj equal).1]
  exact named

/-- **With a section added the file can be read**, and it ends with a complete line. -/
theorem fits_append_added {forest : Forest} (usable : Tag.Marker.IsUsable delimiter)
    (named : Tag.isName name = true)
    (plain : ∀ line ∈ content.lines, Tag.Marker.Reads delimiter line none)
    (fits : Forest.Fits delimiter [] forest) (isSealed : forest.IsSealed True) :
    ((added name).tag delimiter 0).IsPair delimiter ∧
      Forest.Fits delimiter [] (forest.append ((added name).forest content delimiter)) ∧
      (forest.append ((added name).forest content delimiter)).IsSealed True := by
  have isPair : ((added name).tag delimiter 0).IsPair delimiter :=
    Directive.isPair_tag usable named (List.cons_ne_nil _ _) (fun _ => isWritable_added) 0
  refine ⟨isPair, fits.append (Directive.fits_forest isPair usable plain []), ?_⟩
  rw [Forest.IsSealed, Forest.rows_append]
  exact Text.sealed_append.mpr
    ⟨isSealed.mono fun _ => trivial, Directive.isSealed_forest isPair content⟩

/-- **A section that is added is in place.** -/
theorem isCurrent_appended {forest : Forest} (usable : Tag.Marker.IsUsable delimiter)
    (named : Tag.isName name = true)
    (plain : ∀ line ∈ content.lines, Tag.Marker.Reads delimiter line none)
    (read : Forest.parse delimiter existing = .ok forest) (absent : forest.find? name = none) :
    IsCurrent delimiter (append delimiter existing name content) name content := by
  obtain ⟨completed, readCompleted, same⟩ := Forest.parse_closeLine usable read
  have isSealed : completed.IsSealed True :=
    Forest.isSealed_of_parse readCompleted fun _ => Text.isClosed_closeLine existing
  obtain ⟨isPair, fits, sealedNew⟩ :=
    fits_append_added usable named plain (Forest.fits_of_parse readCompleted).1 isSealed
  have found : (completed.append ((added name).forest content delimiter)).find? name =
      some ((added name).element content delimiter) := by
    rw [Forest.find?_append, find?_eq_none_of_same same absent, Option.none_or, Directive.forest,
      Forest.find?_element]
    exact if_pos rfl
  have text : append delimiter existing name content =
      (completed.append ((added name).forest content delimiter)).render := by
    rw [append, Forest.render_append, Forest.render_of_parse readCompleted, Directive.render_forest]
  rw [text]
  exact isCurrent_render fits sealedNew.isLined found isPair.isSelfClosing
    (Directive.innerText_element _ _ _)

/-! ### The call -/

/-- The call changes the file: it is forced, or it finds a section that belongs to the generator. -/
def Acts (delimiter existing name : Text) : Prop :=
  modeFor delimiter existing = .force ∨
    modeFor delimiter existing = .demand ∧
      ∃ forest item, Forest.parse delimiter existing = .ok forest ∧
        forest.find? name = some item ∧ item.tag.isMachineOwned = true

/-- **A call that acts establishes the section, and no call needs repeating.** -/
theorem regenerate_establishes
    (plain : ∀ line ∈ content.lines, Tag.Marker.Reads delimiter line none)
    (ended : existing.getLast? ≠ some '\r')
    (done : regenerate delimiter existing name content = .ok result) :
    (Acts delimiter existing name →
        ∃ forest item, Forest.parse delimiter result = .ok forest ∧
          forest.find? name = some item ∧ item.innerText = content.closeLine) ∧
      regenerate delimiter result name content = .ok result := by
  obtain ⟨named, ⟨skips, rfl⟩ | ⟨mode, forest, read, text⟩⟩ := regenerate_cases done
  · refine ⟨fun acts => ?_, done⟩
    rcases acts with forced | ⟨asked, _⟩
    · rw [skips] at forced
      cases forced
    · rw [skips] at asked
      cases asked
  · have settled : IsCurrent delimiter result name content →
        (Acts delimiter existing name →
          ∃ forest item, Forest.parse delimiter result = .ok forest ∧
            forest.find? name = some item ∧ item.innerText = content.closeLine) ∧
        regenerate delimiter result name content = .ok result := by
      intro current
      refine ⟨fun _ => ?_, regenerate_of_isCurrent named current⟩
      obtain ⟨after, item, readAfter, found, _, same⟩ := current
      exact ⟨after, item, readAfter, found, same⟩
    rcases Action.of_cases (modeFor delimiter existing) (forest.find? name) with
      ⟨item, found, asked⟩ | ⟨forced, absent, asked⟩ | ⟨unforced, unowned, asked⟩
    · rw [asked] at text
      exact settled (text ▸ isCurrent_replaced plain ended read found)
    · rw [asked] at text
      exact settled (text ▸ isCurrent_appended (isUsable_of_force forced) named plain read absent)
    · rw [asked] at text
      obtain rfl : result = existing := text
      refine ⟨fun acts => ?_, done⟩
      rcases acts with forced | ⟨_, again, item, readAgain, found, owned⟩
      · exact absurd forced unforced
      · rw [read] at readAgain
        cases readAgain
        rw [unowned item found] at owned
        cases owned

/-- The mode that forces the first call stands inside the section and is gone afterwards. -/
theorem regenerate_establishes_once : ∃ existing content result : Text,
    existing = "//<s k=\"v\">\n  //<m gen=\"Force\"/>\n//</s>\ntail".toList ∧
      content = "new".toList ∧ regenerate "//".toList existing "s".toList content = .ok result ∧
      Acts "//".toList existing "s".toList ∧
      (∃ forest item, Forest.parse "//".toList result = .ok forest ∧
        forest.find? "s".toList = some item ∧ item.innerText = content.closeLine) ∧
      Tag.fileGenMode? "//".toList result = none ∧
      regenerate "//".toList result "s".toList content = .ok result := by
  have found : (regenerate "//".toList
      "//<s k=\"v\">\n  //<m gen=\"Force\"/>\n//</s>\ntail".toList "s".toList
        "new".toList).toOption = some "//<s k=\"v\">\nnew\n//</s>\ntail".toList := by
    decide +kernel
  have acts : Acts "//".toList "//<s k=\"v\">\n  //<m gen=\"Force\"/>\n//</s>\ntail".toList
      "s".toList := Or.inl (by decide +kernel)
  have done := ok_of_toOption found
  obtain ⟨established, again⟩ :=
    regenerate_establishes (by decide +kernel) (by decide +kernel) done
  exact ⟨_, _, _, rfl, rfl, done, acts, established acts, by decide +kernel, again⟩

end Section

end Scaffold
