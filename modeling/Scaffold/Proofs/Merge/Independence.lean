/-
**The two families of directives do not interfere.**

`sync` steers merges and `gen` steers sections. Whatever stands in the values of the one, the other
does the same with the file: rewriting these values commutes with a merge, and with an update.

* `graft_onForest`: a merge of rewritten forests grafts the rewritten regions;
* `expandMarkers_onTag`: a marker that closes itself is taken apart in the same way;
* `updated_onForest`: an update finds and changes the same section;
* `directives_independent`: **merging and updating commute with rewriting** the directives of the
  other.
-/

import Scaffold.Proofs.Merge.Moves
import Scaffold.Proofs.Merge.Updates
import Scaffold.Proofs.Results
import Scaffold.Proofs.Tag.RevaluedForest

namespace Scaffold

open Tag Tag.Revaluation

variable {revaluation : Revaluation} {delimiter : Text} {forest counterpart : Forest}

/-! ### Merges -/

namespace Forest

variable {skeleton : Skeleton}

theorem regionSync?_onTag (different : syncKey ≠ revaluation.key) (tag : Tag) :
    (revaluation.onTag delimiter tag).regionSync? = tag.regionSync? := by
  show ((revaluation.attributes tag.attributes).get? syncKey).bind Named.ofWord? = _
  rw [get?_attributes different]
  rfl

/-- What a rewritten counterpart supplies. -/
theorem supplied_onElement (item : Element) :
    (revaluation.onForest delimiter counterpart).supplied (revaluation.onElement delimiter item) =
      revaluation.onElement delimiter (counterpart.supplied item) := by
  cases found : counterpart.find? item.tag.name with
  | none =>
    have absent : (revaluation.onForest delimiter counterpart).find?
        (revaluation.onElement delimiter item).tag.name = none := by
      rw [find?_onForest]
      exact congrArg (Option.map _) found
    rw [supplied_of_none found, supplied_of_none absent]
  | some other =>
    have present : (revaluation.onForest delimiter counterpart).find?
        (revaluation.onElement delimiter item).tag.name =
          some (revaluation.onElement delimiter other) := by
      rw [find?_onForest]
      exact congrArg (Option.map _) found
    rw [supplied_of_some found, supplied_of_some present]
    show (if item.tag.isSelfClosing then _ else _) = _
    split <;> rfl

theorem decided_onElement (different : syncKey ≠ revaluation.key) (item : Element)
    (walked : Forest) :
    decided skeleton (revaluation.onForest delimiter counterpart)
        (revaluation.onElement delimiter item) (revaluation.onForest delimiter walked) =
      revaluation.onElement delimiter (decided skeleton counterpart item walked) := by
  have same : (revaluation.onElement delimiter item).tag.regionSync? = item.tag.regionSync? :=
    regionSync?_onTag different item.tag
  cases region : Region.resolve skeleton item.tag.regionSync? with
  | own => rw [decided_of_own region, decided_of_own (same ▸ region)]
  | recurse =>
    rw [decided_of_recurse region, decided_of_recurse (same ▸ region)]
    rfl
  | counterpart =>
    rw [decided_of_counterpart region, decided_of_counterpart (same ▸ region), supplied_onElement]

/-- **A graft of rewritten forests** is the rewritten graft, if the directives of regions stay. -/
theorem graft_onForest (different : syncKey ≠ revaluation.key) :
    graft skeleton (revaluation.onForest delimiter counterpart)
        (revaluation.onForest delimiter forest) =
      revaluation.onForest delimiter (graft skeleton counterpart forest) := by
  induction forest with
  | empty => rfl
  | text content next ih => exact congrArg (text content) ih
  | element tag inner next ihInner ihNext =>
    have here : decided skeleton (revaluation.onForest delimiter counterpart)
        ⟨revaluation.onTag delimiter tag, revaluation.onForest delimiter inner⟩
          (revaluation.onForest delimiter (graft skeleton counterpart inner)) =
        revaluation.onElement delimiter
          (decided skeleton counterpart ⟨tag, inner⟩ (graft skeleton counterpart inner)) :=
      decided_onElement different ⟨tag, inner⟩ _
    rw [onForest, graft, graft, ihInner, ihNext, here]
    rfl

/-- A merge of forests as they are read is the merge of the forests. -/
theorem render_graft_settle (skeleton : Skeleton) (counterpart forest : Forest) :
    (graft skeleton (counterpart.settle 0) (forest.settle 0)).render =
      (graft skeleton counterpart forest).render := by
  rw [render_graft, mergeWith_settle, mergeWith_settle_counterpart, ← render_graft]

/-- **A merge of rewritten forests** is written as the rewritten merge. -/
theorem render_graft_onForest (different : syncKey ≠ revaluation.key)
    (fits : Fits delimiter [] forest) (isSealed : forest.IsSealed True)
    (fitsOther : Fits delimiter [] counterpart) (sealedOther : counterpart.IsSealed True) :
    (graft skeleton (revaluation.onForest delimiter counterpart)
        (revaluation.onForest delimiter forest)).render =
      revaluation.text delimiter (graft skeleton counterpart forest).render := by
  have stands : Stands delimiter [] (graft skeleton counterpart forest) :=
    stands_graft fitsOther fits (List.nil_subset [])
  have joined : (graft skeleton counterpart forest).IsSealed ([] ≠ ([] : List Text)) :=
    isSealed_graft fitsOther (sealedOther.mono fun _ => trivial) fits
      (isSealed.mono fun _ => trivial) (isJoined_of_isSealed fitsOther sealedOther)
  rw [graft_onForest different, render_onForest stands joined.isLined]

end Forest

namespace Merge

variable {fresh existing : Text} {requested : SyncMode}

theorem modeFor_text (different : syncKey ≠ revaluation.key) :
    modeFor delimiter (revaluation.text delimiter existing) requested =
      modeFor delimiter existing requested := by
  rw [modeFor, modeFor, fileSyncMode?, fileSyncMode?, firstValue?_text different]

theorem toOption_sync {skeleton : Skeleton}
    (planned : Plan.ofMode (modeFor delimiter existing requested) = .merge skeleton) :
    (sync delimiter fresh existing requested).toOption =
      (Forest.parse delimiter fresh).toOption.bind fun freshForest =>
        (Forest.parse delimiter existing).toOption.map fun existingForest =>
          (Forest.graft skeleton (skeleton.other freshForest existingForest)
            (skeleton.own freshForest existingForest)).render := by
  cases readFresh : Forest.parse delimiter fresh with
  | error fault =>
    rw [sync, planned, readFresh]
    rfl
  | ok freshForest =>
    cases readExisting : Forest.parse delimiter existing with
    | error fault =>
      rw [sync, planned, readFresh, readExisting]
      rfl
    | ok existingForest =>
      rw [sync_eq_graft planned readFresh readExisting]
      rfl

/-- **A merge of rewritten texts** is the rewritten merge, if the directives of merges stay. -/
theorem sync_text (different : syncKey ≠ revaluation.key) (closedFresh : fresh.IsClosed)
    (closedExisting : existing.IsClosed) :
    (sync delimiter (revaluation.text delimiter fresh) (revaluation.text delimiter existing)
        requested).toOption =
      (sync delimiter fresh existing requested).toOption.map (revaluation.text delimiter) := by
  have mode : modeFor delimiter (revaluation.text delimiter existing) requested =
      modeFor delimiter existing requested := modeFor_text different
  cases planned : Plan.ofMode (modeFor delimiter existing requested) with
  | keepExisting =>
    rw [sync, sync, mode, planned]
    rfl
  | takeFresh =>
    rw [sync, sync, mode, planned]
    rfl
  | merge skeleton =>
    rw [toOption_sync planned, toOption_sync (mode ▸ planned), Forest.toOption_parse_text,
      Forest.toOption_parse_text]
    cases readFresh : Forest.parse delimiter fresh with
    | error fault => rfl
    | ok freshForest =>
      cases readExisting : Forest.parse delimiter existing with
      | error fault => rfl
      | ok existingForest =>
        have fitsFresh := (Forest.fits_of_parse readFresh).1
        have fitsExisting := (Forest.fits_of_parse readExisting).1
        have sealedFresh : freshForest.IsSealed True :=
          Forest.isSealed_of_parse readFresh fun _ => closedFresh
        have sealedExisting : existingForest.IsSealed True :=
          Forest.isSealed_of_parse readExisting fun _ => closedExisting
        refine congrArg some ?_
        cases skeleton with
        | fresh =>
          exact (Forest.render_graft_settle _ _ _).trans (Forest.render_graft_onForest different
            fitsFresh sealedFresh fitsExisting sealedExisting)
        | existing =>
          exact (Forest.render_graft_settle _ _ _).trans (Forest.render_graft_onForest different
            fitsExisting sealedExisting fitsFresh sealedFresh)

end Merge

/-! ### Updates -/

namespace Section

variable {existing name content : Text}

theorem isLineEnd_append {blanks lineEnd : Text} (inline : IsInline blanks)
    (ends : lineEnd ∈ lineEnds) : isLineEnd (blanks ++ lineEnd) = true := by
  have all : ∀ known ∈ lineEnds, skipInline known ∈ lineEnds := by decide
  rw [isLineEnd_iff, skipInline_append inline]
  exact all lineEnd ends

/-- **A marker that closes itself is taken apart** in the same way, with new values. -/
theorem expandMarkers_onTag {tag : Tag} (reads : Marker.Reads delimiter tag.openMarker
      (some (.opening tag.name tag.attributes true))) :
    expandMarkers delimiter (revaluation.onTag delimiter tag) =
      (revaluation.line delimiter (expandMarkers delimiter tag).1,
        (expandMarkers delimiter tag).2) := by
  obtain ⟨leaf, split, isOf⟩ := exists_leafLine_of_reads reads
  obtain ⟨listed, leads, collected⟩ := isOf.leads
  obtain ⟨⟨more, leadsMore, same⟩, _, stops⟩ :=
    leads_tag revaluation leads (leaf.indent.size + delimiter.size)
  have noGap : IsInline [] := nofun
  have delimits : ∀ rest, Delimits delimiter leaf.indent (leaf.lead ++ rest)
      (leaf.indent ++ (delimiter ++ (leaf.lead ++ rest))) :=
    fun rest => ⟨rfl, isOf.inline, isOf.stops_append rest⟩
  have whole : revaluation.line delimiter tag.openMarker =
      LeafLine.text delimiter { leaf with lead := revaluation.tag leaf.lead } := by
    have text : ∀ lead, LeafLine.text delimiter { leaf with lead } = leaf.indent ++ (delimiter ++
        (lead ++ (leaf.gap ++ (tagEnd true ++ (leaf.blanks ++ leaf.lineEnd))))) := by
      intro lead
      simp [LeafLine.text, LeafLine.front, tagEnd]
    have isEnd := isLineEnd_append isOf.inlineBlanks isOf.ends
    rw [split, show leaf.text delimiter = _ from text leaf.lead, text,
      (line_of_leads revaluation (delimits _) leads (endsPairs_tagEnd isOf.inlineGap true _)
        (.mk isOf.inlineGap isEnd)).1]
  have isOfNew : LeafLine.IsOf delimiter tag.name (revaluation.attributes tag.attributes)
      { leaf with lead := revaluation.tag leaf.lead } :=
    { isOf with
      stops := stops delimiter isOf.stops
      leads := ⟨more, leadsMore, (collect_entry_iff same).mpr ⟨_, collected, rfl⟩⟩ }
  have front : revaluation.line delimiter (leaf.front delimiter ++ '>' :: completed leaf.lineEnd) =
      LeafLine.front delimiter { leaf with lead := revaluation.tag leaf.lead } ++
        '>' :: completed leaf.lineEnd := by
    have text : ∀ lead, LeafLine.front delimiter { leaf with lead } ++
        '>' :: completed leaf.lineEnd = leaf.indent ++ (delimiter ++
          (lead ++ ([] ++ (tagEnd false ++ completed leaf.lineEnd)))) := by
      intro lead
      simp [LeafLine.front, tagEnd]
    have isEnd := isLineEnd_completed isOf.ends
    rw [show leaf.front delimiter ++ _ = _ from text leaf.lead, text,
      (line_of_leads revaluation (delimits _) leads (endsPairs_tagEnd noGap false _)
        (.mk noGap isEnd)).1]
  have again : expandMarkers delimiter (revaluation.onTag delimiter tag) = _ :=
    expandMarkers_eq whole isOfNew
  rw [again, expandMarkers_eq split isOf, front]
  rfl

/-- **A section gets its content** between markers with new values. -/
theorem renewed_onTag (revaluation : Revaluation) {item : Element} (marked : item.IsMarked delimiter) (content : Text) :
    renewed delimiter (revaluation.onTag delimiter item.tag) content =
      revaluation.onElement delimiter (renewed delimiter item.tag content) := by
  have same : opened delimiter (revaluation.onTag delimiter item.tag) =
      revaluation.onTag delimiter (opened delimiter item.tag) := by
    rcases marked with ⟨isLeaf, _⟩ | isPair
    · rw [opened, opened, markers_of_isLeaf isLeaf, markers_of_isLeaf (isLeaf_onTag revaluation isLeaf),
        expandMarkers_onTag isLeaf.opens]
      rfl
    · rw [opened_of_isPair isPair, opened_of_isPair (isPair_onTag revaluation isPair)]
  rw [renewed, same]
  rfl

/-- **The same section is renewed** in a rewritten forest. -/
theorem amend_onForest {outer : List Text} (fits : Forest.Fits delimiter outer forest) :
    ((revaluation.onForest delimiter forest).amend name fun item =>
        renewed delimiter item.tag content) =
      revaluation.onForest delimiter
        (forest.amend name fun item => renewed delimiter item.tag content) := by
  induction forest generalizing outer with
  | empty => rfl
  | text more next ih =>
    cases fits with
    | text _ fitsNext => exact congrArg (Forest.text more) (ih fitsNext)
  | element tag inner next ihInner ihNext =>
    obtain ⟨marked, fitsInner, fitsNext⟩ := Forest.fits_element.mp fits
    have here := renewed_onTag revaluation marked content
    by_cases same : tag.name = name
    · have sameNew : (revaluation.onTag delimiter tag).name = name := same
      rw [onForest, Forest.amend_top same, Forest.amend_top sameNew, here]
      rfl
    · have differentNew : (revaluation.onTag delimiter tag).name ≠ name := same
      cases inside : inner.find? name with
      | some item =>
        have insideNew : (revaluation.onForest delimiter inner).find? name =
            some (revaluation.onElement delimiter item) := by
          rw [Forest.find?_onForest, inside, Option.map_some]
        rw [onForest, Forest.amend_inside same inside, Forest.amend_inside differentNew insideNew,
          ihInner fitsInner]
        rfl
      | none =>
        have insideNew : (revaluation.onForest delimiter inner).find? name = none := by
          rw [Forest.find?_onForest, inside, Option.map_none]
        rw [onForest, Forest.amend_later same inside, Forest.amend_later differentNew insideNew,
          ihNext fitsNext]
        rfl

/-- A rewritten forest declares the mode it declared, if the directives of sections stay. -/
theorem forestMode_onForest (different : genKey ≠ revaluation.key) :
    forestMode (revaluation.onForest delimiter forest) = forestMode forest := by
  have same : (revaluation.onForest delimiter forest).genMode? = forest.genMode? := by
    rw [Forest.genMode?, Forest.genMode?, Forest.elements_onForest, List.findSome?_map]
    refine congrArg (fun known => List.findSome? known _) (funext fun item => ?_)
    show ((revaluation.attributes item.tag.attributes).get? genKey).bind Named.ofWord? = _
    rw [get?_attributes different]
  rw [forestMode, forestMode, same]

theorem isDue_onTag (different : genKey ≠ revaluation.key) (mode : GenMode) (tag : Tag) :
    IsDue mode (revaluation.onTag delimiter tag) ↔ IsDue mode tag := by
  have same : (revaluation.onTag delimiter tag).isMachineOwned = tag.isMachineOwned := by
    rw [isMachineOwned, isMachineOwned]
    show (((revaluation.attributes tag.attributes).get? genKey).bind Named.ofWord? == _) = _
    rw [get?_attributes different]
  rw [IsDue, IsDue, same]

theorem onForest_append (first second : Forest) :
    revaluation.onForest delimiter (first.append second) =
      (revaluation.onForest delimiter first).append (revaluation.onForest delimiter second) := by
  induction first with
  | empty => rfl
  | text content next ih => exact congrArg (Forest.text content) ih
  | element tag inner next _ ihNext =>
    rw [Forest.append, onForest, ihNext]
    rfl

/-- **A new section has nothing to rewrite**: its only attribute is the directive of sections. -/
theorem onForest_added (different : genKey ≠ revaluation.key)
    (usable : Marker.IsUsable delimiter) (named : isName name = true) :
    revaluation.onForest delimiter ((added name).forest content delimiter) =
      (added name).forest content delimiter := by
  have isPair : ((added name).tag delimiter 0).IsPair delimiter :=
    Directive.isPair_tag usable named (List.cons_ne_nil _ _) (fun _ => isWritable_added) 0
  have absent : ((added name).tag delimiter 0).attributes.hasKey revaluation.key = false := by
    show (genKey == revaluation.key || false) = false
    rw [Bool.or_false]
    exact beq_eq_false_iff_ne.mpr different
  have same : revaluation.onTag delimiter ((added name).tag delimiter 0) =
      (added name).tag delimiter 0 := by
    rw [onTag, line_of_absent isPair.opens absent, attributes_of_absent absent]
  rw [Directive.forest, onForest, onForest, onForest, onForest, same]

/-- **An update of a rewritten forest** is the rewritten update. -/
theorem updated_onForest (different : genKey ≠ revaluation.key)
    (fits : Forest.Fits delimiter [] forest) (isLined : forest.IsLined)
    (named : isName name = true) :
    updated delimiter name content (revaluation.onForest delimiter forest) =
      revaluation.onForest delimiter (updated delimiter name content forest) := by
  cases found : forest.find? name with
  | some item =>
    have foundNew : (revaluation.onForest delimiter forest).find? name =
        some (revaluation.onElement delimiter item) := by
      rw [Forest.find?_onForest, found, Option.map_some]
    rw [updated_of_find? found, updated_of_find? foundNew, forestMode_onForest different]
    simp only [onElement, isDue_onTag different]
    split
    · exact amend_onForest fits
    · rfl
  | none =>
    have absent : (revaluation.onForest delimiter forest).find? name = none := by
      rw [Forest.find?_onForest, found, Option.map_none]
    rw [updated_of_absent found, updated_of_absent absent, forestMode_onForest different]
    split
    · rename_i forced
      have usable : Marker.IsUsable delimiter :=
        isUsable_of_force ((modeFor_render fits isLined).trans forced)
      rw [onForest_append, onForest_added different usable named]
    · rfl

theorem modeFor_text (different : genKey ≠ revaluation.key) :
    modeFor delimiter (revaluation.text delimiter existing) = modeFor delimiter existing := by
  rw [modeFor, modeFor, fileGenMode?, fileGenMode?, firstValue?_text different]

/-- **An update of a rewritten text** is the rewritten update, if the directives of sections
stay. -/
theorem regenerate_text (different : genKey ≠ revaluation.key) (closed : existing.IsClosed)
    (named : isName name = true)
    (plain : ∀ line ∈ content.lines, Marker.Reads delimiter line none) :
    (regenerate delimiter (revaluation.text delimiter existing) name content).toOption =
      (regenerate delimiter existing name content).toOption.map (revaluation.text delimiter) := by
  have mode : modeFor delimiter (revaluation.text delimiter existing) =
      modeFor delimiter existing := modeFor_text different
  cases read : Forest.parse delimiter existing with
  | error fault =>
    by_cases skips : modeFor delimiter existing = .skip
    · rw [regenerate_of_skip named skips, regenerate_of_skip named (mode.trans skips)]
      rfl
    · have unread := Forest.toOption_parse_text revaluation delimiter existing
      rw [read] at unread
      have actsNew : modeFor delimiter (revaluation.text delimiter existing) ≠ .skip :=
        mode ▸ skips
      rw [regenerate_eq_map named skips, regenerate_eq_map named actsNew, read]
      cases readNew : Forest.parse delimiter (revaluation.text delimiter existing) with
      | error _ => rfl
      | ok found =>
        rw [readNew] at unread
        cases unread
  | ok forest =>
    have fits := (Forest.fits_of_parse read).1
    have stands := fits.stands (List.nil_subset [])
    have isSealed : forest.IsSealed True := Forest.isSealed_of_parse read fun _ => closed
    obtain ⟨call, fitsAfter, sealedAfter⟩ := regenerate_eq_updated closed named plain read
    have callNew : regenerate delimiter (revaluation.onForest delimiter forest).render name content =
        _ := regenerate_render named fits.onForest (Forest.isSealed_onForest stands isSealed)
    rw [Forest.render_onForest stands isSealed.isLined, Forest.render_of_parse read,
      updated_onForest different fits isSealed.isLined named,
      Forest.render_onForest (fitsAfter.stands (List.nil_subset [])) sealedAfter.isLined] at callNew
    rw [call, callNew]
    rfl

end Section

/-! ### Both families -/

/-- **The two families of directives do not interfere.** Rewriting the directives of sections
commutes with every merge, and rewriting the directives of merges with every update: the one call
succeeds if and only if the other does, and then with the rewritten text. -/
theorem directives_independent {gen sync : Revaluation} (onGen : gen.key = genKey)
    (onSync : sync.key = syncKey) {fresh existing text name content : Text}
    (closedFresh : fresh.IsClosed) (closedExisting : existing.IsClosed) (closedText : text.IsClosed)
    (requested : SyncMode) (named : isName name = true)
    (plain : ∀ line ∈ content.lines, Marker.Reads delimiter line none) :
    (((∃ merged, Merge.sync delimiter (gen.text delimiter fresh) (gen.text delimiter existing)
            requested = .ok merged) ↔
          ∃ merged, Merge.sync delimiter fresh existing requested = .ok merged) ∧
        ∀ merged, Merge.sync delimiter fresh existing requested = .ok merged →
          Merge.sync delimiter (gen.text delimiter fresh) (gen.text delimiter existing) requested =
            .ok (gen.text delimiter merged)) ∧
      ((∃ updated, Section.regenerate delimiter (sync.text delimiter text) name content =
            .ok updated) ↔
          ∃ updated, Section.regenerate delimiter text name content = .ok updated) ∧
        ∀ updated, Section.regenerate delimiter text name content = .ok updated →
          Section.regenerate delimiter (sync.text delimiter text) name content =
            .ok (sync.text delimiter updated) := by
  have apart : syncKey ≠ genKey := by decide
  have merges : syncKey ≠ gen.key := onGen ▸ apart
  have updates : genKey ≠ sync.key := onSync ▸ apart.symm
  exact ⟨ok_iff_of_toOption (Merge.sync_text merges closedFresh closedExisting),
    ok_iff_of_toOption (Section.regenerate_text updates closedText named plain)⟩

/-- The rewriting of an attribute that adds an exclamation mark to every value. -/
def Tag.Revaluation.exclaim (key : Text) : Revaluation where
  key := key
  change value := value.filter isValueChar ++ ['!']
  isValue value char member := by
    rcases List.mem_append.mp member with inside | last
    · exact (List.mem_filter.mp inside).2
    · rw [List.mem_singleton.mp last]
      rfl

/-- A merge that takes a region from the fresh version, and an update of a section that closes
itself in a file that is forced. -/
theorem directives_independent_exclaim :
    ∃ fresh existing text merged updated : Text,
      fresh = "//<a gen=\"Replace\" sync=\"Replace\">\nnew\n//</a>\n".toList ∧
      existing = "//<a sync=\"Replace\" gen = \"Skip\">\nold\n//</a>\ngen=\"\"\n".toList ∧
      text = "//<f gen=\"Force\" sync=\"Skip\"/>\n\t//<s sync=\"Reserve\" k=\"v\" />\n".toList ∧
      merged = "//<a sync=\"Replace\" gen = \"Skip!\">\nnew\n//</a>\ngen=\"\"\n".toList ∧
      updated = ("//<f gen=\"Force\" sync=\"Skip!\"/>\n" ++
        "\t//<s sync=\"Reserve!\" k=\"v\">\nnew\n\t//</s>\n").toList ∧
      Merge.sync "//".toList ((exclaim genKey).text "//".toList fresh)
          ((exclaim genKey).text "//".toList existing) .demand = .ok merged ∧
        Section.regenerate "//".toList ((exclaim syncKey).text "//".toList text) "s".toList
          "new".toList = .ok updated := by
  have merged : Merge.sync "//".toList
      "//<a gen=\"Replace\" sync=\"Replace\">\nnew\n//</a>\n".toList
      "//<a sync=\"Replace\" gen = \"Skip\">\nold\n//</a>\ngen=\"\"\n".toList .demand =
        .ok "//<a sync=\"Replace\" gen = \"Skip\">\nnew\n//</a>\ngen=\"\"\n".toList :=
    ok_of_toOption (by decide +kernel)
  have updated : Section.regenerate "//".toList
      "//<f gen=\"Force\" sync=\"Skip\"/>\n\t//<s sync=\"Reserve\" k=\"v\" />\n".toList
      "s".toList "new".toList =
        .ok ("//<f gen=\"Force\" sync=\"Skip\"/>\n" ++
          "\t//<s sync=\"Reserve\" k=\"v\">\nnew\n\t//</s>\n").toList :=
    ok_of_toOption (by decide +kernel)
  have closedFresh : Text.IsClosed
      "//<a gen=\"Replace\" sync=\"Replace\">\nnew\n//</a>\n".toList := by
    decide +kernel
  have closedExisting : Text.IsClosed
      "//<a sync=\"Replace\" gen = \"Skip\">\nold\n//</a>\ngen=\"\"\n".toList := by
    decide +kernel
  have closedText : Text.IsClosed
      "//<f gen=\"Force\" sync=\"Skip\"/>\n\t//<s sync=\"Reserve\" k=\"v\" />\n".toList := by
    decide +kernel
  have plain : ∀ line ∈ Text.lines "new".toList, Marker.Reads "//".toList line none := by
    decide +kernel
  have named : isName "s".toList = true := by decide
  have genExclaim : (exclaim genKey).key = genKey := rfl
  have syncExclaim : (exclaim syncKey).key = syncKey := rfl
  obtain ⟨⟨_, merges⟩, _, updates⟩ := directives_independent genExclaim syncExclaim closedFresh
    closedExisting closedText .demand named plain
  have mergedNew := merges _ merged
  have updatedNew := updates _ updated
  rw [show (exclaim genKey).text "//".toList
      "//<a sync=\"Replace\" gen = \"Skip\">\nnew\n//</a>\ngen=\"\"\n".toList =
        "//<a sync=\"Replace\" gen = \"Skip!\">\nnew\n//</a>\ngen=\"\"\n".toList
      by decide +kernel] at mergedNew
  rw [show (exclaim syncKey).text "//".toList ("//<f gen=\"Force\" sync=\"Skip\"/>\n" ++
      "\t//<s sync=\"Reserve\" k=\"v\">\nnew\n\t//</s>\n").toList =
        ("//<f gen=\"Force\" sync=\"Skip!\"/>\n" ++
          "\t//<s sync=\"Reserve!\" k=\"v\">\nnew\n\t//</s>\n").toList
      by decide +kernel] at updatedNew
  exact ⟨_, _, _, _, _, rfl, rfl, rfl, rfl, rfl, mergedNew, updatedNew⟩

end Scaffold
