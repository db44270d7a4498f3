/-
**An update as a change of one element.**

A call that keeps a section up to date changes the first element of a name, or puts a new element
after all others. Said on the forest (`updated`), neither needs the offset at which the element is
found, so that calls can be followed by other calls without reading the text again.

* `amend_eq_substitute`: the first element of a name is changed where it stands;
* `render_amend_settle`: it does not matter how the plain pieces around it are cut;
* `regenerate_render`: **a call does to the text what `updated` does to the forest**;
* `fits_updated`, `regenerate_eq_updated`: what it leaves can be read again, as the updated forest.
-/

import Scaffold.Proofs.Merge.Regeneration

namespace Scaffold

namespace Forest

/-- The forest with a change made to its first element of a name. -/
def amend (name : Text) (change : Element → Element) : Forest → Forest
  | empty => empty
  | text content next => text content (next.amend name change)
  | element tag inner next =>
    if tag.name = name then element (change ⟨tag, inner⟩).tag (change ⟨tag, inner⟩).inner next
    else if (inner.find? name).isSome then element tag (inner.amend name change) next
    else element tag inner (next.amend name change)

variable {delimiter name : Text} {change : Element → Element} {item : Element} {forest : Forest}

/-! ### The element that is changed -/

variable {tag : Tag} {inner next : Forest}

/-- Where the first element of a name is, if it is not the one on top. -/
theorem find?_element_cases (different : tag.name ≠ name)
    (found : (element tag inner next).find? name = some item) :
    inner.find? name = some item ∨ inner.find? name = none ∧ next.find? name = some item := by
  rw [find?_element, if_neg different] at found
  cases inside : inner.find? name with
  | some first =>
    rw [inside, Option.some_or] at found
    exact Or.inl found
  | none =>
    rw [inside, Option.none_or] at found
    exact Or.inr ⟨rfl, found⟩

theorem amend_top (same : tag.name = name) :
    (element tag inner next).amend name change =
      element (change ⟨tag, inner⟩).tag (change ⟨tag, inner⟩).inner next :=
  if_pos same

theorem amend_inside (different : tag.name ≠ name) (found : inner.find? name = some item) :
    (element tag inner next).amend name change = element tag (inner.amend name change) next := by
  have within : (inner.find? name).isSome := Option.isSome_of_eq_some found
  exact (if_neg different).trans (if_pos within)

theorem amend_later (different : tag.name ≠ name) (absent : inner.find? name = none) :
    (element tag inner next).amend name change = element tag inner (next.amend name change) := by
  have without : ¬ (inner.find? name).isSome := Option.not_isSome_iff_eq_none.mpr absent
  exact (if_neg different).trans (if_neg without)

/-- **The first element of a name is changed** where it stands. -/
theorem amend_eq_substitute (apart : forest.IsApart) (found : forest.find? name = some item) :
    forest.amend name change = forest.substitute item.tag.offset (change item) := by
  induction forest with
  | empty => cases found
  | text content next ih => rw [amend, substitute, ih apart found]
  | element tag inner next ihInner ihNext =>
    obtain ⟨above, apartInner, apartNext, between⟩ := isApart_element apart
    by_cases same : tag.name = name
    · rw [find?_element, if_pos same, Option.some.injEq] at found
      subst found
      have nothing : next.substitute tag.offset (change ⟨tag, inner⟩) = next :=
        substitute_of_absent fun other later => above other (List.mem_append_right _ later)
      rw [amend_top same, substitute, if_pos rfl, nothing]
    · rcases find?_element_cases same found with inside | ⟨outside, later⟩
      · have member := mem_of_find? inside
        have elsewhere : tag.offset ≠ item.tag.offset :=
          (above item (List.mem_append_left _ member)).symm
        have nothing : next.substitute item.tag.offset (change item) = next :=
          substitute_of_absent fun other later => (between item member other later).symm
        rw [amend_inside same inside, substitute, if_neg elsewhere, nothing,
          ihInner apartInner inside]
      · have member := mem_of_find? later
        have elsewhere : tag.offset ≠ item.tag.offset :=
          (above item (List.mem_append_right _ member)).symm
        have nothing : inner.substitute item.tag.offset (change item) = inner :=
          substitute_of_absent fun other within => between other within item member
        rw [amend_later same outside, substitute, if_neg elsewhere, nothing,
          ihNext apartNext later]

/-! ### Changes and the cut of the text -/

theorem amend_prependText (content : Text) (forest : Forest) :
    (forest.prependText content).amend name change =
      (forest.amend name change).prependText content := by
  cases forest with
  | empty => rfl
  | text more next => rfl
  | element tag inner next =>
    show text content (amend name change (element tag inner next)) = _
    rw [amend]
    split
    · rfl
    · split <;> rfl

theorem isSome_find?_settle (offset : Nat) (forest : Forest) (name : Text) :
    ((forest.settle offset).find? name).isSome = (forest.find? name).isSome := by
  rw [← Option.isSome_map, find?_settle, Option.isSome_map]

/-- **The cut of the plain text does not matter**, for a change whose text only depends on what is
written of the element. -/
theorem render_amend_settle
    (steady : ∀ first second, first.bare = second.bare →
      (change first).render = (change second).render)
    (offset : Nat) (forest : Forest) :
    ((forest.settle offset).amend name change).render = (forest.amend name change).render := by
  induction forest generalizing offset with
  | empty => rfl
  | text content next ih =>
    rw [settle, amend, render]
    split
    · rename_i nothing
      rw [ih, nothing, List.nil_append]
    · rw [amend_prependText, render_prependText, ih]
  | element tag inner next ihInner ihNext =>
    rw [settle, amend, amend, isSome_find?_settle]
    split
    · have same : Element.bare ⟨{ tag with offset }, inner.settle (offset + tag.openMarker.size)⟩ =
          Element.bare ⟨tag, inner⟩ := by
        rw [Element.bare, Element.bare, Element.innerText, Element.innerText, render_settle]
      have written := steady _ _ same
      rw [Element.render, Element.render] at written
      rw [render, render, render_settle, written]
    · split
      · rw [render, render, render_settle, ihInner]
        rfl
      · rw [render, render, render_settle, ihNext]
        rfl

/-! ### The mode of a file -/

/-- The first known mode for sections among the elements. -/
def genMode? (forest : Forest) : Option GenMode :=
  forest.elements.findSome? fun item => (item.tag.attributes.get? Tag.genKey).bind Named.ofWord?

theorem fileGenMode?_render {outer : List Text} (fits : Fits delimiter outer forest)
    (isLined : forest.IsLined) : Tag.fileGenMode? delimiter forest.render = forest.genMode? :=
  firstValue?_render fits isLined GenMode Tag.genKey

end Forest

namespace Section

variable {delimiter name content : Text} {forest : Forest} {item : Element}

/-- The mode that a forest declares. -/
def forestMode (forest : Forest) : GenMode := forest.genMode?.getD .demand

theorem modeFor_render {outer : List Text} (fits : Forest.Fits delimiter outer forest)
    (isLined : forest.IsLined) : modeFor delimiter forest.render = forestMode forest := by
  rw [modeFor, Forest.fileGenMode?_render fits isLined, forestMode]

/-! ### The call, on forests -/

/-- The forest that an action leaves. -/
def Action.outcome (delimiter name content : Text) (forest : Forest) : Action → Forest
  | .append => forest.append ((added name).forest content delimiter)
  | .replace _ => forest.amend name fun item => renewed delimiter item.tag content
  | .leave => forest

/-- The forest with the content of a section brought up to date. -/
def updated (delimiter name content : Text) (forest : Forest) : Forest :=
  if forestMode forest = .skip then forest
  else
    (Action.of (forestMode forest) (forest.find? name)).outcome delimiter name content forest

/-- What is asked for depends on what is written of the section only. -/
theorem Action.outcome_of {mode : GenMode} {first second : Option Element}
    (same : first.map Element.bare = second.map Element.bare) (forest : Forest) :
    (Action.of mode first).outcome delimiter name content forest =
      (Action.of mode second).outcome delimiter name content forest := by
  cases first with
  | none => rw [Option.map_eq_none_iff.mp same.symm]
  | some item =>
    obtain ⟨other, rfl, bare⟩ := Option.map_eq_some_iff.mp same.symm
    have attributes : other.tag.attributes = item.tag.attributes :=
      congrArg (fun written => written.1.attributes) bare
    have owned : other.tag.isMachineOwned = item.tag.isMachineOwned := by
      rw [Tag.isMachineOwned, Tag.isMachineOwned, attributes]
    cases mode with
    | force => rfl
    | demand =>
      simp only [Action.of, owned]
      split <;> rfl
    | skip =>
      simp only [Action.of, owned]
      split <;> rfl

/-- The text of a section with new content does not depend on where it stands. -/
theorem render_renewed_bare {first second : Element} (same : first.bare = second.bare)
    (content : Text) :
    (renewed delimiter first.tag content).render =
      (renewed delimiter second.tag content).render := by
  have tags : ({ first.tag with offset := 0 } : Tag) = { second.tag with offset := 0 } :=
    (Prod.mk.inj same).1
  have written := congrArg (fun tag => replaced delimiter tag content) tags
  rw [render_renewed, render_renewed]
  exact written

/-- **What an action writes**, where a forest is read again from its own text. -/
theorem Action.text_settle {mode : GenMode}
    (fits : Forest.Fits delimiter [] forest) (isSealed : forest.IsSealed True) :
    (Action.of mode ((forest.settle 0).find? name)).text delimiter forest.render name content
        (forest.settle 0) =
      ((Action.of mode (forest.find? name)).outcome delimiter name content forest).render := by
  have read := Forest.parse_render fits isSealed.isLined
  rw [← Action.outcome_of (forest.find?_settle 0 name)]
  rcases Action.of_cases mode ((forest.settle 0).find? name) with
    ⟨item, found, asked⟩ | ⟨_, _, asked⟩ | ⟨_, _, asked⟩
  · have placed : (forest.settle 0).amend name (fun item => renewed delimiter item.tag content) =
        (forest.settle 0).substitute item.tag.offset (renewed delimiter item.tag content) :=
      Forest.amend_eq_substitute (Forest.isApart_of_parse read) found
    rw [asked, Action.text, Action.outcome, ← render_renewed, ← Forest.render_substitute, ← placed]
    exact Forest.render_amend_settle (fun _ _ same => render_renewed_bare same content) 0 forest
  · have closed : forest.render.IsClosed := Forest.flatten_rows forest ▸ isSealed.2 trivial
    rw [asked, Action.text, Action.outcome, Section.append, Text.closeLine_eq_self closed,
      Forest.render_append, Directive.render_forest]
  · rw [asked]
    rfl

/-- **A call does to the text what `updated` does to the forest.** -/
theorem regenerate_render (named : Tag.isName name = true)
    (fits : Forest.Fits delimiter [] forest) (isSealed : forest.IsSealed True) :
    regenerate delimiter forest.render name content =
      .ok (updated delimiter name content forest).render := by
  have mode := modeFor_render fits isSealed.isLined
  by_cases skips : forestMode forest = .skip
  · rw [updated, if_pos skips]
    exact regenerate_of_skip named (mode.trans skips)
  · have acts : modeFor delimiter forest.render ≠ .skip := mode ▸ skips
    rw [regenerate_of_parse named acts (Forest.parse_render fits isSealed.isLined), mode,
      Action.text_settle fits isSealed, updated, if_neg skips]

/-! ### A section that is there -/

/-- A section with this tag gets new content, in a file of this mode. -/
def IsDue (mode : GenMode) (tag : Tag) : Prop :=
  mode = .force ∨ mode = .demand ∧ tag.isMachineOwned = true

instance (mode : GenMode) (tag : Tag) : Decidable (IsDue mode tag) :=
  inferInstanceAs (Decidable (_ ∨ _))

/-- **A section that is there** gets new content if it is due, and else nothing changes. -/
theorem updated_of_find? (found : forest.find? name = some item) :
    updated delimiter name content forest =
      if IsDue (forestMode forest) item.tag then
        forest.amend name fun item => renewed delimiter item.tag content
      else forest := by
  rw [updated, found]
  cases forestMode forest with
  | skip => rfl
  | force => rfl
  | demand =>
    have asked : Action.of .demand (some item) =
        if item.tag.isMachineOwned then .replace item.tag else .leave := rfl
    have acts : GenMode.demand ≠ .skip := nofun
    rw [if_neg acts, asked]
    by_cases owned : item.tag.isMachineOwned = true
    · have due : IsDue .demand item.tag := Or.inr ⟨rfl, owned⟩
      rw [if_pos owned, if_pos due]
      rfl
    · have early : ¬ IsDue .demand item.tag := by
        rintro (forced | ⟨_, owns⟩)
        · cases forced
        · exact owned owns
      rw [if_neg owned, if_neg early]
      rfl

/-- **A section that is not there** is added if that is forced, and else nothing changes. -/
theorem updated_of_absent (absent : forest.find? name = none) :
    updated delimiter name content forest =
      if forestMode forest = .force then forest.append ((added name).forest content delimiter)
      else forest := by
  rw [updated, absent]
  cases forestMode forest <;> rfl

/-! ### The forest that a call leaves -/

variable {existing : Text}

/-- The name of an element can be asked for. -/
theorem isName_of_isMarked (marked : item.IsMarked delimiter) :
    Tag.isName item.tag.name = true := by
  rcases marked with ⟨isLeaf, _⟩ | isPair
  · exact Tag.Marker.isName_of_reads_opening isLeaf.opens
  · exact Tag.Marker.isName_of_reads_opening isPair.opens

/-- A section that is brought up to date leaves a forest that can be read. -/
theorem fits_amend_renewed {name content : Text} (closed : existing.IsClosed)
    (plain : ∀ line ∈ content.lines, Tag.Marker.Reads delimiter line none)
    (read : Forest.parse delimiter existing = .ok forest) (found : forest.find? name = some item) :
    Forest.Fits delimiter [] (forest.amend name fun item => renewed delimiter item.tag content) ∧
      (forest.amend name fun item => renewed delimiter item.tag content).IsSealed True := by
  have member := Forest.mem_of_find? found
  have ended : existing.getLast? ≠ some '\r' := by
    rcases closed with rfl | feed
    · exact nofun
    · rw [feed]
      decide
  obtain ⟨fits, stays⟩ := fits_substitute_renewed plain ended read member
  rw [Forest.amend_eq_substitute (Forest.isApart_of_parse read) found]
  exact ⟨fits, stays True (Forest.isSealed_of_parse read fun _ => closed)⟩

/-- **An update leaves a forest that can be read**, and complete lines. -/
theorem fits_updated (closed : existing.IsClosed) (named : Tag.isName name = true)
    (plain : ∀ line ∈ content.lines, Tag.Marker.Reads delimiter line none)
    (read : Forest.parse delimiter existing = .ok forest) :
    Forest.Fits delimiter [] (updated delimiter name content forest) ∧
      (updated delimiter name content forest).IsSealed True := by
  have fits := (Forest.fits_of_parse read).1
  have isSealed : forest.IsSealed True := Forest.isSealed_of_parse read fun _ => closed
  cases found : forest.find? name with
  | some item =>
    rw [updated_of_find? found]
    split
    · exact fits_amend_renewed closed plain read found
    · exact ⟨fits, isSealed⟩
  | none =>
    rw [updated_of_absent found]
    split
    · rename_i forced
      have usable : Tag.Marker.IsUsable delimiter :=
        isUsable_of_force ((modeFor_render fits isSealed.isLined).trans forced)
      exact (fits_append_added usable named plain fits isSealed).2
    · exact ⟨fits, isSealed⟩

/-- **A call on a text that is read** leaves the text of the updated forest, which can be read. -/
theorem regenerate_eq_updated (closed : existing.IsClosed) (named : Tag.isName name = true)
    (plain : ∀ line ∈ content.lines, Tag.Marker.Reads delimiter line none)
    (read : Forest.parse delimiter existing = .ok forest) :
    regenerate delimiter existing name content =
        .ok (updated delimiter name content forest).render ∧
      Forest.Fits delimiter [] (updated delimiter name content forest) ∧
      (updated delimiter name content forest).IsSealed True := by
  have fits := (Forest.fits_of_parse read).1
  have isSealed : forest.IsSealed True := Forest.isSealed_of_parse read fun _ => closed
  have call : regenerate delimiter forest.render name content = _ :=
    regenerate_render named fits isSealed
  rw [Forest.render_of_parse read] at call
  exact ⟨call, fits_updated closed named plain read⟩

end Section

end Scaffold
