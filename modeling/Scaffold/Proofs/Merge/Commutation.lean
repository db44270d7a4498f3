/-
**Updates of sections that are apart commute.**

Two sections are apart if neither stands inside the other. Bringing one of them up to date then
leaves the other one as it is, and what the file declares too, as long as no declaration stood
inside the section. So the two updates can be made in any order.

* `find?_amend_of_apart`: the other section stays where it is;
* `genMode?_amend`: the file declares what it declared;
* `amend_comm`: **changes of sections that are apart commute**;
* `regenerate_commutes`: so do calls.
-/

import Scaffold.Proofs.Merge.Moves
import Scaffold.Proofs.Merge.Updates

namespace Scaffold

namespace Forest

/-- A change after which nothing is tagged inside the element, while its own tag says the same. -/
structure Empties (change : Element → Element) : Prop where
  name : ∀ item, (change item).tag.name = item.tag.name
  attributes : ∀ item, (change item).tag.attributes = item.tag.attributes
  elements : ∀ item, (change item).inner.elements = []

/-- Neither of two elements stands inside the other. -/
def Unnested (first second : Element) : Prop :=
  second ∉ first.inner.elements ∧ first ∉ second.inner.elements

theorem Unnested.symm {first second : Element} (unnested : Unnested first second) :
    Unnested second first :=
  ⟨unnested.2, unnested.1⟩

variable {first second : Text} {change : Element → Element} {item other : Element} {forest : Forest}

/-! ### Looking up the other element -/

theorem find?_eq_none_of_elements {name : Text} (nothing : forest.elements = []) :
    forest.find? name = none := by
  rw [find?, nothing]
  rfl

/-- A change brings no new names. -/
theorem find?_amend_eq_none (empties : Empties change) (absent : forest.find? second = none) :
    (forest.amend first change).find? second = none := by
  induction forest with
  | empty => rfl
  | text content next ih => exact ih absent
  | element tag inner next ihInner ihNext =>
    have different : tag.name ≠ second := by
      intro same
      rw [find?_element, if_pos same] at absent
      cases absent
    rw [find?_element, if_neg different, Option.or_eq_none_iff] at absent
    rw [amend]
    split
    · have nothing : (change ⟨tag, inner⟩).inner.find? second = none :=
        find?_eq_none_of_elements (empties.elements _)
      rw [find?_element, if_neg (by rw [empties.name]; exact different), nothing, absent.2]
      rfl
    · split
      · rw [find?_element, if_neg different, ihInner absent.1, absent.2]
        rfl
      · rw [find?_element, if_neg different, absent.1, ihNext absent.2]
        rfl

/-- **The other element stays what it is**, if neither stands inside the other. -/
theorem find?_amend_of_apart (empties : Empties change) (different : first ≠ second)
    (found : forest.find? first = some item) (foundOther : forest.find? second = some other)
    (unnested : Unnested item other) : (forest.amend first change).find? second = some other := by
  induction forest with
  | empty => cases found
  | text content next ih => exact ih found foundOther
  | element tag inner next ihInner ihNext =>
    by_cases isFirst : tag.name = first
    · rw [find?_element, if_pos isFirst, Option.some.injEq] at found
      subst found
      have notSecond : tag.name ≠ second := isFirst.symm ▸ different
      have notSecondAfter : (change ⟨tag, inner⟩).tag.name ≠ second := by
        rw [empties.name]
        exact notSecond
      have nothing : (change ⟨tag, inner⟩).inner.find? second = none :=
        find?_eq_none_of_elements (empties.elements _)
      rw [amend_top isFirst, find?_element, if_neg notSecondAfter, nothing, Option.none_or]
      rcases find?_element_cases notSecond foundOther with inside | ⟨_, later⟩
      · exact absurd (mem_of_find? inside) unnested.1
      · exact later
    · by_cases isSecond : tag.name = second
      · rw [find?_element, if_pos isSecond, Option.some.injEq] at foundOther
        subst foundOther
        rcases find?_element_cases isFirst found with inside | ⟨outside, _⟩
        · exact absurd (mem_of_find? inside) unnested.2
        · rw [amend_later isFirst outside, find?_element, if_pos isSecond]
      · rcases find?_element_cases isFirst found with inside | ⟨outside, later⟩
        · rw [amend_inside isFirst inside, find?_element, if_neg isSecond]
          rcases find?_element_cases isSecond foundOther with insideOther | ⟨outsideOther, laterOther⟩
          · rw [ihInner inside insideOther]
            rfl
          · rw [find?_amend_eq_none empties outsideOther, laterOther]
            rfl
        · rw [amend_later isFirst outside, find?_element, if_neg isSecond]
          rcases find?_element_cases isSecond foundOther with insideOther | ⟨outsideOther, laterOther⟩
          · rw [insideOther]
            rfl
          · rw [outsideOther, ihNext later laterOther]
            rfl

/-! ### What the file declares -/

theorem genMode?_element (tag : Tag) (inner next : Forest) :
    (element tag inner next).genMode? =
      ((tag.attributes.get? Tag.genKey).bind Named.ofWord?).or
        (inner.genMode?.or next.genMode?) := by
  rw [genMode?, elements, List.findSome?_cons, List.findSome?_append]
  cases (tag.attributes.get? Tag.genKey).bind (Named.ofWord? : Text → Option GenMode) <;> rfl

theorem genMode?_of_elements (nothing : forest.elements = []) : forest.genMode? = none := by
  rw [genMode?, nothing]
  rfl

/-- **The file declares what it declared**, if nothing was declared inside the element. -/
theorem genMode?_amend (empties : Empties change) (found : forest.find? first = some item)
    (silent : item.inner.genMode? = none) :
    (forest.amend first change).genMode? = forest.genMode? := by
  induction forest with
  | empty => cases found
  | text content next ih => exact ih found
  | element tag inner next ihInner ihNext =>
    by_cases isFirst : tag.name = first
    · rw [find?_element, if_pos isFirst, Option.some.injEq] at found
      subst found
      rw [amend_top isFirst, genMode?_element, genMode?_element, empties.attributes, silent,
        genMode?_of_elements (empties.elements _)]
    · rcases find?_element_cases isFirst found with inside | ⟨outside, later⟩
      · rw [amend_inside isFirst inside, genMode?_element, genMode?_element, ihInner inside]
      · rw [amend_later isFirst outside, genMode?_element, genMode?_element, ihNext later]

/-! ### Two changes -/

/-- A change of the element on top of a forest leaves a change after it as it is. -/
theorem amend_comm_top {changeOther : Element → Element} {tag : Tag} {inner next : Forest}
    (empties : Empties change) (isFirst : tag.name = first) (different : first ≠ second)
    (outside : inner.find? second = none) :
    ((element tag inner next).amend first change).amend second changeOther =
      ((element tag inner next).amend second changeOther).amend first change := by
  have notSecond : tag.name ≠ second := isFirst.symm ▸ different
  have notSecondAfter : (change ⟨tag, inner⟩).tag.name ≠ second := by
    rw [empties.name]
    exact notSecond
  have nothing : (change ⟨tag, inner⟩).inner.find? second = none :=
    find?_eq_none_of_elements (empties.elements _)
  rw [amend_top isFirst, amend_later notSecondAfter nothing, amend_later notSecond outside,
    amend_top isFirst]

/-- **Changes of two elements commute**, if neither stands inside the other. -/
theorem amend_comm {changeOther : Element → Element} (empties : Empties change)
    (emptiesOther : Empties changeOther) (different : first ≠ second)
    (found : forest.find? first = some item) (foundOther : forest.find? second = some other)
    (unnested : Unnested item other) :
    (forest.amend first change).amend second changeOther =
      (forest.amend second changeOther).amend first change := by
  induction forest with
  | empty => cases found
  | text content next ih => exact congrArg (text content) (ih found foundOther)
  | element tag inner next ihInner ihNext =>
    by_cases isFirst : tag.name = first
    · refine amend_comm_top empties isFirst different ?_
      rw [find?_element, if_pos isFirst, Option.some.injEq] at found
      subst found
      rcases find?_element_cases (isFirst ▸ different) foundOther with inside | ⟨outside, _⟩
      · exact absurd (mem_of_find? inside) unnested.1
      · exact outside
    · by_cases isSecond : tag.name = second
      · refine (amend_comm_top emptiesOther isSecond different.symm ?_).symm
        rw [find?_element, if_pos isSecond, Option.some.injEq] at foundOther
        subst foundOther
        rcases find?_element_cases isFirst found with inside | ⟨outside, _⟩
        · exact absurd (mem_of_find? inside) unnested.2
        · exact outside
      · rcases find?_element_cases isFirst found with inside | ⟨outside, later⟩ <;>
          rcases find?_element_cases isSecond foundOther with insideOther | ⟨outsideOther, laterOther⟩
        · have still := find?_amend_of_apart empties different inside insideOther unnested
          have stillOther :=
            find?_amend_of_apart emptiesOther different.symm insideOther inside unnested.symm
          rw [amend_inside isFirst inside, amend_inside isSecond still,
            amend_inside isSecond insideOther, amend_inside isFirst stillOther,
            ihInner inside insideOther]
        · have still : (inner.amend first change).find? second = none :=
            find?_amend_eq_none empties outsideOther
          rw [amend_inside isFirst inside, amend_later isSecond still,
            amend_later isSecond outsideOther, amend_inside isFirst inside]
        · have still : (inner.amend second changeOther).find? first = none :=
            find?_amend_eq_none emptiesOther outside
          rw [amend_later isFirst outside, amend_inside isSecond insideOther,
            amend_inside isSecond insideOther, amend_later isFirst still]
        · rw [amend_later isFirst outside, amend_later isSecond outsideOther,
            amend_later isSecond outsideOther, amend_later isFirst outside,
            ihNext later laterOther]

end Forest

namespace Section

variable {delimiter existing : Text} {forest : Forest} {item other : Element}

/-! ### Two calls -/

theorem empties_renewed (delimiter content : Text) :
    Forest.Empties fun item => renewed delimiter item.tag content :=
  ⟨fun _ => rfl, fun _ => rfl, fun _ => rfl⟩

variable {first second firstContent secondContent : Text}

theorem forestMode_amend {change : Element → Element} (empties : Forest.Empties change)
    (found : forest.find? first = some item) (silent : item.inner.genMode? = none) :
    forestMode (forest.amend first change) = forestMode forest := by
  rw [forestMode, forestMode, Forest.genMode?_amend empties found silent]

/-- **Updates of two sections of a forest commute**, if the sections are apart and nothing is
declared inside them. -/
theorem updated_comm (different : first ≠ second) (found : forest.find? first = some item)
    (foundOther : forest.find? second = some other) (unnested : Forest.Unnested item other)
    (silent : item.inner.genMode? = none) (silentOther : other.inner.genMode? = none) :
    updated delimiter second secondContent (updated delimiter first firstContent forest) =
      updated delimiter first firstContent (updated delimiter second secondContent forest) := by
  have empties := empties_renewed delimiter firstContent
  have emptiesOther := empties_renewed delimiter secondContent
  have still := Forest.find?_amend_of_apart emptiesOther different.symm foundOther found
    unnested.symm
  have stillOther := Forest.find?_amend_of_apart empties different found foundOther unnested
  have mode := forestMode_amend empties found silent
  have modeOther := forestMode_amend emptiesOther foundOther silentOther
  rw [updated_of_find? found, updated_of_find? foundOther]
  by_cases due : IsDue (forestMode forest) item.tag <;>
    by_cases dueOther : IsDue (forestMode forest) other.tag
  · rw [if_pos due, if_pos dueOther, updated_of_find? stillOther, updated_of_find? still, mode,
      modeOther, if_pos due, if_pos dueOther]
    exact Forest.amend_comm empties emptiesOther different found foundOther unnested
  · rw [if_pos due, if_neg dueOther, updated_of_find? stillOther, updated_of_find? found, mode,
      if_pos due, if_neg dueOther]
  · rw [if_neg due, if_pos dueOther, updated_of_find? foundOther, updated_of_find? still, modeOther,
      if_neg due, if_pos dueOther]
  · rw [if_neg due, if_neg dueOther, updated_of_find? foundOther, updated_of_find? found,
      if_neg due, if_neg dueOther]

/-- **Updates of two sections commute**, if the sections are apart and nothing is declared inside
them. -/
theorem regenerate_commutes (closed : existing.IsClosed)
    (read : Forest.parse delimiter existing = .ok forest) (different : first ≠ second)
    (found : forest.find? first = some item) (foundOther : forest.find? second = some other)
    (outside : other ∉ item.inner.elements) (outsideOther : item ∉ other.inner.elements)
    (silent : Tag.fileGenMode? delimiter item.innerText = none)
    (silentOther : Tag.fileGenMode? delimiter other.innerText = none)
    (plain : ∀ line ∈ firstContent.lines, Tag.Marker.Reads delimiter line none)
    (plainOther : ∀ line ∈ secondContent.lines, Tag.Marker.Reads delimiter line none) :
    ∃ afterFirst afterSecond result,
      regenerate delimiter existing first firstContent = .ok afterFirst ∧
        regenerate delimiter afterFirst second secondContent = .ok result ∧
        regenerate delimiter existing second secondContent = .ok afterSecond ∧
        regenerate delimiter afterSecond first firstContent = .ok result := by
  have fits := (Forest.fits_of_parse read).1
  have isSealed : forest.IsSealed True := Forest.isSealed_of_parse read fun _ => closed
  have unnested : Forest.Unnested item other := ⟨outside, outsideOther⟩
  have declares : ∀ {name : Text} {inside : Element}, forest.find? name = some inside →
      Tag.fileGenMode? delimiter inside.innerText = none → inside.inner.genMode? = none := by
    intro name inside foundInside nothing
    have member := Forest.mem_of_find? foundInside
    obtain ⟨marked, around, fitsInner⟩ := fits.of_mem member
    have sealedInner := Forest.isSealed_inner marked (isSealed.of_mem fits member)
    rw [Element.innerText, Forest.fileGenMode?_render fitsInner sealedInner.isLined] at nothing
    exact nothing
  have isName : ∀ {name : Text} {inside : Element}, forest.find? name = some inside →
      Tag.isName name = true := fun foundInside =>
    Forest.name_of_find? foundInside ▸
      isName_of_isMarked (fits.of_mem (Forest.mem_of_find? foundInside)).1
  obtain ⟨call, fitsAfter, sealedAfter⟩ := regenerate_eq_updated closed (isName found) plain read
  obtain ⟨callOther, fitsOther, sealedOther⟩ :=
    regenerate_eq_updated closed (isName foundOther) plainOther read
  refine ⟨_, _, _, call, regenerate_render (isName foundOther) fitsAfter sealedAfter, callOther, ?_⟩
  rw [regenerate_render (isName found) fitsOther sealedOther,
    updated_comm different found foundOther unnested (declares found silent)
      (declares foundOther silentOther)]

/-- One of the sections closes itself inside another element, and its name comes again inside the
other section. -/
theorem regenerate_commutes_repeated : ∃ existing result : Text,
    existing = ("//<a k=\"v\">\n\t//<s gen=\"Replace\" />\n//</a>\n" ++
      "//<t gen=\"Replace\">\n//<s k=\"w\"/>\n//</t>\n").toList ∧
      result = ("//<a k=\"v\">\n\t//<s gen=\"Replace\">\nnew\n\t//</s>\n//</a>\n" ++
        "//<t gen=\"Replace\">\nother\n//</t>\n").toList ∧
      ∃ afterFirst afterSecond,
        regenerate "//".toList existing "s".toList "new".toList = .ok afterFirst ∧
          regenerate "//".toList afterFirst "t".toList "other\n".toList = .ok result ∧
          regenerate "//".toList existing "t".toList "other\n".toList = .ok afterSecond ∧
          regenerate "//".toList afterSecond "s".toList "new".toList = .ok result := by
  have apart : (Forest.parse "//".toList ("//<a k=\"v\">\n\t//<s gen=\"Replace\" />\n//</a>\n" ++
      "//<t gen=\"Replace\">\n//<s k=\"w\"/>\n//</t>\n").toList).toOption.any (fun forest =>
        (forest.find? "s".toList).any fun item => (forest.find? "t".toList).any fun other =>
          decide (other ∉ item.inner.elements ∧ item ∉ other.inner.elements ∧
            Tag.fileGenMode? "//".toList item.innerText = none ∧
            Tag.fileGenMode? "//".toList other.innerText = none)) = true := by
    decide +kernel
  obtain ⟨forest, read, both⟩ := (Option.any_eq_true _ _).mp apart
  obtain ⟨item, found, one⟩ := (Option.any_eq_true _ _).mp both
  obtain ⟨other, foundOther, holds⟩ := (Option.any_eq_true _ _).mp one
  obtain ⟨outside, outsideOther, silent, silentOther⟩ := of_decide_eq_true holds
  have plain : ∀ line ∈ Text.lines "new".toList, Tag.Marker.Reads "//".toList line none := by
    decide +kernel
  have plainOther : ∀ line ∈ Text.lines "other\n".toList, Tag.Marker.Reads "//".toList line none := by
    decide +kernel
  obtain ⟨afterFirst, afterSecond, result, first, second, firstLast, secondLast⟩ :=
    regenerate_commutes (Or.inr (by decide +kernel)) (Forest.toOption_parse_eq_some_iff.mp read)
      (by decide) found foundOther outside outsideOther silent silentOther plain plainOther
  have value : ((regenerate "//".toList ("//<a k=\"v\">\n\t//<s gen=\"Replace\" />\n//</a>\n" ++
      "//<t gen=\"Replace\">\n//<s k=\"w\"/>\n//</t>\n").toList "s".toList
        "new".toList).toOption.bind fun after =>
          (regenerate "//".toList after "t".toList "other\n".toList).toOption) =
      some ("//<a k=\"v\">\n\t//<s gen=\"Replace\">\nnew\n\t//</s>\n//</a>\n" ++
        "//<t gen=\"Replace\">\nother\n//</t>\n").toList := by
    decide +kernel
  rw [first] at value
  simp only [Except.toOption, Option.bind_some, second, Option.some.injEq] at value
  exact ⟨_, result, rfl, value, afterFirst, afterSecond, first, second, firstLast, secondLast⟩

end Section

end Scaffold
