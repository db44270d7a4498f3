/-
**What a merge moves from one context into another.**

A graft takes elements of the counterpart to places where other names are open and other text
follows (`Move`). Whether a graft can be written and read again is decided by its moves alone:

* `stands_graft`: its markers are always what its tags say;
* `fits_graft_iff`: it fits if and only if no stray close marker inside a moved element names a
  skeleton element around the place it is moved to (`Move.IsApart`);
* `isSealed_graft`: its rows stay apart if no move leaves its last line incomplete where something
  follows (`Move.IsJoined`).
-/

import Scaffold.Proofs.Merge.Graft
import Scaffold.Proofs.Tag.Legible

namespace Scaffold

/-! ### Moves -/

/-- An element of the counterpart that stands for a region of the skeleton. -/
structure Move where
  /-- The names of the skeleton elements around the region, the innermost first. -/
  around : List Text
  /-- The tag of the region. -/
  region : Tag
  /-- The element of the counterpart. -/
  source : Element
  /-- What comes after the region, up to the end of the skeleton element around it. -/
  after : Forest

namespace Move

/-- No stray close marker inside the source names a skeleton element around the region. -/
def IsApart (delimiter : Text) (move : Move) : Prop :=
  ∀ name ∈ move.source.inner.strays delimiter, name ∉ move.around

/-- A source that is taken whole completes its last line, unless it is the end of the text. -/
def IsJoined (move : Move) : Prop :=
  move.region.isSelfClosing = true →
    move.source.render.IsClosed ∨ move.around = [] ∧ move.after = .empty

instance (delimiter : Text) (move : Move) : Decidable (move.IsApart delimiter) :=
  inferInstanceAs (Decidable (∀ name ∈ _, _))

instance (move : Move) : Decidable move.IsJoined := inferInstanceAs (Decidable (_ → _))

end Move

namespace Forest

/-- The moves of a graft onto a skeleton that stands inside elements of the names `around`. -/
def moves (skeleton : Skeleton) (counterpart : Forest) : (around : List Text) → Forest → List Move
  | _, empty => []
  | around, text _ next => moves skeleton counterpart around next
  | around, element tag inner next =>
    (match Region.resolve skeleton tag.regionSync? with
      | .own => []
      | .recurse => moves skeleton counterpart (tag.name :: around) inner
      | .counterpart =>
        ((counterpart.find? tag.name).map fun source => ⟨around, tag, source, next⟩).toList) ++
      moves skeleton counterpart around next

variable {delimiter : Text} {skeleton : Skeleton} {counterpart forest : Forest}
  {context outer : List Text}

/-- What holds of every move of an element and of what comes after it. -/
theorem forall_moves_element {holds : Move → Prop} {tag : Tag} {inner next : Forest} :
    (∀ move ∈ moves skeleton counterpart outer (element tag inner next), holds move) ↔
      (Region.resolve skeleton tag.regionSync? = .recurse →
        ∀ move ∈ moves skeleton counterpart (tag.name :: outer) inner, holds move) ∧
      (∀ source, Region.resolve skeleton tag.regionSync? = .counterpart →
        counterpart.find? tag.name = some source → holds ⟨outer, tag, source, next⟩) ∧
      ∀ move ∈ moves skeleton counterpart outer next, holds move := by
  rw [moves, List.forall_mem_append, ← and_assoc]
  refine and_congr_left fun _ => ?_
  cases Region.resolve skeleton tag.regionSync? <;> simp

/-! ### Markers of a graft -/

/-- An element keeps its markers whatever is decided about it. -/
theorem isMarked_decided (fitsOther : Fits delimiter context counterpart) {item : Element}
    (marked : item.IsMarked delimiter) {walked : Forest}
    (stays : item.inner = .empty → walked = .empty) :
    (decided skeleton counterpart item walked).IsMarked delimiter := by
  rcases decided_cases skeleton counterpart item walked with
    same | ⟨_, same⟩ | ⟨source, _, found, ⟨_, same⟩ | ⟨opened, same⟩⟩
  · rw [same]
    exact marked
  · rw [same]
    exact marked.imp_left fun leaf => ⟨leaf.1, stays leaf.2⟩
  · rw [same]
    exact (fitsOther.of_mem (mem_of_find? found)).1
  · rw [same]
    rcases marked with leaf | isPair
    · rw [leaf.1.isSelfClosing] at opened
      cases opened
    · exact Or.inr isPair

theorem isMarked_graft (fitsOther : Fits delimiter context counterpart) {item : Element}
    (marked : item.IsMarked delimiter) :
    (decided skeleton counterpart item (graft skeleton counterpart item.inner)).IsMarked
      delimiter := by
  refine isMarked_decided fitsOther marked fun none => ?_
  rw [none]
  rfl

/-- **The elements of a graft end where they should**, whatever is moved. -/
theorem stands_graft (fitsOther : Fits delimiter context counterpart) {near : List Text}
    (fits : Fits delimiter outer forest) (known : near ⊆ outer) :
    Stands delimiter near (graft skeleton counterpart forest) := by
  induction forest generalizing outer near with
  | empty => exact .empty
  | text content next ih =>
    cases fits with
    | text plain fitsNext =>
      have here := (Fits.text plain .empty).stands known
      cases here with
      | text plainNear _ => exact .text plainNear (ih fitsNext known)
  | element tag inner next ihInner ihNext =>
    obtain ⟨marked, fitsInner, fitsNext⟩ := fits_element.mp fits
    have own : ∀ names : List Text, [tag.name] ⊆ tag.name :: names :=
      fun names => List.cons_subset_cons _ (List.nil_subset names)
    refine stands_element.mpr ⟨isMarked_graft fitsOther marked, ?_, ihNext fitsNext known⟩
    rw [name_decided]
    have moved : ∀ source, counterpart.find? tag.name = some source →
        Stands delimiter [tag.name] source.inner := by
      intro source found
      obtain ⟨_, around, fitsSource⟩ := fitsOther.of_mem (mem_of_find? found)
      rw [name_of_find? found] at fitsSource
      exact fitsSource.stands (own around)
    rcases decided_cases skeleton counterpart ⟨tag, inner⟩ (graft skeleton counterpart inner) with
      same | ⟨_, same⟩ | ⟨source, _, found, ⟨_, same⟩ | ⟨_, same⟩⟩
    · rw [same]
      exact fitsInner.stands (own outer)
    · rw [same]
      exact ihInner fitsInner (own outer)
    · rw [same]
      exact moved source found
    · rw [same]
      exact moved source found

/-- **A graft fits** if and only if what is moved is apart from what is around it. -/
theorem fits_graft_iff (fitsOther : Fits delimiter context counterpart)
    (fits : Fits delimiter outer forest) :
    Fits delimiter outer (graft skeleton counterpart forest) ↔
      ∀ move ∈ moves skeleton counterpart outer forest, move.IsApart delimiter := by
  induction forest generalizing outer with
  | empty =>
    constructor
    · intro _ move member
      cases member
    · intro _
      exact .empty
  | text content next ih =>
    cases fits with
    | text plain fitsNext =>
      rw [moves, ← ih fitsNext]
      constructor
      · intro fitsGraft
        cases fitsGraft with
        | text _ fitsNext => exact fitsNext
      · exact .text plain
  | element tag inner next ihInner ihNext =>
    obtain ⟨marked, fitsInner, fitsNext⟩ := fits_element.mp fits
    have split : Fits delimiter outer (graft skeleton counterpart (element tag inner next)) ↔
        Fits delimiter (tag.name :: outer)
            (decided skeleton counterpart ⟨tag, inner⟩ (graft skeleton counterpart inner)).inner ∧
          Fits delimiter outer (graft skeleton counterpart next) := by
      rw [graft, fits_element, name_decided]
      exact and_iff_right (isMarked_graft fitsOther marked)
    rw [split, forall_moves_element, ← ihNext fitsNext, ← and_assoc]
    refine and_congr_left fun _ => ?_
    cases region : Region.resolve skeleton tag.regionSync? with
    | own =>
      rw [decided_of_own region]
      simp [fitsInner]
    | recurse =>
      rw [decided_of_recurse region]
      simpa using ihInner fitsInner
    | counterpart =>
      rw [decided_of_counterpart region]
      cases found : counterpart.find? tag.name with
      | none =>
        rw [supplied_of_none found]
        simp [fitsInner]
      | some source =>
        obtain ⟨_, around, fitsSource⟩ := fitsOther.of_mem (mem_of_find? found)
        rw [name_of_find? found] at fitsSource
        rw [inner_supplied_of_some found, fits_inner_iff fitsSource]
        simp [Move.IsApart]

/-! ### Rows of a graft -/

theorem rows_graft_eq_nil (fits : Fits delimiter outer forest) (none : forest.rows = []) :
    (graft skeleton counterpart forest).rows = [] := by
  rw [graft_of_found, none]
  rw [fits.elements_eq_nil none]
  exact nofun

/-- **A graft is sealed** if the skeleton is, and what is moved is joined to what comes after it.
The skeleton is followed by something where elements are around it. -/
theorem isSealed_graft (fitsOther : Fits delimiter context counterpart)
    (sealedOther : counterpart.IsSealed False) (fits : Fits delimiter outer forest)
    (isSealed : forest.IsSealed (outer ≠ []))
    (joined : ∀ move ∈ moves skeleton counterpart outer forest, move.IsJoined) :
    (graft skeleton counterpart forest).IsSealed (outer ≠ []) := by
  induction forest generalizing outer with
  | empty => exact isSealed
  | text content next ih =>
    cases fits with
    | text plain fitsNext =>
      obtain ⟨closed, sealedNext⟩ := isSealed_text.mp isSealed
      refine isSealed_text.mpr ⟨fun followed => closed ?_, ih fitsNext sealedNext joined⟩
      exact followed.imp_right fun filled none => filled (rows_graft_eq_nil fitsNext none)
  | element tag inner next ihInner ihNext =>
    obtain ⟨marked, fitsInner, fitsNext⟩ := fits_element.mp fits
    obtain ⟨sealedHere, sealedNext⟩ := isSealed_element.mp isSealed
    obtain ⟨joinedInner, joinedHere, joinedNext⟩ := forall_moves_element.mp joined
    refine isSealed_element.mpr ⟨?_, ihNext fitsNext sealedNext joinedNext⟩
    have same : (outer ≠ [] ∨ (graft skeleton counterpart next).rows ≠ []) →
        outer ≠ [] ∨ next.rows ≠ [] :=
      Or.imp_right fun filled none => filled (rows_graft_eq_nil fitsNext none)
    have stays := sealedHere.mono same
    have sealedSource : ∀ source, counterpart.find? tag.name = some source →
        source.IsSealed False :=
      fun source found => sealedOther.of_mem fitsOther (mem_of_find? found)
    rcases decided_cases skeleton counterpart ⟨tag, inner⟩ (graft skeleton counterpart inner) with
      same | ⟨region, same⟩ | ⟨source, region, found, ⟨closed, same⟩ | ⟨opened, same⟩⟩
    · rw [same]
      exact stays
    · rw [same]
      rcases marked with ⟨_, rfl⟩ | isPair
      · exact stays
      · obtain ⟨opens, sealedInner, closes⟩ := (isSealed_of_isPair isPair).mp stays
        have walked := ihInner fitsInner (sealedInner.mono fun _ => trivial) (joinedInner region)
        exact (isSealed_of_isPair isPair).mpr
          ⟨opens, walked.mono fun _ => List.cons_ne_nil _ _, closes⟩
    · rw [same]
      refine ⟨(sealedSource source found).1, fun followed => ?_⟩
      rw [Element.flatten_rows]
      refine (joinedHere source region found closed).resolve_right ?_
      rintro ⟨noOuter, noNext⟩
      change next = .empty at noNext
      rcases followed with filled | filled
      · exact filled noOuter
      · rw [noNext] at filled
        exact filled rfl
    · rw [same]
      rcases marked with leaf | isPair
      · rw [leaf.1.isSelfClosing] at opened
        cases opened
      · obtain ⟨opens, _, closes⟩ := (isSealed_of_isPair isPair).mp stays
        have inside := isSealed_inner (fitsOther.of_mem (mem_of_find? found)).1
          (sealedSource source found)
        exact (isSealed_of_isPair isPair).mpr ⟨opens, inside, closes⟩

/-! ### Moves that need no care -/

/-- What is moved is an element of the counterpart. -/
theorem source_mem :
    ∀ move ∈ moves skeleton counterpart outer forest, move.source ∈ counterpart.elements := by
  induction forest generalizing outer with
  | empty =>
    intro move member
    cases member
  | text content next ih => exact ih
  | element tag inner next ihInner ihNext =>
    exact forall_moves_element.mpr
      ⟨fun _ => ihInner, fun source _ found => mem_of_find? found, ihNext⟩

/-- Without stray close markers in the counterpart, all moves are apart. -/
theorem isApart_of_strays (closes : counterpart.strays delimiter = []) :
    ∀ move ∈ moves skeleton counterpart outer forest, move.IsApart delimiter := by
  intro move member name stray
  have strayOther := strays_subset (source_mem move member) stray
  rw [closes] at strayOther
  cases strayOther

/-- If the counterpart completes its last line, all moves are joined. -/
theorem isJoined_of_isSealed (fitsOther : Fits delimiter context counterpart)
    (sealedOther : counterpart.IsSealed True) :
    ∀ move ∈ moves skeleton counterpart outer forest, move.IsJoined := by
  intro move member _
  have sealedSource := sealedOther.of_mem fitsOther (source_mem move member)
  rw [← Element.flatten_rows]
  exact Or.inl (sealedSource.2 trivial)

end Forest

end Scaffold
