/-
**Blanks at the end of a comment say nothing.**

Each reader takes the same off a comment that goes on with blanks. What it leaves goes on with them
too, or there is nothing left in either case (`Excerpt.AlikeEnds`), since blanks are skipped and free
text is trimmed. So a comment with blanks after it is the same remark (`Remark.ofExcerpt_blank`), and
does the same to a member (`Extractor.annotate_blank`) and to a class
(`Extractor.applyComment_blank`).
-/

import Scaffold.Proofs.Extraction.Commands
import Scaffold.Proofs.Text.Trimming

namespace Scaffold

open Excerpt (attributeMarker)

/-! ### Texts that go on with blanks -/

namespace Text

variable {text needle more : Text}

/-- A word that does not end in what follows a text is in the text. -/
theorem infix_of_infix_append {char : Char} (last : needle.getLast? = some char)
    (other : char ∉ more) (inside : needle <:+: text ++ more) : needle <:+: text := by
  obtain ⟨before, after, split⟩ := inside
  rcases List.append_eq_append_iff.mp split with ⟨rest, rfl, -⟩ | ⟨rest, whole, rfl⟩
  · exact ⟨before, rest, rfl⟩
  · cases rest with
    | nil => exact ⟨before, [], by rw [whole, List.append_nil, List.append_nil]⟩
    | cons first rest =>
      have ends := congrArg List.getLast? whole
      rw [List.getLast?_append, last, List.getLast?_append_cons] at ends
      refine absurd (List.mem_append_left after ?_) other
      exact List.mem_of_getLast? ends.symm

section Blank

variable (blank : ∀ char ∈ more, isBlank char = true)

include blank

theorem stops_of_blank {holds : Char → Bool}
    (other : ∀ char, isBlank char = true → holds char = false) : Tag.Stops holds more :=
  fun char first => other char (blank char (List.mem_of_mem_head? first))

/-- A text starts as it did before blanks were put after it. -/
theorem head?_blank {char : Char} (solid : isBlank char = false) :
    (text ++ more).head? = some char ↔ text.head? = some char := by
  cases text with
  | cons first rest => exact Iff.rfl
  | nil =>
    refine ⟨fun starts => ?_, nofun⟩
    exact absurd (blank char (List.mem_of_mem_head? starts)) (by rw [solid]; exact nofun)

theorem identifier_blank (text : Text) :
    identifier (text ++ more) = ((identifier text).1, (identifier text).2 ++ more) := by
  have noStart {char : Char} (isBlank : isBlank char = true) : startsIdentifier char = false :=
    Bool.eq_false_iff.mpr fun starts =>
      Bool.false_ne_true ((isBlank_of_startsIdentifier starts).symm.trans isBlank)
  by_cases found : (identifier text).1 = []
  · have whole := identifier_append text
    rw [found, List.nil_append] at whole
    rw [found, whole]
    cases text with
    | nil =>
      cases more with
      | nil => rfl
      | cons char more => exact if_neg (by simp [noStart (blank char List.mem_cons_self)])
    | cons char text =>
      rw [identifier] at found
      split at found
      · cases found
      · rename_i other
        exact if_neg other
  · exact identifier_append_of_found
      (stops_of_blank blank fun _ => continuesIdentifier_of_isBlank) found

end Blank

end Text

namespace Excerpt

/-! ### Groups -/

/-- A scan for the end of a group finds none in blanks. -/
theorem groupFrom_eq_none_of_blank {quotes : List Char} {state : Nesting} {more : Text}
    (isClosing : state.IsClosing) (blank : ∀ char ∈ more, Text.isBlank char = true) :
    groupFrom quotes state more = none := by
  induction more generalizing state with
  | nil => rfl
  | cons char more ih =>
    obtain ⟨isBlank, others⟩ := List.forall_mem_cons.mp blank
    rw [groupFrom]
    cases progress : state.step quotes char with
    | inside next =>
      dsimp only
      rw [ih (isClosing.step progress) others, Option.map_none]
    | ended =>
      have closes := isClosing char (Nesting.mem_closers_of_ended progress)
      simp only [List.mem_cons, List.not_mem_nil, or_false] at closes
      rcases closes with rfl | rfl | rfl <;> exact absurd isBlank (by decide)
    | stray => rfl

theorem groupFrom_blank {quotes : List Char} {state : Nesting} {more : Text}
    (isClosing : state.IsClosing) (blank : ∀ char ∈ more, Text.isBlank char = true) (text : Text) :
    groupFrom quotes state (text ++ more) =
      (groupFrom quotes state text).map fun parts => (parts.1, parts.2 ++ more) := by
  induction text generalizing state with
  | nil => exact groupFrom_eq_none_of_blank isClosing blank
  | cons char text ih =>
    rw [List.cons_append, groupFrom, groupFrom]
    cases progress : state.step quotes char with
    | inside next =>
      dsimp only
      rw [ih (isClosing.step progress), Option.map_map, Option.map_map]
      rfl
    | ended => rfl
    | stray => rfl

/-! ### Excerpts that go on with blanks -/

variable {more : Text}

/-- The second excerpt is the first one with more text after it, unless nothing is left of both. -/
def AlikeEnds (more : Text) (first second : Excerpt) : Prop :=
  second = first.extend more ∨ first.text = [] ∧ second.text = []

/-- Two readers find the same, and what they leave ends alike, or they fail in the same way. -/
inductive ReadsAlike (more : Text) {α : Type} :
    Except Defect (α × Excerpt) → Except Defect (α × Excerpt) → Prop
  | failed (defect : Defect) : ReadsAlike more (.error defect) (.error defect)
  | found {first second : α × Excerpt} (same : second.1 = first.1)
    (alike : AlikeEnds more first.2 second.2) : ReadsAlike more (.ok first) (.ok second)

namespace ReadsAlike

variable {α β : Type} {first second : Except Defect (α × Excerpt)}

theorem map (alike : ReadsAlike more first second) {next : α × Excerpt → β × Excerpt}
    (later : ∀ value {left other : Excerpt}, AlikeEnds more left other →
      (next (value, other)).1 = (next (value, left)).1 ∧
        AlikeEnds more (next (value, left)).2 (next (value, other)).2) :
    ReadsAlike more (first.map next) (second.map next) := by
  cases alike with
  | failed defect => exact .failed defect
  | @found read other same alike =>
    obtain ⟨value, left⟩ := read
    obtain ⟨_, leftOther⟩ := other
    cases same
    exact .found (later value alike).1 (later value alike).2

theorem of_value (result : Except Defect β) {left other : Excerpt}
    (alike : AlikeEnds more left other) :
    ReadsAlike more (result.map fun value => (value, left))
      (result.map fun value => (value, other)) := by
  cases result with
  | error defect => exact .failed defect
  | ok value => exact .found rfl alike

/-- What is made of what is found does not show what follows it. -/
theorem bind_eq (alike : ReadsAlike more first second) {next : α × Excerpt → Except Defect β}
    (later : ∀ value {left other : Excerpt}, AlikeEnds more left other →
      next (value, other) = next (value, left)) :
    second >>= next = first >>= next := by
  cases alike with
  | failed defect => rfl
  | @found read other same alike =>
    obtain ⟨value, left⟩ := read
    obtain ⟨_, leftOther⟩ := other
    cases same
    exact later value alike

end ReadsAlike

section Blank

variable (blank : ∀ char ∈ more, Text.isBlank char = true)

include blank

theorem identifier?_blank (excerpt : Excerpt) :
    (excerpt.extend more).identifier? =
      excerpt.identifier?.map fun found => (found.1, found.2.extend more) := by
  unfold identifier? extend
  dsimp only
  rw [Text.identifier_blank blank, apply_ite (Option.map _)]
  rfl

theorem balanced?_blank (quotes : List Char) (excerpt : Excerpt) :
    (excerpt.extend more).balanced? quotes =
      (excerpt.balanced? quotes).map fun found => (found.1, found.2.extend more) := by
  unfold balanced? extend
  dsimp only
  rw [groupFrom_blank Nesting.isClosing_outside blank, Option.map_map, Option.map_map]
  rfl

theorem skipBlanks_blank (excerpt : Excerpt) :
    AlikeEnds more excerpt.skipBlanks (excerpt.extend more).skipBlanks := by
  by_cases all : ∀ char ∈ excerpt.text, Text.isBlank char = true
  · have allMore : ∀ char ∈ excerpt.text ++ more, Text.isBlank char = true :=
      List.forall_mem_append.mpr ⟨all, blank⟩
    exact Or.inr ⟨List.dropWhile_eq_nil_iff.mpr all, List.dropWhile_eq_nil_iff.mpr allMore⟩
  · left
    have solid : ¬ (excerpt.text.dropWhile Text.isBlank).isEmpty = true := fun nothing =>
      all (List.dropWhile_eq_nil_iff.mp (List.isEmpty_iff.mp nothing))
    have taken : (excerpt.text ++ more).takeWhile Text.isBlank =
        excerpt.text.takeWhile Text.isBlank := by
      rw [List.takeWhile_append, if_neg]
      intro whole
      exact all (List.takeWhile_eq_self_iff.mp
        ((List.takeWhile_prefix Text.isBlank).eq_of_length whole))
    simp only [skipBlanks, skip, extend, Text.trimStart, taken, List.dropWhile_append, if_neg solid]

theorem takeUntilAttribute_blank (excerpt : Excerpt) :
    (excerpt.extend more).takeUntilAttribute.1.trim = excerpt.takeUntilAttribute.1.trim ∧
      AlikeEnds more excerpt.takeUntilAttribute.2 (excerpt.extend more).takeUntilAttribute.2 := by
  have other : '@' ∉ more := fun member => absurd (blank '@' member) (by decide)
  by_cases found : (excerpt.text.splitAtFirst attributeMarker).2 = []
  · have absent := Text.not_infix_of_splitAtFirst (by decide) found
    have absentMore : ¬ attributeMarker <:+: excerpt.text ++ more := fun inside =>
      absent (Text.infix_of_infix_append rfl other inside)
    have trimmed := Text.trim_append (List.forall_mem_nil _) blank excerpt.text
    rw [List.nil_append] at trimmed
    simp only [takeUntilAttribute, extend, Text.splitAtFirst_of_absent absent,
      Text.splitAtFirst_of_absent absentMore]
    exact ⟨trimmed, Or.inr ⟨rfl, rfl⟩⟩
  · simp only [takeUntilAttribute, extend, Text.splitAtFirst_append_of_found found]
    exact ⟨trivial, Or.inl rfl⟩

/-- What starts with a marker still does, and nothing else begins to. -/
theorem marked_blank (text : Text) :
    attributeMarker <+: text ++ more ↔ attributeMarker <+: text := by
  refine ⟨fun leads => ?_, fun leads => leads.trans (List.prefix_append text more)⟩
  cases more with
  | nil => rwa [List.append_nil] at leads
  | cons char more =>
    refine Text.prefix_of_prefix_append (fun member => ?_) leads
    have isMarker : char = '@' := by simpa [attributeMarker] using member
    exact absurd (blank char List.mem_cons_self) (isMarker ▸ by decide)

theorem after?_blank (excerpt : Excerpt) : (excerpt.extend more).text.after? attributeMarker =
    (excerpt.text.after? attributeMarker).map (· ++ more) := by
  cases found : excerpt.text.after? attributeMarker with
  | some rest =>
    rw [extend, Text.after?_eq_some.mp found, List.append_assoc, Text.after?_append]
    rfl
  | none =>
    refine Option.eq_none_iff_forall_ne_some.mpr fun rest foundMore => ?_
    have leads : attributeMarker <+: excerpt.text ++ more :=
      ⟨rest, (Text.after?_eq_some.mp foundMore).symm⟩
    obtain ⟨rest, split⟩ := (marked_blank blank _).mp leads
    rw [← split, Text.after?_append] at found
    cases found

theorem leading_blank {excerpt : Excerpt} (filled : excerpt.text ≠ []) :
    (excerpt.extend more).leading = excerpt.leading := by
  have filledMore : excerpt.text ++ more ≠ [] := List.append_ne_nil_of_left_ne_nil filled more
  unfold leading extend
  simp only [filled, filledMore, if_false, List.isPrefixOf_iff_prefix, marked_blank blank,
    Text.identifier_blank blank, Text.head?_blank blank (by decide : Text.isBlank '(' = false)]

end Blank

end Excerpt

/-! ### Remarks -/

open Excerpt (AlikeEnds ReadsAlike)

namespace Remark

variable {more : Text} (blank : ∀ char ∈ more, Text.isBlank char = true)

include blank

theorem payload_blank (name : Text) (excerpt : Excerpt) :
    ReadsAlike more (payload name excerpt) (payload name (excerpt.extend more)) := by
  unfold payload
  rw [Excerpt.balanced?_blank blank]
  cases excerpt.balanced? payloadQuotes with
  | none => exact .failed _
  | some found =>
    dsimp only [Option.map_some]
    split
    · exact .found rfl (Or.inl rfl)
    · exact .failed _
    · exact .failed _

theorem payload?_blank (name : Text) {first second : Excerpt} (alike : AlikeEnds more first second) :
    ReadsAlike more (payload? name first) (payload? name second) := by
  rcases alike with rfl | ⟨nothing, nothingMore⟩
  · have brace : (first.extend more).text.head? = some '\x7b' ↔
        first.text.head? = some '\x7b' := Text.head?_blank blank (by decide)
    unfold payload?
    simp only [brace]
    split
    · exact (payload_blank blank name first).map fun value _ _ alike => ⟨rfl, alike⟩
    · exact .found rfl (Or.inl rfl)
  · unfold payload?
    rw [nothing, nothingMore, if_neg nofun, if_neg nofun]
    exact .found rfl (Or.inr ⟨nothing, nothingMore⟩)

/-- **An attribute** is read the same with blanks after it. -/
theorem attributeAfter_blank (marker : Nat) (excerpt : Excerpt) :
    ReadsAlike more (attributeAfter marker excerpt)
      (attributeAfter marker (excerpt.extend more)) := by
  unfold attributeAfter
  rw [Excerpt.identifier?_blank blank]
  cases excerpt.identifier? with
  | none => exact .failed _
  | some found =>
    dsimp only [Option.map_some]
    have read := payload?_blank blank found.1 (Excerpt.skipBlanks_blank blank found.2)
    refine read.map fun value left other alike => ?_
    rcases alike with rfl | ⟨nothing, nothingMore⟩
    · obtain ⟨trimmed, alikeLater⟩ := Excerpt.takeUntilAttribute_blank blank left
      dsimp only
      rw [trimmed]
      exact ⟨rfl, alikeLater⟩
    · simp only [Excerpt.takeUntilAttribute, nothing, nothingMore]
      exact ⟨trivial, Or.inr ⟨rfl, rfl⟩⟩

/-- Attributes are read the same with blanks after them. -/
theorem attributesFrom_blank {first second : Excerpt} (alike : AlikeEnds more first second) :
    attributesFrom second = attributesFrom first := by
  have unmarked : ∀ excerpt : Excerpt, excerpt.text = [] → attributesFrom excerpt = .ok [] := by
    intro excerpt nothing
    rw [attributesFrom_eq, nothing]
    rfl
  fun_induction attributesFrom first generalizing second with
  | case1 first absent =>
    rcases alike with rfl | ⟨-, nothingMore⟩
    · rw [attributesFrom_eq, Excerpt.after?_blank blank, absent]
      rfl
    · exact unmarked second nothingMore
  | case2 first rest marked defect read =>
    rcases alike with rfl | ⟨nothing, -⟩
    · have again := attributeAfter_blank blank first.offset (first.skip attributeMarker rest)
      rw [read] at again
      rw [attributesFrom_eq, Excerpt.after?_blank blank, marked]
      show attributeAfter first.offset ((first.skip attributeMarker rest).extend more) >>= _ = _
      generalize attributeAfter first.offset ((first.skip attributeMarker rest).extend more) =
        result at again
      cases again
      rfl
    · rw [nothing] at marked
      cases marked
  | case3 first rest marked item later read shorter ih =>
    rcases alike with rfl | ⟨nothing, -⟩
    · have again := attributeAfter_blank blank first.offset (first.skip attributeMarker rest)
      rw [read] at again
      rw [attributesFrom_eq, Excerpt.after?_blank blank, marked]
      show attributeAfter first.offset ((first.skip attributeMarker rest).extend more) >>= _ = _
      generalize attributeAfter first.offset ((first.skip attributeMarker rest).extend more) =
        result at again
      cases again with
      | found same alike =>
        show (attributesFrom _).map _ = _
        rw [ih alike, same]
    · rw [nothing] at marked
      cases marked

/-- **A remark** is the same with blanks after it. -/
theorem ofExcerpt_blank {first second : Excerpt} (alike : AlikeEnds more first second) :
    ofExcerpt second = ofExcerpt first := by
  rcases alike with rfl | ⟨nothing, nothingMore⟩
  · obtain ⟨trimmed, alike⟩ := Excerpt.takeUntilAttribute_blank blank first
    unfold ofExcerpt piece?
    dsimp only
    rw [trimmed, attributesFrom_blank blank alike]
  · have unmarked : ∀ excerpt : Excerpt, excerpt.text = [] → excerpt.IsUnmarked :=
      fun excerpt empty inside => by
        rw [empty, List.infix_nil] at inside
        cases inside
    rw [(unmarked second nothingMore).ofExcerpt, (unmarked first nothing).ofExcerpt, nothing,
      nothingMore]

end Remark

/-! ### What comments do -/

namespace Extractor

theorem invoked?_of_nil {extractor : Extractor} {comment : Excerpt} (nothing : comment.text = []) :
    extractor.invoked? comment = none := by
  rw [invoked?, Excerpt.leading, if_pos nothing]

variable (extractor : Extractor) {more : Text} (blank : ∀ char ∈ more, Text.isBlank char = true)

include blank

theorem invoked?_blank (comment : Excerpt) :
    extractor.invoked? (comment.extend more) = extractor.invoked? comment := by
  by_cases nothing : comment.text = []
  · rw [invoked?_of_nil nothing]
    refine Option.eq_none_iff_forall_ne_some.mpr fun recognised found => ?_
    obtain ⟨keyword, type⟩ := recognised
    obtain ⟨rest, opened⟩ := exists_of_invoked? found
    have all : more = keyword ++ '(' :: rest := by rwa [Excerpt.extend, nothing] at opened
    have member : '(' ∈ more := all ▸ List.mem_append_right keyword List.mem_cons_self
    exact absurd (blank '(' member) (by decide)
  · rw [invoked?, Excerpt.leading_blank blank nothing, invoked?]

/-- A macro is read the same with blanks after it. -/
theorem applyMacro_blank (property : Property) {first second : Excerpt}
    (alike : AlikeEnds more first second) :
    ReadsAlike more (extractor.applyMacro first property).result
      (extractor.applyMacro second property).result := by
  rcases alike with rfl | ⟨nothing, nothingMore⟩
  · unfold applyMacro
    rw [extractor.invoked?_blank blank]
    split
    · rename_i keyword type found
      obtain ⟨rest, opened⟩ := exists_of_invoked? found
      simp only [applyInvocation, Outcome.result_bind, Outcome.result_lift,
        Outcome.result_reportIf, Outcome.result_pure]
      have after : (first.extend more).skip keyword ((first.extend more).text.drop keyword.length) =
          (first.skip keyword (first.text.drop keyword.length)).extend more := by
        rw [Excerpt.extend, opened, List.append_assoc, List.drop_left, List.drop_left]
        rfl
      rw [after, Invocation.group, Invocation.group, Excerpt.balanced?_blank blank]
      cases (first.skip keyword (first.text.drop keyword.length)).balanced? Invocation.quotes with
      | none => exact .failed _
      | some read => exact .of_value _ (Or.inl rfl)
    · exact .found rfl (Or.inl rfl)
  · rw [applyMacro, applyMacro, invoked?_of_nil nothing, invoked?_of_nil nothingMore]
    exact .found rfl (Or.inr ⟨nothing, nothingMore⟩)

/-- **The comment of a member** says the same with blanks after it. -/
theorem annotate_blank (comment : Excerpt) (property : Property) :
    (extractor.annotate (comment.extend more) property).result =
      (extractor.annotate comment property).result := by
  simp only [annotate, Outcome.result_bind, Outcome.result_lift]
  have read := extractor.applyMacro_blank blank property
    (Excerpt.skipBlanks_blank blank comment)
  refine read.bind_eq fun filled left other alike => ?_
  dsimp only
  rw [Remark.ofExcerpt_blank blank alike]

/-- **A comment of a declaration** says the same with blanks after it. -/
theorem applyComment_blank (state : Class × List Text) (comment : Excerpt) :
    (applyComment state (comment.extend more)).result = (applyComment state comment).result := by
  simp only [applyComment, Outcome.result_bind, Outcome.result_lift]
  rw [Remark.ofExcerpt_blank blank (Or.inl rfl)]

end Extractor

/-! ### Comments without the blanks at their ends -/

/-- The excerpt without blanks at its end. -/
def Excerpt.trimEnd (excerpt : Excerpt) : Excerpt := ⟨excerpt.text.trimEnd, excerpt.offset⟩

theorem Excerpt.exists_extend_trimEnd (excerpt : Excerpt) :
    ∃ blanks : Text, (∀ char ∈ blanks, Text.isBlank char = true) ∧
      excerpt.trimEnd.extend blanks = excerpt := by
  refine ⟨(excerpt.text.reverse.takeWhile Text.isBlank).reverse, fun char member => ?_, ?_⟩
  · exact List.mem_takeWhile_imp (List.mem_reverse.mp member)
  · rw [extend, trimEnd, Text.trimEnd_append]

namespace Extractor

variable {extractor : Extractor}

theorem annotate_trimEnd (comment : Excerpt) (property : Property) :
    (extractor.annotate comment.trimEnd property).result =
      (extractor.annotate comment property).result := by
  obtain ⟨blanks, blank, whole⟩ := comment.exists_extend_trimEnd
  have same := extractor.annotate_blank blank comment.trimEnd property
  rw [whole] at same
  exact same.symm

theorem applyComment_trimEnd (state : Class × List Text) (comment : Excerpt) :
    (applyComment state comment.trimEnd).result = (applyComment state comment).result := by
  obtain ⟨blanks, blank, whole⟩ := comment.exists_extend_trimEnd
  have same := applyComment_blank blank state comment.trimEnd
  rw [whole] at same
  exact same.symm

end Extractor

end Scaffold
