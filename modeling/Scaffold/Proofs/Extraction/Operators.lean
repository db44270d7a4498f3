/-
**Operators in the arguments of a macro.**

The scan for the commas of a macro counts angle brackets, and it does not tell brackets from
operators. What matters of an operator is the bracket that it leaves open (`openAngles`): the next
comma then separates nothing, and the argument goes on behind it (`exists_segments_merged`). A
bracket that closes nothing does no harm, and nothing comes after the last argument. So four
arguments are what is written between the commas exactly if none of the first three leaves a bracket
open (`result_property_of_operators`).
-/

import Scaffold.Proofs.Extraction.Positions

namespace Scaffold

namespace Excerpt

/-! ### Brackets that are left open -/

/-- The angle brackets that a text leaves open: each `<` opens one, and each `>` closes one if there
is one to close. Those in literals do not count. -/
def openAngles (text : Text) : Nat := (text.foldl Enclosure.step .outermost).angle

namespace Enclosure

variable {state last : Enclosure} {text : Text}

theorem Passes.foldl_eq (passes : Passes state text last) : text.foldl step state = last := by
  induction passes with
  | nil => rfl
  | cons _ _ ih => exact ih

/-- An ordinary character is passed; it may be an angle bracket. -/
theorem exists_step_ordinary {char : Char} (isOrdinary : Text.IsOrdinary char)
    (depth angle : Nat) : ∃ next, (within depth angle).step char = within depth next := by
  simp only [Text.IsOrdinary, List.mem_cons, List.not_mem_nil, or_false, not_or] at isOrdinary
  by_cases opens : char = '<'
  · exact ⟨angle + 1, by subst opens; rfl⟩
  · by_cases closes : char = '>'
    · exact ⟨angle - 1, by subst closes; rfl⟩
    · exact ⟨angle, by simp [step, isOrdinary, opens, closes]⟩

/-- **A bracketed text is passed** by the scan for commas; only the count of angle brackets is
different behind it. -/
theorem exists_passes_bracketed {commas : Bool} (bracketed : Text.Bracketed commas text)
    (depth angle : Nat) (inside : commas = true → 0 < depth) :
    ∃ next, Passes (within depth angle) text (within depth next) := by
  induction bracketed generalizing depth angle with
  | nil => exact ⟨angle, .nil _⟩
  | @ordinary commas char rest isOrdinary _ ih =>
    obtain ⟨next, step⟩ := exists_step_ordinary isOrdinary depth angle
    obtain ⟨last, more⟩ := ih depth next inside
    exact ⟨last, .cons (fun separates => isOrdinary (by simp [separates.1])) (step ▸ more)⟩
  | comma _ ih =>
    obtain ⟨last, more⟩ := ih depth angle inside
    have deep := inside rfl
    exact ⟨last, .cons (fun separates => by simp [isOutermost] at separates; omega) more⟩
  | @literal commas quote body rest isQuote quoted _ ih =>
    have noEscape : quote ≠ '\\' := by
      rcases isQuote with rfl | rfl <;> decide
    have opened : (within depth angle).step quote = ⟨depth, angle, some quote, false⟩ := by
      simp only [step, isQuote, if_true]
    obtain ⟨last, more⟩ := ih depth angle inside
    refine ⟨last, .cons (fun separates => ?_) ?_⟩
    · rcases isQuote with rfl | rfl <;> cases separates.1
    · rw [opened]
      exact (passes_quotedFrom depth angle quoted noEscape).append more
  | @group commas opener closer inner rest opens _ _ ihInner ih =>
    obtain ⟨middle, within⟩ := ihInner (depth + 1) angle fun _ => Nat.succ_pos depth
    obtain ⟨last, more⟩ := ih depth middle inside
    refine ⟨last, ?_⟩
    unfold closerOf? at opens
    split at opens <;> cases opens
    all_goals exact .cons (by simp) (within.append (.cons (by simp) more))

end Enclosure

/-! ### Segments -/

variable {text : Text}

/-- Behind an argument only its open angle brackets are counted. -/
theorem passes_openAngles (bracketed : Text.Bracketed false text) :
    Enclosure.outermost.Passes text (.within 0 (openAngles text)) := by
  obtain ⟨next, passes⟩ := Enclosure.exists_passes_bracketed bracketed 0 0 nofun
  have count : openAngles text = next := congrArg Enclosure.angle passes.foldl_eq
  rw [count]
  exact passes

/-- The first segment starts with the first argument. -/
theorem exists_segments_append (bracketed : Text.Bracketed false text) (rest : Text) :
    ∃ more others, segments (text ++ rest) = (text ++ more) :: others := by
  rw [segments, (passes_openAngles bracketed).segmentsFrom]
  exact ⟨_, _, rfl⟩

/-- An argument that leaves a bracket open goes on behind its comma. -/
theorem exists_segments_merged (bracketed : Text.Bracketed false text)
    (left : openAngles text ≠ 0) (rest : Text) :
    ∃ more others, segments (text ++ ',' :: rest) = (text ++ ',' :: more) :: others := by
  have inside : ¬ ((',' : Char) = ',' ∧
      (Enclosure.within 0 (openAngles text)).isOutermost = true) := by
    simp [Enclosure.isOutermost, left]
  rw [segments, (passes_openAngles bracketed).segmentsFrom, segmentsFrom, if_neg inside]
  exact ⟨_, _, rfl⟩

/-- **The segments** of arguments with commas between them are these, if none but the last one
leaves a bracket open. -/
theorem segments_join_bracketed {parts : List Text}
    (bracketed : ∀ part ∈ parts, Text.Bracketed false part) (filled : parts ≠ [])
    (shut : ∀ part ∈ parts.dropLast, openAngles part = 0) :
    segments (Text.join [','] parts) = parts := by
  have passes : ∀ part ∈ parts,
      Enclosure.outermost.Passes part (.within 0 (openAngles part)) :=
    fun part member => passes_openAngles (bracketed part member)
  refine segments_join_of_passes filled (fun part member => ⟨_, passes part member⟩)
    fun part member => ?_
  have passed := passes part (List.dropLast_subset _ member)
  rwa [shut part member] at passed

end Excerpt

/-! ### Arguments -/

/-- A text that goes on behind a comma is not that text, blanks aside. -/
theorem Text.trim_append_comma_ne {text : Text} (filled : text.trim ≠ []) (more : Text) :
    (text ++ ',' :: more).trim ≠ text.trim := by
  have notBlank : ¬ ∀ char ∈ text, isBlank char = true := fun blank =>
    filled (trim_eq_nil_iff.mpr blank)
  have start : trimStart (text ++ ',' :: more) = trimStart text ++ ',' :: more := by
    rw [trimStart, trimStart, List.dropWhile_append, if_neg]
    rw [List.isEmpty_iff, List.dropWhile_eq_nil_iff]
    exact notBlank
  intro same
  rw [trim, trim, start] at same
  obtain ⟨trail, split, blank, -⟩ := dropEndWhile_eq_iff.mp same
  have cut : trimEnd text.trimStart ++
      ((text.trimStart.reverse.takeWhile isBlank).reverse ++ ',' :: more) =
      trimEnd text.trimStart ++ trail := by
    rw [← List.append_assoc, trimEnd_append, split]
  have comma : ',' ∈ trail := by
    rw [← List.append_cancel_left cut]
    exact List.mem_append_right _ List.mem_cons_self
  exact absurd (blank ',' comma) (by decide)

/-- An argument that is there is what is left of it without blanks at its ends. -/
theorem argument?_zero {first : Text} (filled : first.trim ≠ []) (others : List Text) :
    argument? (first :: others) 0 = some first.trim := by
  simp [argument?, filled]

theorem Text.trim_append_ne_nil {text : Text} (filled : text.trim ≠ []) (more : Text) :
    (text ++ more).trim ≠ [] := by
  rw [Ne, trim_eq_nil_iff] at *
  exact fun blank => filled fun char member => blank char (List.mem_append_left _ member)

section Bracketed

variable {parts : List Text} (bracketed : ∀ part ∈ parts, Text.Bracketed false part)
  (filled : ∀ part ∈ parts, part.trim ≠ [])

include bracketed filled

/-- The first argument that leaves a bracket open is not the one at its position. -/
theorem exists_argument?_ne (notShut : ¬ ∀ part ∈ parts.dropLast, Excerpt.openAngles part = 0) :
    ∃ index part merged, parts[index]? = some part ∧
      argument? (Excerpt.segments (Text.join [','] parts)) index = some merged ∧
        merged ≠ part.trim := by
  induction parts with
  | nil => exact absurd nofun notShut
  | cons first others ih =>
    obtain ⟨firstBracketed, othersBracketed⟩ := List.forall_mem_cons.mp bracketed
    obtain ⟨firstFilled, othersFilled⟩ := List.forall_mem_cons.mp filled
    cases others with
    | nil => exact absurd nofun notShut
    | cons second others =>
      rw [List.dropLast_cons_cons, List.forall_mem_cons] at notShut
      rw [Text.join, List.intercalate_cons_cons, List.append_assoc, List.singleton_append,
        ← Text.join]
      by_cases left : Excerpt.openAngles first = 0
      · have passes := Excerpt.passes_openAngles firstBracketed
        rw [left] at passes
        obtain ⟨index, part, merged, isPart, found, other⟩ :=
          ih othersBracketed othersFilled fun shut => notShut ⟨left, shut⟩
        refine ⟨index + 1, part, merged, isPart, ?_, other⟩
        rw [Excerpt.segments_append passes]
        exact found
      · obtain ⟨more, rest, merged⟩ := Excerpt.exists_segments_merged firstBracketed left
          (Text.join [','] (second :: others))
        refine ⟨0, first, _, rfl, ?_, Text.trim_append_comma_ne firstFilled more⟩
        rw [merged, argument?_zero (Text.trim_append_ne_nil firstFilled _)]

/-- The first argument is never missing. -/
theorem argument?_zero_ne_none (nonempty : parts ≠ []) :
    argument? (Excerpt.segments (Text.join [','] parts)) 0 ≠ none := by
  obtain ⟨first, others, rfl⟩ := List.exists_cons_of_ne_nil nonempty
  have begins : ∃ rest, Text.join [','] (first :: others) = first ++ rest := by
    cases others with
    | nil => exact ⟨[], by rw [Text.join, List.intercalate_singleton, List.append_nil]⟩
    | cons second others =>
      exact ⟨_, by rw [Text.join, List.intercalate_cons_cons, List.append_assoc]⟩
  obtain ⟨rest, split⟩ := begins
  obtain ⟨more, later, segments⟩ :=
    Excerpt.exists_segments_append (bracketed first List.mem_cons_self) rest
  rw [split, segments,
    argument?_zero (Text.trim_append_ne_nil (filled first List.mem_cons_self) more)]
  exact Option.some_ne_none _

end Bracketed

/-! ### Members -/

namespace Extractor

variable {extractor : Extractor} {keyword tail blanks : Text} {type : MacroType}
  {arguments : List Text}

/-- The property of a member with a macro is made of the segments between the parentheses. -/
theorem result_property_of_segments (built : extractor.registry.IsBuilt)
    (known : extractor.registry.lookup keyword = some type)
    (bracketed : Text.Bracketed true (Text.join [','] arguments))
    (filled : type.IsFilledBy (Excerpt.segments (Text.join [','] arguments)))
    (blank : ∀ char ∈ blanks, Text.isBlank char = true)
    (unmarked : ¬ Excerpt.attributeMarker <:+: tail) (name : Text) (ordinal : Int) (offset : Nat) :
    (extractor.property ⟨name, ordinal,
      some ⟨blanks ++ (Text.invocation keyword arguments ++ tail), offset⟩⟩).result =
        .ok (Property.ofMacro name ordinal keyword type
          (Excerpt.segments (Text.join [','] arguments)) tail) := by
  obtain ⟨isWord, isMacro⟩ := MacroRegistry.isIdentifier_of_lookup built known
  have joined := Excerpt.segments_join (Text.join [','] arguments)
  have written : Text.invocation keyword arguments =
      Text.invocation keyword (Excerpt.segments (Text.join [','] arguments)) := by
    rw [Text.invocation, Text.invocation, joined]
  have stops : Tag.Stops Text.isBlank (Text.invocation keyword arguments ++ tail) := by
    rw [Text.invocation, List.append_assoc]
    exact Text.stops_of_isIdentifier isWord _
  obtain ⟨invocation, -, gives, place, applied⟩ := result_applyMacro_of_bracketed isWord known
    (joined.symm ▸ bracketed) (fun _ => congrArg Excerpt.segments joined) tail
    (offset + blanks.size) (.plain name ordinal)
  rw [Invocation.fill_of_filled gives isMacro filled, ← written] at applied
  have read : Remark.ofExcerpt ⟨tail, place⟩ = .ok ⟨Remark.piece? tail, []⟩ :=
    Excerpt.IsUnmarked.ofExcerpt unmarked
  show (extractor.annotate _ _).result = _
  rw [annotate, Excerpt.skipBlanks_append blank stops, Outcome.result_bind, applied]
  show (Outcome.lift (Remark.ofExcerpt ⟨tail, place⟩) >>= fun remark =>
    remark.applyToMember _).result = _
  have said : Property.ofMacro name ordinal keyword type
      (Excerpt.segments (Text.join [','] arguments)) tail =
      { Property.ofMacro name ordinal keyword type
          (Excerpt.segments (Text.join [','] arguments)) [] with
        rawCommand := Remark.rawCommand ⟨Remark.piece? tail, []⟩ } := by
    rw [rawCommand_piece?]
    rfl
  rw [read, said]
  rfl

/-- The arguments of a validated macro have these parts, and one of them has to be there. -/
theorem argumentFor?_of_isValidated (validated : type.isValidated = true) :
    (∀ part index, [ArgumentPart.type1, .name, .default, .validate].idxOf? part = some index →
      ∀ arguments, type.argumentFor? arguments part = argument? arguments index) ∧
      type.requiredSlots.length = 1 := by
  have parts : type.parts = [.type1, .name, .default, .validate] ∧
      type.requiredSlots.length = 1 := by
    cases type <;> cases validated <;> exact ⟨rfl, rfl⟩
  refine ⟨fun part index found arguments => ?_, parts.2⟩
  rw [MacroType.argumentFor?, parts.1, found]
  rfl

/-- **Operators in the arguments of a validated macro**. Each of the four arguments is not blank,
its quotes and its brackets other than angle brackets are in pairs, and its commas are in such pairs.
The type, the name, the default and the validation of the property are the four arguments, trimmed,
exactly if none of the first three leaves an angle bracket open. -/
theorem result_property_of_operators {first second third fourth : Text}
    (built : extractor.registry.IsBuilt) (known : extractor.registry.lookup keyword = some type)
    (validated : type.isValidated = true)
    (bracketed : ∀ argument ∈ [first, second, third, fourth], Text.Bracketed false argument)
    (filled : ∀ argument ∈ [first, second, third, fourth], argument.trim ≠ [])
    (blank : ∀ char ∈ blanks, Text.isBlank char = true)
    (unmarked : ¬ Excerpt.attributeMarker <:+: tail) (name : Text) (ordinal : Int) (offset : Nat) :
    ∃ property, (extractor.property ⟨name, ordinal, some ⟨blanks ++
        (Text.invocation keyword [first, second, third, fourth] ++ tail), offset⟩⟩).result =
        .ok property ∧
      ((property.type1 = first.trim ∧ property.propertyName = second.trim ∧
          property.defaultValue = third.trim ∧ property.validate = some fourth.trim) ↔
        ∀ argument ∈ [first, second, third], Excerpt.openAngles argument = 0) := by
  obtain ⟨slots, required⟩ := argumentFor?_of_isValidated validated
  have needed : type.IsFilledBy
      (Excerpt.segments (Text.join [','] [first, second, third, fourth])) := by
    intro index below
    rw [required, Nat.lt_one_iff] at below
    rw [below]
    exact argument?_zero_ne_none bracketed filled (List.cons_ne_nil _ _)
  refine ⟨_, result_property_of_segments built known
    (.join fun argument member => (bracketed argument member).withCommas) needed blank unmarked
    name ordinal offset, ?_⟩
  simp only [Property.ofMacro, slots .type1 0 rfl, slots .name 1 rfl, slots .default 2 rfl,
    slots .validate 3 rfl]
  constructor
  · rintro ⟨type1, propertyName, defaultValue, validate⟩
    by_contra notShut
    obtain ⟨index, part, merged, isPart, found, other⟩ :=
      exists_argument?_ne bracketed filled notShut
    match index with
    | 0 =>
      cases isPart
      rw [found] at type1
      exact other type1
    | 1 =>
      cases isPart
      rw [found] at propertyName
      exact other propertyName
    | 2 =>
      cases isPart
      rw [found] at defaultValue
      exact other defaultValue
    | 3 =>
      cases isPart
      rw [found] at validate
      exact other (Option.some.inj validate)
  · intro shut
    rw [Excerpt.segments_join_bracketed bracketed (List.cons_ne_nil _ _) shut]
    simp only [List.forall_mem_cons] at filled
    simp [argument?, Option.filter, filled]

/-- An arrow and a comparison that leave nothing open, and a shift in the last argument. -/
theorem result_property_of_operators_shift : ∃ property,
    (standard.property ⟨"Age".toList, 0, some ⟨" ".toList ++
        (Text.invocation "GETSET_VALIDATE".toList ["int".toList, " Age".toList,
          " p->q >= f(a, b)".toList, " value < max << 1".toList] ++ []), 20⟩⟩).result =
        .ok property ∧
      property.defaultValue = "p->q >= f(a, b)".toList ∧
      property.validate = some "value < max << 1".toList := by
  have called : Text.Bracketed false " p->q >= f(a, b)".toList :=
    (Text.Bracketed.of_forall (by decide : " p->q >= f".toList.Forall Text.IsOrdinary)).append
      (.group rfl ((Text.Bracketed.of_forall
        (by decide : "a".toList.Forall Text.IsOrdinary)).append (.comma
          (.of_forall (by decide : " b".toList.Forall Text.IsOrdinary)))) (.nil false))
  have bracketed : ∀ argument ∈ ["int".toList, " Age".toList, " p->q >= f(a, b)".toList,
      " value < max << 1".toList], Text.Bracketed false argument := by
    simp only [List.forall_mem_cons]
    exact ⟨.of_forall (by decide), .of_forall (by decide), called, .of_forall (by decide), nofun⟩
  have known : standard.registry.lookup "GETSET_VALIDATE".toList = some .validatedReadWrite := by
    decide +kernel
  have blank : ∀ char ∈ " ".toList, Text.isBlank char = true := List.forall_mem_singleton.mpr rfl
  obtain ⟨property, described, slots⟩ := result_property_of_operators
    MacroRegistry.isBuilt_standard known rfl bracketed (by decide) blank
    (by decide : ¬ Excerpt.attributeMarker <:+: ([] : Text)) "Age".toList 0 20
  obtain ⟨-, -, default, validate⟩ := slots.mpr (by decide)
  exact ⟨property, described, default, validate⟩

/-- After a comparison that leaves a bracket open there is no validation. -/
theorem result_property_of_comparison : ∃ (arguments : List Text) (property : Property),
    arguments = ["int".toList, " Age".toList, " a < b".toList, " value >= 0".toList] ∧
    (∀ argument ∈ arguments, Text.Bracketed false argument ∧ argument.trim ≠ []) ∧
    (standard.property ⟨"Age".toList, 0, some ⟨" ".toList ++
        (Text.invocation "GETSET_VALIDATE".toList arguments ++ []), 20⟩⟩).result = .ok property ∧
    property.defaultValue = "a < b, value >= 0".toList ∧ property.validate = none := by
  have bracketed : ∀ argument ∈ ["int".toList, " Age".toList, " a < b".toList,
      " value >= 0".toList], Text.Bracketed false argument := by
    simp only [List.forall_mem_cons]
    exact ⟨.of_forall (by decide), .of_forall (by decide), .of_forall (by decide),
      .of_forall (by decide), nofun⟩
  have filled : ∀ argument ∈ ["int".toList, " Age".toList, " a < b".toList,
      " value >= 0".toList], Text.trim argument ≠ [] := by decide
  have known : standard.registry.lookup "GETSET_VALIDATE".toList = some .validatedReadWrite := by
    decide +kernel
  have blank : ∀ char ∈ " ".toList, Text.isBlank char = true := List.forall_mem_singleton.mpr rfl
  have described := result_property_of_segments MacroRegistry.isBuilt_standard known
    (.join fun argument member => (bracketed argument member).withCommas) (by decide +kernel) blank
    (by decide : ¬ Excerpt.attributeMarker <:+: ([] : Text)) "Age".toList 0 20
  exact ⟨_, _, rfl, fun argument member => ⟨bracketed argument member, filled argument member⟩,
    described, by decide +kernel, by decide +kernel⟩

end Extractor

end Scaffold
