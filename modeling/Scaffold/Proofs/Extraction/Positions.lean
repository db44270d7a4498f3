/-
**The arguments of a macro, by position.**

What each argument of a macro is for is a table of the macro types (`MacroType.parts`), and so is
which of them have to be there (`MacroType.requiredSlots`). A member whose comment invokes a macro
with closed arguments has these arguments in its property, trimmed, each one in the part that its
position stands for; a blank argument counts as a missing one (`Property.ofMacro`).

* `gives_of_segments`: the arguments of an invocation are the segments between its parentheses;
* `fill_of_filled`, `fill_of_missing`: what is made of them;
* `result_property_of_invocation`: what the property of the member is.
-/

import Scaffold.Proofs.Extraction.Closed
import Scaffold.Proofs.Extraction.Excerpts
import Scaffold.Proofs.Text.Trimming

namespace Scaffold

/-! ### Tables -/

/-- What an argument of a macro is for. -/
inductive ArgumentPart where
  | type1
  | type2
  | name
  | default
  | validate
  deriving DecidableEq

/-- What the arguments of a macro are for, in their order. -/
def MacroType.parts : MacroType → List ArgumentPart
  | noMacro => []
  | scalarReadOnly | scalarReadWrite | objectReadOnly | objectReadWrite => [.type1, .name, .default]
  | validatedReadOnly | validatedReadWrite => [.type1, .name, .default, .validate]
  | vector | vectorObject | set | setObject => [.type1, .name, .default]
  | map | mapObject | orderedMap | orderedMapObject => [.type1, .type2, .name, .default]
  | manager => [.type1, .name]
  | action | actionWithArgument => [.name, .type1]

/-- Whether the arguments after these initialise an object. -/
def MacroType.initializes : MacroType → Bool
  | objectReadOnly | objectReadWrite | manager => true
  | _ => false

/-- What the arguments that have to be there are called. -/
def MacroType.requiredSlots : MacroType → List Slot
  | noMacro => []
  | scalarReadOnly | scalarReadWrite | validatedReadOnly | validatedReadWrite | objectReadOnly
  | objectReadWrite => [.type]
  | vector | vectorObject | set | setObject => [.elementType]
  | map | mapObject | orderedMap | orderedMapObject => [.elementType, .valueType]
  | manager => [.managerType]
  | action | actionWithArgument => [.propertyName]

/-- The argument at a position, trimmed; nothing if it is missing or blank. -/
def argument? (arguments : List Text) (index : Nat) : Option Text :=
  (arguments[index]?.map Text.trim).filter (· ≠ [])

/-- The argument that is for a part. -/
def MacroType.argumentFor? (type : MacroType) (arguments : List Text) (part : ArgumentPart) :
    Option Text :=
  (type.parts.idxOf? part).bind (argument? arguments)

/-- The arguments that have to be there are. -/
def MacroType.IsFilledBy (type : MacroType) (arguments : List Text) : Prop :=
  ∀ index < type.requiredSlots.length, argument? arguments index ≠ none

instance (type : MacroType) (arguments : List Text) : Decidable (type.IsFilledBy arguments) := by
  unfold MacroType.IsFilledBy
  infer_instance

/-- A macro invocation as it is written. -/
def Text.invocation (keyword : Text) (arguments : List Text) : Text :=
  keyword ++ '(' :: (Text.join [','] arguments ++ [')'])

/-- The property of a member with a macro and free text after it. -/
def Property.ofMacro (name : Text) (ordinal : Int) (keyword : Text) (type : MacroType)
    (arguments : List Text) (text : Text) : Property :=
  { Property.plain name ordinal with
    rawMacro := Text.invocation keyword arguments
    macroType := type
    type1 := (type.argumentFor? arguments .type1).getD []
    type2 := (type.argumentFor? arguments .type2).getD []
    propertyName := (type.argumentFor? arguments .name).getD name
    defaultValue := (type.argumentFor? arguments .default).getD []
    validate := type.argumentFor? arguments .validate
    initializeArguments :=
      if type.initializes then (arguments.drop type.parts.length).map Text.trim else []
    rawCommand := text.trim }

/-! ### Invocations -/

namespace Invocation

variable {invocation : Invocation} {arguments : List Text} {type : MacroType}

/-- The invocation has these arguments. -/
structure Gives (invocation : Invocation) (arguments : List Text) : Prop where
  slot : ∀ index, invocation.slot? index = argument? arguments index
  rest : ∀ start, 0 < start → invocation.rest start = (arguments.drop start).map Text.trim

theorem map_text_placed (offset : Nat) (segments : List Text) :
    (Excerpt.placed offset segments).map Excerpt.text = segments.map Text.trim := by
  induction segments generalizing offset with
  | nil => rfl
  | cons segment rest ih => rw [Excerpt.placed, List.map_cons, List.map_cons, ih]

/-- There is no comma in a blank text. -/
theorem eq_nil_or_singleton_of_blank (blank : (Text.join [','] arguments).trim = []) :
    arguments = [] ∨ ∃ only, arguments = [only] ∧ only.trim = [] := by
  match arguments with
  | [] => exact Or.inl rfl
  | [only] =>
    rw [Text.join, List.intercalate_singleton] at blank
    exact Or.inr ⟨only, rfl, blank⟩
  | first :: second :: others =>
    rw [Text.join, List.intercalate_cons_cons, Text.trim_eq_nil_iff] at blank
    exact absurd (blank ',' (by simp)) (by decide)

/-- **The arguments of an invocation** are the segments between its parentheses. -/
theorem gives_of_segments
    (parts : arguments ≠ [] → Excerpt.segments (Text.join [','] arguments) = arguments)
    (keyword : Text) (offset : Nat) :
    (ofGroup keyword ('(' :: (Text.join [','] arguments ++ [')'])) offset).Gives arguments := by
  have inner : (('(' :: (Text.join [','] arguments ++ [')'])).drop 1).dropLast =
      Text.join [','] arguments := by
    rw [List.drop_one, List.tail_cons, List.dropLast_concat]
  have listed : (ofGroup keyword ('(' :: (Text.join [','] arguments ++ [')'])) offset).arguments =
      Excerpt.arguments ⟨Text.join [','] arguments, offset + 1⟩ := by
    rw [ofGroup, inner]
  by_cases blank : (Text.join [','] arguments).trim = []
  · have none : Excerpt.arguments ⟨Text.join [','] arguments, offset + 1⟩ = [] := if_pos blank
    rcases eq_nil_or_singleton_of_blank blank with rfl | ⟨only, rfl, trimmed⟩
    · refine ⟨fun index => ?_, fun start _ => ?_⟩
      · simp [slot?, listed, none, argument?]
      · simp [rest, listed, none]
    · refine ⟨fun index => ?_, fun start later => ?_⟩
      · cases index <;> simp [slot?, listed, none, argument?, trimmed, Option.filter]
      · obtain ⟨before, rfl⟩ := Nat.exists_eq_add_one_of_ne_zero (Nat.ne_of_gt later)
        simp [rest, listed, none]
  · have filled : arguments ≠ [] := by
      rintro rfl
      exact blank rfl
    have found : (Excerpt.arguments ⟨Text.join [','] arguments, offset + 1⟩).map Excerpt.text =
        arguments.map Text.trim := by
      rw [Excerpt.arguments]
      dsimp only
      rw [if_neg blank, map_text_placed, parts filled]
    refine ⟨fun index => ?_, fun start _ => ?_⟩
    · rw [slot?, listed, ← List.getElem?_map, found, List.getElem?_map, argument?]
    · rw [rest, listed, List.map_drop, found, List.map_drop]

theorem required_of_slot? {index : Nat} {text : Text} (slot : Slot)
    (found : invocation.slot? index = some text) : invocation.required index slot = .ok text := by
  rw [required, found]

/-- A missing argument is complained about. -/
theorem required_of_none {index : Nat} (slot : Slot) (missing : invocation.slot? index = none) :
    ∃ offset, invocation.required index slot =
      .error (.malformed (.missingArgument invocation.keyword slot (index == 0)) offset) := by
  rw [required, missing]
  exact ⟨_, rfl⟩

/-- **Arguments go where their positions say**, if those are there that have to be. -/
theorem fill_of_filled (gives : invocation.Gives arguments) (isMacro : type ≠ .noMacro)
    (filled : type.IsFilledBy arguments) (name : Text) (ordinal : Int) (keyword : Text) :
    invocation.fill type { Property.plain name ordinal with
        rawMacro := Text.invocation keyword arguments, macroType := type } =
      .ok (Property.ofMacro name ordinal keyword type arguments []) := by
  have present : ∀ default index slot, index < type.requiredSlots.length →
      invocation.required index slot = .ok ((argument? arguments index).getD default) := by
    intro default index slot needed
    obtain ⟨text, found⟩ := Option.ne_none_iff_exists'.mp (filled index needed)
    rw [required_of_slot? slot ((gives.slot index).trans found), found]
    rfl
  cases type
  case noMacro => exact absurd rfl isMacro
  case action | actionWithArgument =>
    rw [fill, MacroType.category]
    simp (disch := decide) only [fillAction, present name, optional, gives.slot]
    rfl
  all_goals
    simp (disch := decide) only [fill, MacroType.category, fillScalar, fillCollection,
      fillManager, MacroType.isMap, MacroType.isValidated, MacroType.isObject,
      present [], nameOr, optional, gives.slot, gives.rest, if_true, if_false, Bool.false_eq_true]
    rfl

/-- **The first argument that is missing** of those that have to be there is complained about. -/
theorem fill_of_missing (gives : invocation.Gives arguments) {index : Nat} {slot : Slot}
    (needed : type.requiredSlots[index]? = some slot) (missing : argument? arguments index = none)
    (before : ∀ earlier < index, argument? arguments earlier ≠ none) (property : Property) :
    ∃ offset, invocation.fill type property =
      .error (.malformed (.missingArgument invocation.keyword slot (index == 0)) offset) := by
  obtain ⟨offset, failed⟩ := required_of_none slot ((gives.slot index).trans missing)
  refine ⟨offset, ?_⟩
  match index with
  | 0 =>
    cases type <;> cases needed
    all_goals
      simp only [fill, MacroType.category, fillScalar, fillCollection, fillManager, fillAction,
        failed]
      rfl
  | 1 =>
    obtain ⟨text, found⟩ := Option.ne_none_iff_exists'.mp (before 0 Nat.zero_lt_one)
    have first := required_of_slot? .elementType ((gives.slot 0).trans found)
    cases type <;> cases needed
    all_goals
      simp only [fill, MacroType.category, fillCollection, MacroType.isMap, if_true, first, failed]
      rfl
  | index + 2 => cases type <;> cases needed

end Invocation

/-! ### Registries -/

namespace MacroRegistry

variable {registry result : MacroRegistry} {keyword : Text} {type : MacroType}

/-- The registry was made from a list of keywords. -/
def IsBuilt (registry : MacroRegistry) : Prop := ∃ keywords, ofKeywords keywords = .ok registry

theorem isBuilt_standard : standard.IsBuilt := ⟨standardKeywords, rfl⟩

theorem classify_of_insertAll {keywords : List Text}
    (known : ∀ keyword type, registry.lookup keyword = some type → classify keyword = .ok type)
    (done : registry.insertAll keywords = .ok result) :
    ∀ keyword type, result.lookup keyword = some type → classify keyword = .ok type := by
  induction keywords generalizing registry with
  | nil =>
    cases done
    exact known
  | cons first rest ih =>
    unfold insertAll at done
    split at done
    · rename_i type classified
      refine ih (fun other found looked => ?_) done
      rw [lookup, insert, Keyed.get?_insert] at looked
      split at looked
      · rename_i same
        cases looked
        rw [same]
        exact classified
      · exact known other found looked
    · cases done

/-- **A keyword that is registered** could be, with its type. -/
theorem classify_of_lookup (built : registry.IsBuilt)
    (known : registry.lookup keyword = some type) : classify keyword = .ok type := by
  obtain ⟨keywords, done⟩ := built
  have none : ∀ keyword type, empty.lookup keyword = some type → classify keyword = .ok type :=
    nofun
  exact classify_of_insertAll none done keyword type known

/-- A registered keyword is an identifier, and it stands for a macro. -/
theorem isIdentifier_of_lookup (built : registry.IsBuilt)
    (known : registry.lookup keyword = some type) :
    Text.isIdentifier keyword = true ∧ type ≠ .noMacro := by
  have classified := classify_of_lookup built known
  unfold classify at classified
  split at classified
  · rename_i isWord
    refine ⟨isWord, ?_⟩
    rintro rfl
    split at classified
    · rename_i found
      cases classified
      obtain ⟨family, -, same⟩ := Option.map_eq_some_iff.mp found
      revert same
      cases family <;> grind
    · cases classified
  · cases classified

end MacroRegistry

/-! ### Members -/

namespace Extractor

variable {extractor : Extractor} {keyword tail : Text} {type : MacroType} {arguments : List Text}

/-- An invocation is taken off a comment, and its arguments are put into the property. -/
theorem result_applyMacro_of_bracketed (isWord : Text.isIdentifier keyword = true)
    (known : extractor.registry.lookup keyword = some type)
    (bracketed : Text.Bracketed true (Text.join [','] arguments))
    (parts : arguments ≠ [] → Excerpt.segments (Text.join [','] arguments) = arguments)
    (tail : Text) (offset : Nat) (property : Property) :
    ∃ invocation : Invocation, invocation.keyword = keyword ∧ invocation.Gives arguments ∧
      ∃ place, (extractor.applyMacro ⟨Text.invocation keyword arguments ++ tail, offset⟩
          property).result =
        (invocation.fill type { property with
          rawMacro := Text.invocation keyword arguments, macroType := type }).map
          fun filled => (filled, ⟨tail, place⟩) := by
  have split : Text.invocation keyword arguments ++ tail =
      keyword ++ '(' :: (Text.join [','] arguments ++ ')' :: tail) := by
    rw [Text.invocation, List.append_assoc, List.cons_append, List.append_assoc,
      List.singleton_append]
  have invoked : extractor.invoked? ⟨Text.invocation keyword arguments ++ tail, offset⟩ =
      some (keyword, type) := by
    rw [split, invoked?, Excerpt.leading_append isWord]
    dsimp only
    rw [known]
    rfl
  obtain ⟨place, grouped⟩ : ∃ place, Invocation.group keyword
      ⟨'(' :: (Text.join [','] arguments ++ ')' :: tail), offset + keyword.size⟩ =
      .ok ('(' :: (Text.join [','] arguments ++ [')']), ⟨tail, place⟩) := by
    have found := Excerpt.groupFrom_of_isNeutral (Excerpt.Nesting.isNeutral_bracketed bracketed)
      (rfl : Excerpt.closerOf? '(' = some ')') (by decide) (by decide) tail
    rw [Invocation.group, Excerpt.balanced?, Invocation.quotes, found]
    exact ⟨_, rfl⟩
  refine ⟨.ofGroup keyword ('(' :: (Text.join [','] arguments ++ [')'])) (offset + keyword.size),
    rfl, Invocation.gives_of_segments parts keyword _, place, ?_⟩
  rw [applyMacro, invoked]
  dsimp only
  rw [split, List.drop_left, Excerpt.skip, applyInvocation]
  simp only [grouped, Outcome.result_bind, Outcome.result_lift, Outcome.result_reportIf,
    Outcome.result_pure]
  show Except.bind (.ok _) _ = _
  rw [Except.bind, ← Text.invocation]
  dsimp only
  cases Invocation.fill _ type { property with
    rawMacro := Text.invocation keyword arguments, macroType := type } <;> rfl

/-- So it is if the arguments are closed: these are the segments. -/
theorem result_applyMacro (isWord : Text.isIdentifier keyword = true)
    (known : extractor.registry.lookup keyword = some type)
    (closed : ∀ argument ∈ arguments, Text.Closed false argument) (tail : Text) (offset : Nat)
    (property : Property) :
    ∃ invocation : Invocation, invocation.keyword = keyword ∧ invocation.Gives arguments ∧
      ∃ place, (extractor.applyMacro ⟨Text.invocation keyword arguments ++ tail, offset⟩
          property).result =
        (invocation.fill type { property with
          rawMacro := Text.invocation keyword arguments, macroType := type }).map
          fun filled => (filled, ⟨tail, place⟩) :=
  result_applyMacro_of_bracketed isWord known
    (.join fun argument member => (closed argument member).bracketed)
    (Excerpt.segments_join_closed closed) tail offset property

/-- What a comment says without attributes is all of it. -/
theorem rawCommand_piece? (text : Text) :
    Remark.rawCommand ⟨Remark.piece? text, []⟩ = text.trim := by
  rw [Remark.rawCommand, Remark.piece?]
  by_cases blank : text.trim = []
  · rw [if_pos blank, blank]
    rfl
  · rw [if_neg blank]
    exact List.append_nil _

/-- **The property of a member with a macro**. The comment of the member is blanks, a registered
keyword with closed arguments in parentheses after it, and free text without a marker. If every
argument is there that has to be, the property holds the invocation as it is written, the type of the
macro, the arguments in the parts that their positions stand for, and the free text. Otherwise the
first argument that is missing is named. -/
theorem result_property_of_invocation {blanks : Text} (built : extractor.registry.IsBuilt)
    (known : extractor.registry.lookup keyword = some type)
    (closed : ∀ argument ∈ arguments, Text.Closed false argument)
    (blank : ∀ char ∈ blanks, Text.isBlank char = true)
    (unmarked : ¬ Excerpt.attributeMarker <:+: tail) (name : Text) (ordinal : Int) (offset : Nat) :
    let described := (extractor.property ⟨name, ordinal,
      some ⟨blanks ++ (Text.invocation keyword arguments ++ tail), offset⟩⟩).result
    (type.IsFilledBy arguments →
        described = .ok (Property.ofMacro name ordinal keyword type arguments tail)) ∧
      ∀ index slot, type.requiredSlots[index]? = some slot → argument? arguments index = none →
        (∀ earlier < index, argument? arguments earlier ≠ none) →
        ∃ place, described =
          .error (.malformed (.missingArgument keyword slot (index == 0)) place) := by
  obtain ⟨isWord, isMacro⟩ := MacroRegistry.isIdentifier_of_lookup built known
  intro described
  have stops : Tag.Stops Text.isBlank (Text.invocation keyword arguments ++ tail) := by
    rw [Text.invocation, List.append_assoc]
    exact Text.stops_of_isIdentifier isWord _
  obtain ⟨invocation, named, gives, place, applied⟩ := result_applyMacro isWord known closed tail
    (offset + blanks.size) (.plain name ordinal)
  have read : Remark.ofExcerpt ⟨tail, place⟩ = .ok ⟨Remark.piece? tail, []⟩ :=
    Excerpt.IsUnmarked.ofExcerpt unmarked
  have whole : described = (invocation.fill type { Property.plain name ordinal with
      rawMacro := Text.invocation keyword arguments, macroType := type }).map
      fun filled => { filled with rawCommand := tail.trim } := by
    show (extractor.annotate _ _).result = _
    rw [annotate, Excerpt.skipBlanks_append blank stops, Outcome.result_bind, applied]
    cases invocation.fill type { Property.plain name ordinal with
        rawMacro := Text.invocation keyword arguments, macroType := type } with
    | error defect => rfl
    | ok filled =>
      show (Outcome.lift (Remark.ofExcerpt ⟨tail, place⟩) >>= fun remark =>
        remark.applyToMember filled).result = _
      rw [read, ← rawCommand_piece? tail]
      rfl
  refine ⟨fun filled => ?_, fun index slot needed missing before => ?_⟩
  · rw [whole, Invocation.fill_of_filled gives isMacro filled]
    rfl
  · obtain ⟨where', failed⟩ := Invocation.fill_of_missing gives needed missing before
      { Property.plain name ordinal with
        rawMacro := Text.invocation keyword arguments, macroType := type }
    rw [whole, failed, named]
    exact ⟨where', rfl⟩

/-- Commas in angle brackets, in braces and in a literal, a blank name and two arguments more; and the
same arguments where a map has no value type. -/
theorem result_property_of_invocation_nested : ∃ arguments tail,
    arguments = ["std::map<int, int>".toList, " ".toList, "L\"a, )\"".toList, "\x7b1, 2\x7d".toList,
      " f('\\'')".toList] ∧ tail = " the title ".toList ∧
    MacroRegistry.standard.IsBuilt ∧
    MacroRegistry.standard.lookup "GETSET_SPTR".toList = some .objectReadWrite ∧
    MacroRegistry.standard.lookup "MAP".toList = some .map ∧
    (∀ argument ∈ arguments, Text.Closed false argument) ∧
    (¬ Excerpt.attributeMarker <:+: tail) ∧ MacroType.objectReadWrite.IsFilledBy arguments ∧
    (standard.property ⟨"Title".toList, 4, some ⟨" ".toList ++
        (Text.invocation "GETSET_SPTR".toList arguments ++ tail), 20⟩⟩).result =
      .ok (Property.ofMacro "Title".toList 4 "GETSET_SPTR".toList .objectReadWrite arguments tail) ∧
    (Property.ofMacro "Title".toList 4 "GETSET_SPTR".toList .objectReadWrite arguments
        tail).initializeArguments = ["\x7b1, 2\x7d".toList, "f('\\'')".toList] ∧
    ∃ place, (standard.property ⟨"Title".toList, 4, some ⟨" ".toList ++
        (Text.invocation "MAP".toList arguments ++ tail), 20⟩⟩).result =
      .error (.malformed (.missingArgument "MAP".toList .valueType false) place) := by
  have nested : Text.Closed false "std::map<int, int>".toList :=
    (Text.Closed.of_forall (by decide : "std::map".toList.Forall Text.IsPlain)).append
      (.group .angle ((Text.Closed.of_forall (by decide : "int".toList.Forall Text.IsPlain)).append
        (.comma (.of_forall (by decide : " int".toList.Forall Text.IsPlain)))) (.nil false))
  have quoted : Text.Closed false "L\"a, )\"".toList :=
    .plain (by decide) (.literal (Or.inl rfl) (.char (by decide) (by decide)
      (.char (by decide) (by decide) (.char (by decide) (by decide)
        (.char (by decide) (by decide) .ended)))) (.nil false))
  have listed : Text.Closed false "\x7b1, 2\x7d".toList :=
    .group .curly (.plain (by decide) (.comma
      (.of_forall (by decide : " 2".toList.Forall Text.IsPlain)))) (.nil false)
  have called : Text.Closed false " f('\\'')".toList :=
    .plain (by decide) (.plain (by decide) (.group .parentheses
      (.literal (Or.inr rfl) (.escaped _ .ended) (.nil true)) (.nil false)))
  have closed : ∀ argument ∈ ["std::map<int, int>".toList, " ".toList, "L\"a, )\"".toList,
      "\x7b1, 2\x7d".toList, " f('\\'')".toList], Text.Closed false argument := by
    simp only [List.forall_mem_cons]
    exact ⟨nested, .of_forall (by decide), quoted, listed, called, nofun⟩
  have unmarked : ¬ Excerpt.attributeMarker <:+: " the title ".toList := by decide
  have blank : ∀ char ∈ " ".toList, Text.isBlank char = true := List.forall_mem_singleton.mpr rfl
  have filled : MacroType.objectReadWrite.IsFilledBy ["std::map<int, int>".toList, " ".toList,
      "L\"a, )\"".toList, "\x7b1, 2\x7d".toList, " f('\\'')".toList] := by decide +kernel
  have object : MacroRegistry.standard.lookup "GETSET_SPTR".toList = some .objectReadWrite := by
    decide +kernel
  have map : MacroRegistry.standard.lookup "MAP".toList = some .map := by decide +kernel
  refine ⟨_, _, rfl, rfl, MacroRegistry.isBuilt_standard, object, map, closed, unmarked, filled, ?_,
    by decide +kernel, ?_⟩
  · exact (result_property_of_invocation MacroRegistry.isBuilt_standard object closed
      blank unmarked "Title".toList 4 20).1 filled
  · exact (result_property_of_invocation MacroRegistry.isBuilt_standard map closed
      blank unmarked "Title".toList 4 20).2 1 .valueType rfl (by decide +kernel)
      (by decide +kernel)

end Extractor

end Scaffold
