/-
**What a description takes over from its declaration.**

Comments describe a class and its members, but they name neither. Whatever they say, a class stands
in the namespaces of its declaration, has its name and the kind that goes with it, and has its
members in their order with their values (`skeleton_of_describe`). And nothing but a comment can be
in the way of a description: it is found exactly if each comment can be read by itself
(`exists_describe_iff`), as those can that annotate nothing (`Unannotated.accepts`).
-/

import Mathlib.Data.List.Infix
import Scaffold.Extraction.Extractor
import Scaffold.Proofs.Results

namespace Scaffold

/-! ### Members -/

section Members

variable {property changed : Property}

/-- The name and the value of a property. -/
def Property.entry (property : Property) : Text × Int := (property.enumName, property.ordinal)

/-- The name and the value of a member. -/
def Member.entry (member : Member) : Text × Int := (member.name, member.ordinal)

theorem Attribute.entry_of_applyToMember {item : Attribute}
    (applied : item.applyToMember property = .ok changed) :
    changed.entry = property.entry := by
  unfold applyToMember at applied
  split at applied
  case h_8 =>
    obtain ⟨redo, -, rest⟩ := bind_eq_ok_iff.mp applied
    cases rest
    rfl
  all_goals
    cases applied
    rfl

theorem Remark.entry_of_applyToMember {remark : Remark}
    (applied : (remark.applyToMember property).result = .ok changed) :
    changed.entry = property.entry := by
  rw [applyToMember, Outcome.result_bind, Outcome.result_foldReporting] at applied
  obtain ⟨last, run, same⟩ := bind_eq_ok_iff.mp applied
  cases same
  show last.entry = property.entry
  exact foldlM_keeps Property.entry (fun _ _ _ => Attribute.entry_of_applyToMember) run

/-- The arguments of a macro decide on six fields and on nothing else. -/
theorem Invocation.exists_of_fill {invocation : Invocation} {type : MacroType}
    (filled : invocation.fill type property = .ok changed) :
    ∃ type1 type2 propertyName defaultValue validate initializeArguments,
      changed = { property with
        type1, type2, propertyName, defaultValue, validate, initializeArguments } := by
  unfold fill at filled
  split at filled
  · cases filled
    exact ⟨_, _, _, _, _, _, rfl⟩
  · obtain ⟨type1, -, same⟩ := bind_eq_ok_iff.mp filled
    cases same
    exact ⟨_, _, _, _, _, _, rfl⟩
  · obtain ⟨type1, -, rest⟩ := bind_eq_ok_iff.mp filled
    dsimp only at rest
    split at rest
    all_goals
      obtain ⟨type2, -, same⟩ := bind_eq_ok_iff.mp rest
      cases same
      exact ⟨_, _, _, _, _, _, rfl⟩
  · obtain ⟨type1, -, same⟩ := bind_eq_ok_iff.mp filled
    cases same
    exact ⟨_, _, _, _, _, _, rfl⟩
  · obtain ⟨propertyName, -, same⟩ := bind_eq_ok_iff.mp filled
    cases same
    exact ⟨_, _, _, _, _, _, rfl⟩

theorem Invocation.entry_of_fill {invocation : Invocation} {type : MacroType}
    (filled : invocation.fill type property = .ok changed) :
    changed.entry = property.entry := by
  obtain ⟨_, _, _, _, _, _, rfl⟩ := exists_of_fill filled
  rfl

namespace Extractor

variable {extractor : Extractor} {comment rest : Excerpt}

theorem entry_of_applyMacro
    (applied : (extractor.applyMacro comment property).result = .ok (changed, rest)) :
    changed.entry = property.entry := by
  unfold applyMacro at applied
  split at applied
  · simp only [applyInvocation, Outcome.result_bind, Outcome.result_lift, Outcome.result_reportIf,
      Outcome.result_pure] at applied
    obtain ⟨⟨group, after⟩, -, continued⟩ := bind_eq_ok_iff.mp applied
    obtain ⟨filled, done, same⟩ := bind_eq_ok_iff.mp continued
    cases same
    rw [Invocation.entry_of_fill done]
    rfl
  · cases applied
    rfl

/-- A property has the name and the value of its member. -/
theorem entry_of_property {member : Member}
    (described : (extractor.property member).result = .ok property) :
    property.entry = member.entry := by
  unfold Extractor.property at described
  split at described
  · cases described
    rfl
  · simp only [annotate, Outcome.result_bind, Outcome.result_lift] at described
    obtain ⟨⟨filled, rest⟩, macroDone, continued⟩ := bind_eq_ok_iff.mp described
    obtain ⟨remark, -, applied⟩ := bind_eq_ok_iff.mp continued
    rw [Remark.entry_of_applyToMember applied, entry_of_applyMacro macroDone]
    rfl

end Extractor

end Members

/-! ### Classes -/

/-- Where a class is declared, its kind and its name. -/
def Class.place (cls : Class) : Text × ClassKind × Text := (cls.enclosing, cls.kind, cls.name)

/-- What a class has before any comment is read: its place, and the names and values of its
members. -/
def Class.skeleton (cls : Class) : (Text × ClassKind × Text) × List (Text × Int) :=
  (cls.place, cls.properties.map Property.entry)

theorem Attribute.place_of_applyToClass {item : Attribute} {cls changed : Class}
    (applied : item.applyToClass cls = .ok changed) : changed.place = cls.place := by
  unfold applyToClass at applied
  split at applied
  case h_2 =>
    obtain ⟨base, -, same⟩ := bind_eq_ok_iff.mp applied
    cases same
    rfl
  all_goals
    cases applied
    rfl

namespace Extractor

variable {extractor : Extractor} {declaration : Declaration}

theorem place_of_applyComment {state next : Class × List Text} {comment : Excerpt}
    (applied : (applyComment state comment).result = .ok next) : next.1.place = state.1.place := by
  simp only [applyComment, Remark.applyToClass, Outcome.result_bind, Outcome.result_lift,
    Outcome.result_foldReporting, Outcome.result_pure] at applied
  obtain ⟨remark, -, continued⟩ := bind_eq_ok_iff.mp applied
  obtain ⟨changed, run, same⟩ := bind_eq_ok_iff.mp continued
  cases same
  exact foldlM_keeps Class.place (fun _ _ _ => Attribute.place_of_applyToClass) run

/-- Where a declaration stands, the kind that its name has, and its name. -/
def place (extractor : Extractor) (declaration : Declaration) : Text × ClassKind × Text :=
  (Text.join ['.'] declaration.path, extractor.kinds.classify declaration.name, declaration.name)

/-- What the class of a declaration has before any comment is read. -/
def skeleton (extractor : Extractor) (declaration : Declaration) :
    (Text × ClassKind × Text) × List (Text × Int) :=
  (extractor.place declaration, declaration.members.map Member.entry)

theorem place_of_classHead {cls : Class}
    (described : (extractor.classHead declaration).result = .ok cls) :
    cls.place = extractor.place declaration := by
  simp only [classHead, Outcome.result_bind, Outcome.result_foldlM] at described
  obtain ⟨state, run, same⟩ := bind_eq_ok_iff.mp described
  cases same
  exact foldlM_keeps (fun state : Class × List Text => state.1.place)
    (fun _ _ _ => place_of_applyComment) run

/-- **A class has the skeleton of its declaration**, whatever the comments say. -/
theorem skeleton_of_describe {cls : Class}
    (described : (extractor.describe declaration).result = .ok cls) :
    cls.skeleton = extractor.skeleton declaration := by
  simp only [describe, Outcome.result_bind, Outcome.result_mapM, Outcome.result_pure] at described
  obtain ⟨head, headed, continued⟩ := bind_eq_ok_iff.mp described
  obtain ⟨properties, run, same⟩ := bind_eq_ok_iff.mp continued
  cases same
  have placed := place_of_classHead headed
  have listed := map_eq_of_mapM Property.entry Member.entry (fun _ _ _ => entry_of_property) run
  exact Prod.ext placed listed

/-- A class is where its declaration is, and has its name and its members. -/
theorem describe_placed {cls : Class}
    (described : (extractor.describe declaration).result = .ok cls) :
    cls.enclosing = Text.join ['.'] declaration.path ∧ cls.name = declaration.name ∧
      cls.properties.map Property.enumName = declaration.members.map Member.name := by
  obtain ⟨placed, listed⟩ := Prod.mk.inj (skeleton_of_describe described)
  obtain ⟨enclosing, kindAndName⟩ := Prod.mk.inj placed
  have names := congrArg (List.map Prod.fst) listed
  rw [List.map_map, List.map_map] at names
  exact ⟨enclosing, (Prod.mk.inj kindAndName).2, names⟩

end Extractor

/-! ### Comments that can be read -/

/-- The attribute has what a class takes from it. -/
def Attribute.FitsClass (item : Attribute) : Prop :=
  item.role = .inherit → item.valueOf? "Class" ≠ none

/-- The attribute has what a member takes from it. -/
def Attribute.FitsMember (item : Attribute) : Prop :=
  item.role = .actionResult → item.valueOf? "Redo" ≠ none

/-- The attributes of a comment can be read, and each of them fits. -/
def Excerpt.IsRemark (fits : Attribute → Prop) (comment : Excerpt) : Prop :=
  ∃ remark, Remark.ofExcerpt comment = .ok remark ∧ ∀ item ∈ remark.attributes, fits item

/-- The arguments that a macro has to have are there. -/
def Invocation.IsFilled (invocation : Invocation) (type : MacroType) : Prop :=
  match type.category with
  | .none => True
  | .scalar | .manager | .action => invocation.slot? 0 ≠ none
  | .collection => invocation.slot? 0 ≠ none ∧ (type.isMap = true → invocation.slot? 1 ≠ none)

/-- The comment starts with a whole macro before `rest`, if it starts with a macro at all. -/
def Extractor.Leaves (extractor : Extractor) (comment rest : Excerpt) : Prop :=
  match extractor.invoked? comment with
  | none => rest = comment
  | some (keyword, type) =>
    ∃ group, Invocation.group keyword
        (comment.skip keyword (comment.text.drop keyword.length)) = .ok (group, rest) ∧
      (Invocation.ofGroup keyword group (comment.offset + keyword.size)).IsFilled type

/-- Every comment of a declaration can be read where it stands. -/
structure Extractor.Accepts (extractor : Extractor) (declaration : Declaration) : Prop where
  comments : ∀ comment ∈ declaration.comments, comment.IsRemark Attribute.FitsClass
  members : ∀ member ∈ declaration.members, ∀ comment ∈ member.comment,
    ∃ rest, extractor.Leaves comment.skipBlanks rest ∧ rest.IsRemark Attribute.FitsMember

namespace Attribute

theorem exists_valueOf_iff (item : Attribute) (key : String) :
    (∃ text, item.valueOf key = .ok text) ↔ item.valueOf? key ≠ none := by
  rw [valueOf]
  cases item.valueOf? key with
  | none => exact iff_of_false (fun ⟨_, found⟩ => by cases found) (fun found => found rfl)
  | some text => exact iff_of_true ⟨text, rfl⟩ (Option.some_ne_none text)

theorem exists_applyToMember_iff (item : Attribute) (property : Property) :
    (∃ changed, item.applyToMember property = .ok changed) ↔ item.FitsMember := by
  unfold applyToMember FitsMember
  cases item.role
  case actionResult =>
    rw [exists_bind_pure_iff, exists_valueOf_iff]
    exact ⟨fun found _ => found, fun fits => fits rfl⟩
  all_goals exact iff_of_true ⟨_, rfl⟩ (fun other => by cases other)

theorem exists_applyToClass_iff (item : Attribute) (cls : Class) :
    (∃ changed, item.applyToClass cls = .ok changed) ↔ item.FitsClass := by
  unfold applyToClass FitsClass
  cases item.role
  case inherit =>
    rw [exists_bind_pure_iff, exists_valueOf_iff]
    exact ⟨fun found _ => found, fun fits => fits rfl⟩
  all_goals exact iff_of_true ⟨_, rfl⟩ (fun other => by cases other)

end Attribute

namespace Invocation

variable {invocation : Invocation}

theorem exists_required_iff (index : Nat) (slot : Slot) :
    (∃ text, invocation.required index slot = .ok text) ↔ invocation.slot? index ≠ none := by
  rw [required]
  cases invocation.slot? index with
  | none => exact iff_of_false (fun ⟨_, found⟩ => by cases found) (fun found => found rfl)
  | some text => exact iff_of_true ⟨text, rfl⟩ (Option.some_ne_none text)

theorem exists_fillCollection_iff {type : MacroType} (property : Property) :
    (∃ filled, invocation.fillCollection type property = .ok filled) ↔
      invocation.slot? 0 ≠ none ∧ (type.isMap = true → invocation.slot? 1 ≠ none) := by
  unfold fillCollection
  rw [exists_bind_ok_iff, ← exists_required_iff 0 .elementType]
  by_cases map : type.isMap = true
  · rw [← exists_required_iff 1 .valueType]
    simp only [map, if_true, forall_const, exists_bind_pure_iff, exists_and_right]
  · simp only [map]
    exact ⟨fun ⟨text, found, _⟩ => ⟨⟨text, found⟩, nofun⟩,
      fun ⟨⟨text, found⟩, _⟩ => ⟨text, found, _, rfl⟩⟩

theorem exists_fill_iff {type : MacroType} (property : Property) :
    (∃ filled, invocation.fill type property = .ok filled) ↔ invocation.IsFilled type := by
  unfold fill IsFilled
  cases type.category with
  | none => exact iff_of_true ⟨_, rfl⟩ trivial
  | scalar =>
    exact exists_bind_pure_iff.trans (exists_required_iff 0 .type)
  | manager =>
    exact exists_bind_pure_iff.trans (exists_required_iff 0 .managerType)
  | action =>
    exact exists_bind_pure_iff.trans (exists_required_iff 0 .propertyName)
  | collection => exact exists_fillCollection_iff property

end Invocation

theorem Remark.exists_applyToMember_iff {remark : Remark} (property : Property) :
    (∃ changed, (remark.applyToMember property).result = .ok changed) ↔
      ∀ item ∈ remark.attributes, item.FitsMember := by
  rw [applyToMember, Outcome.result_bind, Outcome.result_foldReporting]
  refine exists_bind_pure_iff.trans ?_
  exact exists_foldlM_iff fun property item => item.exists_applyToMember_iff property

theorem Remark.exists_applyToClass_iff {remark : Remark} (cls : Class) :
    (∃ changed, (remark.applyToClass cls).result = .ok changed) ↔
      ∀ item ∈ remark.attributes, item.FitsClass := by
  rw [applyToClass, Outcome.result_foldReporting]
  exact exists_foldlM_iff fun cls item => item.exists_applyToClass_iff cls

namespace Extractor

variable {extractor : Extractor} {declaration : Declaration} {comment rest : Excerpt}

theorem exists_applyMacro_iff (property : Property) :
    (∃ filled, (extractor.applyMacro comment property).result = .ok (filled, rest)) ↔
      extractor.Leaves comment rest := by
  unfold applyMacro Leaves
  cases extractor.invoked? comment with
  | none =>
    constructor
    · rintro ⟨_, ⟨⟩⟩
      rfl
    · rintro rfl
      exact ⟨property, rfl⟩
  | some found =>
    simp only [applyInvocation, Outcome.result_bind, Outcome.result_lift, Outcome.result_reportIf,
      Outcome.result_pure]
    constructor
    · rintro ⟨filled, run⟩
      obtain ⟨⟨group, after⟩, grouped, continued⟩ := bind_eq_ok_iff.mp run
      obtain ⟨inner, done, same⟩ := bind_eq_ok_iff.mp continued
      cases same
      exact ⟨group, grouped, (Invocation.exists_fill_iff _).mp ⟨_, done⟩⟩
    · rintro ⟨group, grouped, complete⟩
      obtain ⟨filled, done⟩ := (Invocation.exists_fill_iff _).mpr complete
      exact ⟨filled, bind_eq_ok_iff.mpr ⟨(group, rest), grouped,
        bind_eq_ok_iff.mpr ⟨filled, done, rfl⟩⟩⟩

theorem exists_property_iff (member : Member) :
    (∃ property, (extractor.property member).result = .ok property) ↔
      ∀ comment ∈ member.comment,
        ∃ rest, extractor.Leaves comment.skipBlanks rest ∧ rest.IsRemark Attribute.FitsMember := by
  unfold Extractor.property
  cases member.comment with
  | none => exact iff_of_true ⟨_, rfl⟩ nofun
  | some comment =>
    simp only [annotate, Outcome.result_bind, Outcome.result_lift, Option.mem_def,
      Option.some.injEq, forall_eq']
    constructor
    · rintro ⟨property, run⟩
      obtain ⟨⟨filled, rest⟩, invoked, continued⟩ := bind_eq_ok_iff.mp run
      obtain ⟨remark, read, applied⟩ := bind_eq_ok_iff.mp continued
      exact ⟨rest, (exists_applyMacro_iff _).mp ⟨filled, invoked⟩, remark, read,
        (Remark.exists_applyToMember_iff filled).mp ⟨property, applied⟩⟩
    · rintro ⟨rest, leaves, remark, read, fits⟩
      obtain ⟨filled, invoked⟩ :=
        (exists_applyMacro_iff (.plain member.name member.ordinal)).mpr leaves
      obtain ⟨property, applied⟩ := (Remark.exists_applyToMember_iff filled).mpr fits
      exact ⟨property, bind_eq_ok_iff.mpr ⟨(filled, rest), invoked,
        bind_eq_ok_iff.mpr ⟨remark, read, applied⟩⟩⟩

theorem exists_applyComment_iff (state : Class × List Text) (comment : Excerpt) :
    (∃ next, (applyComment state comment).result = .ok next) ↔
      comment.IsRemark Attribute.FitsClass := by
  simp only [applyComment, Outcome.result_bind, Outcome.result_lift, Outcome.result_pure]
  rw [exists_bind_ok_iff, Excerpt.IsRemark]
  refine exists_congr fun remark => and_congr_right fun _ => ?_
  exact exists_bind_pure_iff.trans (Remark.exists_applyToClass_iff state.1)

theorem exists_classHead_iff :
    (∃ head, (extractor.classHead declaration).result = .ok head) ↔
      ∀ comment ∈ declaration.comments, comment.IsRemark Attribute.FitsClass := by
  rw [classHead, Outcome.result_bind, Outcome.result_foldlM]
  exact exists_bind_pure_iff.trans (exists_foldlM_iff exists_applyComment_iff)

/-- **Which declarations can be described**: those whose comments can all be read. -/
theorem exists_describe_iff :
    (∃ cls, (extractor.describe declaration).result = .ok cls) ↔ extractor.Accepts declaration := by
  simp only [describe, Outcome.result_bind, Outcome.result_mapM, Outcome.result_pure]
  rw [exists_bind_ok_iff]
  constructor
  · rintro ⟨head, headed, described⟩
    refine ⟨exists_classHead_iff.mp ⟨head, headed⟩, fun member among => ?_⟩
    have listed := exists_mapM_iff.mp (exists_bind_pure_iff.mp described)
    exact (exists_property_iff member).mp (listed member among)
  · rintro ⟨comments, members⟩
    obtain ⟨head, headed⟩ := exists_classHead_iff.mpr comments
    refine ⟨head, headed, exists_bind_pure_iff.mpr (exists_mapM_iff.mpr fun member among => ?_)⟩
    exact (exists_property_iff member).mpr (members member among)

end Extractor

/-! ### Comments without annotations -/

/-- Attributes are read one after the other, each from its marker on. -/
theorem Remark.attributesFrom_eq (excerpt : Excerpt) : attributesFrom excerpt =
    match excerpt.text.after? Excerpt.attributeMarker with
    | none => .ok []
    | some rest =>
      attributeAfter excerpt.offset (excerpt.skip Excerpt.attributeMarker rest) >>= fun read =>
        (attributesFrom read.2).map (read.1 :: ·) := by
  rw [attributesFrom]
  split
  · rename_i absent
    simp only [absent]
  · rename_i rest marked
    simp only [marked]
    split <;> rename_i read <;> rw [read] <;> rfl

/-- No attribute starts in the comment. -/
def Excerpt.IsUnmarked (comment : Excerpt) : Prop := ¬ attributeMarker <:+: comment.text

/-- The comments of a declaration annotate nothing: no attribute starts in them, and no comment of a
member starts with a macro. -/
structure Extractor.Unannotated (extractor : Extractor) (declaration : Declaration) : Prop where
  comments : ∀ comment ∈ declaration.comments, comment.IsUnmarked
  members : ∀ member ∈ declaration.members, ∀ comment ∈ member.comment,
    comment.IsUnmarked ∧ extractor.invoked? comment.skipBlanks = none

instance (comment : Excerpt) : Decidable comment.IsUnmarked := by
  unfold Excerpt.IsUnmarked
  infer_instance

instance (extractor : Extractor) (declaration : Declaration) :
    Decidable (extractor.Unannotated declaration) :=
  decidable_of_iff
    ((∀ comment ∈ declaration.comments, comment.IsUnmarked) ∧
      ∀ member ∈ declaration.members, ∀ comment ∈ member.comment,
        comment.IsUnmarked ∧ extractor.invoked? comment.skipBlanks = none)
    ⟨fun ⟨comments, members⟩ => ⟨comments, members⟩, fun plain => ⟨plain.comments, plain.members⟩⟩

theorem Text.splitAtFirst_of_absent {text needle : Text} (absent : ¬ needle <:+: text) :
    text.splitAtFirst needle = (text, []) := by
  induction text with
  | nil => rfl
  | cons char rest ih =>
    have noPrefix : ¬ needle.isPrefixOf (char :: rest) = true := fun leads =>
      absent (List.isPrefixOf_iff_prefix.mp leads).isInfix
    rw [splitAtFirst, if_neg noPrefix, ih fun inside => absent (List.infix_cons inside)]

namespace Excerpt

variable {comment : Excerpt}

theorem IsUnmarked.skipBlanks (unmarked : comment.IsUnmarked) : comment.skipBlanks.IsUnmarked := by
  intro marked
  exact unmarked (marked.trans (List.dropWhile_suffix _).isInfix)

/-- A comment without attributes is all free text. -/
theorem IsUnmarked.ofExcerpt (unmarked : comment.IsUnmarked) :
    Remark.ofExcerpt comment = .ok ⟨Remark.piece? comment.text, []⟩ := by
  have none : ∀ offset, Remark.attributesFrom ⟨[], offset⟩ = .ok [] := fun offset =>
    Remark.attributesFrom_eq _
  rw [Remark.ofExcerpt, takeUntilAttribute, Text.splitAtFirst_of_absent unmarked]
  simp only [skip, none]
  rfl

theorem IsUnmarked.isRemark (unmarked : comment.IsUnmarked) (fits : Attribute → Prop) :
    comment.IsRemark fits :=
  ⟨_, unmarked.ofExcerpt, fun _ absent => absurd absent List.not_mem_nil⟩

end Excerpt

/-- Comments that annotate nothing can be read. -/
theorem Extractor.Unannotated.accepts {extractor : Extractor} {declaration : Declaration}
    (plain : extractor.Unannotated declaration) : extractor.Accepts declaration := by
  constructor
  · intro comment among
    exact (plain.comments comment among).isRemark _
  · intro member among comment found
    obtain ⟨unmarked, noMacro⟩ := plain.members member among comment found
    refine ⟨comment.skipBlanks, ?_, unmarked.skipBlanks.isRemark _⟩
    rw [Leaves, noMacro]

end Scaffold
