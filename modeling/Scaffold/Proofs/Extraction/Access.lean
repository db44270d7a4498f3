/-
**Which accessors a member has.**

An attribute can only take accessors away, and what one of them takes away no other gives back. So
what a comment asks for are the accessors that none of its attributes denies, in whatever order they
stand and however often (`requested_of_applyToMember`); the macro before them asks for nothing
(`requested_of_applyMacro`). In what is extracted from a source, a member can be read exactly if its
macro type can be and its comment has none of the two attributes that deny it, and likewise for
writing (`accessMode_of_parse`).
-/

import Scaffold.Proofs.Extraction.Described

namespace Scaffold

/-! ### Attributes -/

namespace Attribute

/-- Each role has one name. -/
theorem role_eq_iff {item : Attribute} {name : Text} {role : AttributeRole}
    (listed : (name, role) ∈ AttributeRole.names) : item.role = role ↔ item.name = name := by
  have known : ∀ entry ∈ AttributeRole.names, AttributeRole.ofName entry.1 = entry.2 := by decide
  have isName : ∀ entry ∈ AttributeRole.names, entry.2 ≠ .unknown := by decide
  have distinct : ∀ first ∈ AttributeRole.names, ∀ second ∈ AttributeRole.names,
      first.2 = second.2 → first.1 = second.1 := by decide
  constructor
  · intro same
    unfold Attribute.role AttributeRole.ofName at same
    cases found : AttributeRole.names.lookup item.name with
    | none =>
      rw [found] at same
      exact absurd same.symm (isName _ listed)
    | some other =>
      obtain ⟨before, after, split, -⟩ := List.lookup_eq_some_iff.mp found
      have entry : (item.name, other) ∈ AttributeRole.names :=
        split ▸ List.mem_append_right _ List.mem_cons_self
      rw [found] at same
      exact distinct _ entry _ listed same
  · rintro rfl
    exact known _ listed

/-- The accessors that an attribute of a member leaves. -/
def access (item : Attribute) : AccessMode :=
  match item.role with
  | .readOnly => .readOnly
  | .writeOnly => .writeOnly
  | .noAccess => .noAccess
  | _ => .readWrite

/-- Two attributes deny reading. -/
theorem canRead_access (item : Attribute) : item.access.canRead = true ↔
    item.name ≠ "WriteOnly".toList ∧ item.name ≠ "NoAccess".toList := by
  have writeOnly : item.role = .writeOnly ↔ item.name = "WriteOnly".toList :=
    role_eq_iff (by decide)
  have noAccess : item.role = .noAccess ↔ item.name = "NoAccess".toList := role_eq_iff (by decide)
  rw [ne_eq, ne_eq, ← writeOnly, ← noAccess, access]
  cases item.role <;> decide

/-- Two attributes deny writing. -/
theorem canWrite_access (item : Attribute) : item.access.canWrite = true ↔
    item.name ≠ "ReadOnly".toList ∧ item.name ≠ "NoAccess".toList := by
  have readOnly : item.role = .readOnly ↔ item.name = "ReadOnly".toList := role_eq_iff (by decide)
  have noAccess : item.role = .noAccess ↔ item.name = "NoAccess".toList := role_eq_iff (by decide)
  rw [ne_eq, ne_eq, ← readOnly, ← noAccess, access]
  cases item.role <;> decide

end Attribute

/-! ### Members -/

/-- After some attributes, what is asked for is what was asked for before as far as none of them
denies it, and the macro type is what it was. -/
structure Property.IsNarrowed (property : Property) (attributes : List Attribute)
    (changed : Property) : Prop where
  macroType : changed.macroType = property.macroType
  canRead : changed.requestedAccess.canRead = true ↔ property.requestedAccess.canRead = true ∧
    ∀ item ∈ attributes, item.access.canRead = true
  canWrite : changed.requestedAccess.canWrite = true ↔ property.requestedAccess.canWrite = true ∧
    ∀ item ∈ attributes, item.access.canWrite = true

/-- The accessors that are generated are those of the macro type that none of these attributes
denies. -/
structure Property.HasAccess (property : Property) (attributes : List Attribute) : Prop where
  canRead : property.accessMode.canRead = true ↔
    property.macroType.capability.canRead = true ∧
      ∀ item ∈ attributes, item.name ≠ "WriteOnly".toList ∧ item.name ≠ "NoAccess".toList
  canWrite : property.accessMode.canWrite = true ↔
    property.macroType.capability.canWrite = true ∧
      ∀ item ∈ attributes, item.name ≠ "ReadOnly".toList ∧ item.name ≠ "NoAccess".toList

section Members

variable {property changed : Property}

/-- An attribute takes accessors away, and has no effect on the macro type. -/
theorem Attribute.requested_of_applyToMember {item : Attribute}
    (applied : item.applyToMember property = .ok changed) :
    changed.macroType = property.macroType ∧
      changed.requestedAccess = property.requestedAccess.restrict item.access := by
  have kept : property.requestedAccess.restrict .readWrite = property.requestedAccess := by
    cases property.requestedAccess <;> rfl
  unfold applyToMember at applied
  unfold access
  split at applied
  case h_8 role =>
    obtain ⟨redo, -, rest⟩ := bind_eq_ok_iff.mp applied
    cases rest
    rw [role]
    exact ⟨rfl, kept.symm⟩
  case h_1 role | h_2 role | h_3 role =>
    cases applied
    rw [role]
    exact ⟨rfl, rfl⟩
  all_goals
    rename_i role
    cases applied
    rw [role]
    exact ⟨rfl, kept.symm⟩

theorem Property.IsNarrowed.nil (property : Property) : property.IsNarrowed [] property :=
  ⟨rfl, by simp, by simp⟩

theorem isNarrowed_of_foldlM {attributes : List Attribute}
    (run : attributes.foldlM Attribute.applyToMember property = .ok changed) :
    property.IsNarrowed attributes changed := by
  induction attributes generalizing property with
  | nil =>
    cases run
    exact .nil _
  | cons item rest ih =>
    rw [List.foldlM_cons] at run
    obtain ⟨next, done, finished⟩ := bind_eq_ok_iff.mp run
    obtain ⟨type, requested⟩ := Attribute.requested_of_applyToMember done
    obtain ⟨sameType, canRead, canWrite⟩ := ih finished
    refine ⟨sameType.trans type, ?_, ?_⟩
    · rw [canRead, requested, AccessMode.canRead_restrict, Bool.and_eq_true, List.forall_mem_cons,
        and_assoc]
    · rw [canWrite, requested, AccessMode.canWrite_restrict, Bool.and_eq_true,
        List.forall_mem_cons, and_assoc]

/-- **The attributes of a comment** leave what none of them denies. -/
theorem Remark.isNarrowed_of_applyToMember {remark : Remark}
    (applied : (remark.applyToMember property).result = .ok changed) :
    property.IsNarrowed remark.attributes changed := by
  rw [applyToMember, Outcome.result_bind, Outcome.result_foldReporting] at applied
  obtain ⟨last, run, same⟩ := bind_eq_ok_iff.mp applied
  cases same
  obtain ⟨macroType, canRead, canWrite⟩ := isNarrowed_of_foldlM run
  exact ⟨macroType, canRead, canWrite⟩

/-- What is asked for counts as far as the macro type allows it. -/
theorem Property.IsNarrowed.hasAccess {attributes : List Attribute}
    (narrowed : property.IsNarrowed attributes changed)
    (unrestricted : property.requestedAccess = .readWrite) : changed.HasAccess attributes := by
  have canRead := narrowed.canRead
  have canWrite := narrowed.canWrite
  simp only [unrestricted, show AccessMode.readWrite.canRead = true from rfl,
    show AccessMode.readWrite.canWrite = true from rfl, true_and, Attribute.canRead_access,
    Attribute.canWrite_access] at canRead canWrite
  constructor
  · rw [accessMode, AccessMode.canRead_restrict, Bool.and_eq_true, canRead, and_comm]
  · rw [accessMode, AccessMode.canWrite_restrict, Bool.and_eq_true, canWrite, and_comm]

end Members

namespace Extractor

variable {extractor : Extractor} {comment rest : Excerpt} {property changed : Property}

/-- The type of the macro that a comment starts with. -/
def typeOf (extractor : Extractor) (comment : Excerpt) : MacroType :=
  ((extractor.invoked? comment).map Prod.snd).getD .noMacro

/-- The comment of a member starts with a macro of this type, and has these attributes after it. A
member without a comment has neither. -/
def Annotates (extractor : Extractor) (comment : Option Excerpt) (type : MacroType)
    (attributes : List Attribute) : Prop :=
  match comment with
  | none => type = .noMacro ∧ attributes = []
  | some comment =>
    type = extractor.typeOf comment.skipBlanks ∧
      ∃ rest remark, extractor.Leaves comment.skipBlanks rest ∧
        Remark.ofExcerpt rest = .ok remark ∧ remark.attributes = attributes

/-- A macro sets the macro type and asks for nothing. -/
theorem requested_of_applyMacro
    (applied : (extractor.applyMacro comment property).result = .ok (changed, rest))
    (isPlain : property.macroType = .noMacro) :
    changed.macroType = extractor.typeOf comment ∧
      changed.requestedAccess = property.requestedAccess := by
  unfold applyMacro at applied
  unfold typeOf
  split at applied
  · rename_i keyword type invoked
    simp only [applyInvocation, Outcome.result_bind, Outcome.result_lift, Outcome.result_reportIf,
      Outcome.result_pure] at applied
    obtain ⟨⟨group, after⟩, -, continued⟩ := bind_eq_ok_iff.mp applied
    obtain ⟨filled, done, same⟩ := bind_eq_ok_iff.mp continued
    cases same
    obtain ⟨_, _, _, _, _, _, rfl⟩ := Invocation.exists_of_fill done
    rw [invoked]
    exact ⟨rfl, rfl⟩
  · rename_i invoked
    cases applied
    rw [invoked]
    exact ⟨isPlain, rfl⟩

theorem hasAccess_of_property {member : Member}
    (described : (extractor.property member).result = .ok property) :
    ∃ attributes, extractor.Annotates member.comment property.macroType attributes ∧
      property.HasAccess attributes := by
  unfold Extractor.property at described
  split at described
  · rename_i silent
    cases described
    rw [silent]
    exact ⟨[], ⟨rfl, rfl⟩, (Property.IsNarrowed.nil _).hasAccess rfl⟩
  · rename_i comment commented
    rw [commented]
    simp only [annotate, Outcome.result_bind, Outcome.result_lift] at described
    obtain ⟨⟨filled, rest⟩, invoked, continued⟩ := bind_eq_ok_iff.mp described
    obtain ⟨remark, read, applied⟩ := bind_eq_ok_iff.mp continued
    obtain ⟨type, requested⟩ := requested_of_applyMacro invoked rfl
    have narrowed := Remark.isNarrowed_of_applyToMember applied
    have leaves := (exists_applyMacro_iff _).mp ⟨filled, invoked⟩
    exact ⟨remark.attributes,
      ⟨narrowed.macroType.trans type, rest, remark, leaves, read, rfl⟩,
      narrowed.hasAccess requested⟩

/-- **The accessors of a member**, for all members of all classes of a source: it can be read
exactly if its macro type can be and no attribute in its comment denies reading, and it can be
written exactly if its macro type can be and no attribute denies writing. -/
theorem accessMode_of_parse {source : Text} {classes : List Class}
    (parsed : extractor.parse source = .ok classes) :
    ∃ tokens, Token.tokenize source = .ok tokens ∧
      List.Forall₂ (fun declaration cls => List.Forall₂ (fun member property =>
          property.enumName = member.name ∧ ∃ attributes,
            extractor.Annotates member.comment property.macroType attributes ∧
              property.HasAccess attributes)
        declaration.members cls.properties)
      (Outline.ofSource source tokens).declarations classes := by
  obtain ⟨tokens, cut, -, listed⟩ := parse_ok_iff.mp parsed
  refine ⟨tokens, cut, listed.imp fun declaration cls described => ?_⟩
  simp only [describe, Outcome.result_bind, Outcome.result_mapM, Outcome.result_pure] at described
  obtain ⟨head, -, continued⟩ := bind_eq_ok_iff.mp described
  obtain ⟨properties, run, same⟩ := bind_eq_ok_iff.mp continued
  cases same
  exact (mapM_eq_ok_iff.mp run).imp fun member property found =>
    ⟨congrArg Prod.fst (entry_of_property found), hasAccess_of_property found⟩

/-- Repeated attributes with other ones and free text between them, two in either order, a name that
only starts like one of them, an action, and a member without a comment. -/
theorem accessMode_of_parse_mixed : ∃ source classes,
    source = ("enum E\x7bA, // GETSET(int, A) @@ReadOnly x @@NoJson @@ReadOnly\n" ++
      "B, /* ACTION(B) @@ReadOnly */ C // @@WriteOnly @@NoAccesses\n" ++
      "D // GETSET(int, D) @@WriteOnly @@ReadOnly\nF\x7d;").toList ∧
    standard.parse source = .ok classes ∧
    classes.map (fun cls => cls.properties.map Property.accessMode) =
      [[.readOnly, .noAccess, .writeOnly, .noAccess, .readWrite]] ∧
    ∃ tokens, Token.tokenize source = .ok tokens ∧
      List.Forall₂ (fun declaration cls => List.Forall₂ (fun member property =>
          property.enumName = member.name ∧ ∃ attributes,
            standard.Annotates member.comment property.macroType attributes ∧
              property.HasAccess attributes)
        declaration.members cls.properties)
      (Outline.ofSource source tokens).declarations classes := by
  obtain ⟨classes, parsed, modes⟩ := Option.map_eq_some_iff.mp
    (show (standard.parse ("enum E\x7bA, // GETSET(int, A) @@ReadOnly x @@NoJson @@ReadOnly\n" ++
        "B, /* ACTION(B) @@ReadOnly */ C // @@WriteOnly @@NoAccesses\n" ++
        "D // GETSET(int, D) @@WriteOnly @@ReadOnly\nF\x7d;").toList).toOption.map
        (List.map fun cls => cls.properties.map Property.accessMode) =
      some [[.readOnly, .noAccess, .writeOnly, .noAccess, .readWrite]] by
      decide +kernel)
  have ran := ok_of_toOption parsed
  exact ⟨_, classes, rfl, ran, modes, accessMode_of_parse ran⟩

end Extractor

end Scaffold
