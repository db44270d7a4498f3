/-
**A comment says the same wherever it stands.**

An excerpt that stands elsewhere is read as where it stood, with every offset moved along: its
attributes (`ofExcerpt_moved`), the macro it starts with (`applyMacro_moved`), and what both do to a
member (`annotate_moved`) or to a class (`applyComment_moved`).
-/

import Scaffold.Proofs.Extraction.Description

namespace Scaffold

variable {amount : Nat}

/-! ### Results that are moved -/

/-- What a reader finds, edited, or its defect further on. -/
def relocated {α β : Type} (amount : Nat) (edit : α → β) : Except Defect α → Except Defect β
  | .error defect => .error ⟨defect.cause, defect.offset + amount⟩
  | .ok found => .ok (edit found)

section Relocated

variable {α β γ δ : Type} {result : Except Defect α} {edit : α → β}

theorem relocated_map {made : α → γ} {madeMoved : β → δ} {editMade : γ → δ}
    (same : ∀ found, madeMoved (edit found) = editMade (made found)) :
    (relocated amount edit result).map madeMoved = relocated amount editMade (result.map made) := by
  cases result with
  | error defect => rfl
  | ok found => exact congrArg Except.ok (same found)

theorem relocated_bind {next : α → Except Defect γ} {nextMoved : β → Except Defect δ}
    {editNext : γ → δ}
    (same : ∀ found, nextMoved (edit found) = relocated amount editNext (next found)) :
    (relocated amount edit result >>= nextMoved) = relocated amount editNext (result >>= next) := by
  cases result with
  | error defect => rfl
  | ok found => exact same found

theorem relocated_ok_iff {result moved : Except Defect α} {found : α}
    (same : moved = relocated amount id result) : moved = .ok found ↔ result = .ok found := by
  subst same
  cases result with
  | error defect => exact ⟨nofun, nofun⟩
  | ok other => exact Iff.rfl

end Relocated

/-! ### Excerpts -/

namespace Excerpt

/-- The same text further on. -/
def moved (amount : Nat) (excerpt : Excerpt) : Excerpt := ⟨excerpt.text, excerpt.offset + amount⟩

variable {excerpt : Excerpt}

@[simp] theorem skip_moved (lead rest : Text) :
    (excerpt.moved amount).skip lead rest = (excerpt.skip lead rest).moved amount := by
  rw [skip, moved, skip, moved, Nat.add_right_comm]

theorem skipBlanks_moved : (excerpt.moved amount).skipBlanks = excerpt.skipBlanks.moved amount :=
  skip_moved _ _

theorem identifier?_moved : (excerpt.moved amount).identifier? =
    excerpt.identifier?.map fun found => (found.1, found.2.moved amount) := by
  unfold identifier?
  dsimp only
  rw [skip_moved, apply_ite (Option.map _)]
  rfl

theorem takeUntilAttribute_moved : (excerpt.moved amount).takeUntilAttribute =
    (excerpt.takeUntilAttribute.1, excerpt.takeUntilAttribute.2.moved amount) := by
  unfold takeUntilAttribute
  dsimp only
  rw [skip_moved]
  rfl

theorem balanced?_moved (quotes : List Char) : (excerpt.moved amount).balanced? quotes =
    (excerpt.balanced? quotes).map fun found => (found.1, found.2.moved amount) := by
  unfold balanced?
  simp only [skip_moved, Option.map_map]
  rfl

theorem placed_moved (offset : Nat) (segments : List Text) :
    placed (offset + amount) segments = (placed offset segments).map (moved amount) := by
  induction segments generalizing offset with
  | nil => rfl
  | cons segment rest ih =>
    rw [placed, placed, List.map_cons, ← ih, Nat.add_right_comm offset, Nat.add_right_comm _ amount]
    rfl

theorem arguments_moved (inner : Excerpt) :
    (inner.moved amount).arguments = inner.arguments.map (moved amount) := by
  unfold arguments
  rw [apply_ite (List.map _), ← placed_moved]
  rfl

end Excerpt

/-! ### Attributes -/

/-- The same attribute further on. -/
def Attribute.moved (amount : Nat) (item : Attribute) : Attribute :=
  { item with offset := item.offset + amount }

namespace Remark

variable {excerpt : Excerpt}

/-- The same remark further on. -/
def moved (amount : Nat) (remark : Remark) : Remark :=
  { remark with attributes := remark.attributes.map (Attribute.moved amount) }

theorem payload?_moved (name : Text) : payload? name (excerpt.moved amount) =
    relocated amount (fun read => (read.1, read.2.moved amount)) (payload? name excerpt) := by
  have whole : payload name (excerpt.moved amount) =
      relocated amount (fun read => (read.1, read.2.moved amount)) (payload name excerpt) := by
    unfold payload
    rw [Excerpt.balanced?_moved]
    cases excerpt.balanced? payloadQuotes with
    | none => rfl
    | some found =>
      dsimp only [Option.map_some]
      split <;> rfl
  unfold payload?
  rw [whole, apply_ite (relocated amount _)]
  congr 1
  exact relocated_map fun found => rfl

theorem attributeAfter_moved (marker : Nat) :
    attributeAfter (marker + amount) (excerpt.moved amount) =
      relocated amount (fun read => (read.1.moved amount, read.2.moved amount))
        (attributeAfter marker excerpt) := by
  unfold attributeAfter
  rw [Excerpt.identifier?_moved]
  cases excerpt.identifier? with
  | none => rfl
  | some found =>
    obtain ⟨name, named⟩ := found
    dsimp only [Option.map_some]
    rw [Excerpt.skipBlanks_moved, payload?_moved]
    refine relocated_map fun read => ?_
    dsimp only
    rw [Excerpt.takeUntilAttribute_moved]
    rfl

theorem attributesFrom_moved (excerpt : Excerpt) : attributesFrom (excerpt.moved amount) =
    relocated amount (List.map (Attribute.moved amount)) (attributesFrom excerpt) := by
  have text : ∀ excerpt : Excerpt, (excerpt.moved amount).text = excerpt.text := fun _ => rfl
  fun_induction attributesFrom excerpt with
  | case1 excerpt absent =>
    rw [attributesFrom_eq, text, absent]
    rfl
  | case2 excerpt rest marked defect read =>
    rw [attributesFrom_eq, text, marked]
    dsimp only
    rw [Excerpt.skip_moved, Excerpt.moved, attributeAfter_moved, read]
    rfl
  | case3 excerpt rest marked first later read shorter ih =>
    rw [attributesFrom_eq, text, marked]
    dsimp only
    rw [Excerpt.skip_moved, Excerpt.moved, attributeAfter_moved, read]
    show (attributesFrom (later.moved amount)).map (first.moved amount :: ·) = _
    rw [ih]
    exact relocated_map fun items => rfl

theorem ofExcerpt_moved (excerpt : Excerpt) : ofExcerpt (excerpt.moved amount) =
    relocated amount (moved amount) (ofExcerpt excerpt) := by
  unfold ofExcerpt
  dsimp only
  rw [Excerpt.takeUntilAttribute_moved, attributesFrom_moved]
  exact relocated_map fun attributes => rfl

theorem rawCommand_moved (remark : Remark) :
    (remark.moved amount).rawCommand = remark.rawCommand := by
  have found :
      (remark.moved amount).attributes.reverse.find? (fun item => item.name == commandName) =
      (remark.attributes.reverse.find? fun item => item.name == commandName).map
        (Attribute.moved amount) := by
    rw [moved, ← List.map_reverse, List.find?_map]
    rfl
  unfold rawCommand
  rw [found]
  cases remark.attributes.reverse.find? fun item => item.name == commandName with
  | none =>
    dsimp only [Option.map_none]
    rw [moved, List.filterMap_map]
    rfl
  | some command => rfl

end Remark

/-! ### What comments do -/

section Applied

variable {property : Property} {cls : Class}

theorem Attribute.valueOf_moved (item : Attribute) (key : String) :
    (item.moved amount).valueOf key = relocated amount id (item.valueOf key) := by
  unfold valueOf
  rw [show (item.moved amount).valueOf? key = item.valueOf? key from rfl]
  cases item.valueOf? key <;> rfl

theorem Attribute.applyToMember_moved (item : Attribute) :
    (item.moved amount).applyToMember property =
      relocated amount id (item.applyToMember property) := by
  unfold applyToMember
  rw [show (item.moved amount).role = item.role from rfl, valueOf_moved]
  cases item.role <;> try rfl
  exact relocated_bind fun redo => rfl

theorem Attribute.applyToClass_moved (item : Attribute) :
    (item.moved amount).applyToClass cls = relocated amount id (item.applyToClass cls) := by
  unfold applyToClass
  rw [show (item.moved amount).role = item.role from rfl, valueOf_moved]
  cases item.role <;> try rfl
  exact relocated_bind fun base => rfl

/-- Steps that each fail further on fail further on altogether. -/
theorem foldlM_moved {α β : Type} {step : α → β → Except Defect α} {edit : β → β}
    (each : ∀ state item, step state (edit item) = relocated amount id (step state item))
    (state : α) (items : List β) :
    (items.map edit).foldlM step state = relocated amount id (items.foldlM step state) := by
  induction items generalizing state with
  | nil => rfl
  | cons item rest ih =>
    rw [List.map_cons, List.foldlM_cons, List.foldlM_cons, each]
    exact relocated_bind ih

theorem Remark.applyToMember_moved (remark : Remark) :
    ((remark.moved amount).applyToMember property).result =
      relocated amount id (remark.applyToMember property).result := by
  simp only [applyToMember, Outcome.result_bind, Outcome.result_foldReporting, rawCommand_moved]
  rw [moved, foldlM_moved fun _ item => item.applyToMember_moved]
  exact relocated_bind fun changed => rfl

theorem Remark.applyToClass_moved (remark : Remark) :
    ((remark.moved amount).applyToClass cls).result =
      relocated amount id (remark.applyToClass cls).result := by
  simp only [applyToClass, Outcome.result_foldReporting]
  exact foldlM_moved (fun _ item => item.applyToClass_moved) cls remark.attributes

end Applied

/-! ### Macros -/

namespace Invocation

variable {invocation : Invocation}

/-- The same invocation further on. -/
def moved (amount : Nat) (invocation : Invocation) : Invocation :=
  { invocation with
    arguments := invocation.arguments.map (Excerpt.moved amount)
    closeOffset := invocation.closeOffset + amount }

theorem slot?_moved (index : Nat) :
    (invocation.moved amount).slot? index = invocation.slot? index := by
  unfold slot? moved
  rw [List.getElem?_map, Option.map_map]
  rfl

theorem rest_moved (start : Nat) :
    (invocation.moved amount).rest start = invocation.rest start := by
  unfold rest moved
  rw [← List.map_drop, List.map_map]
  rfl

theorem required_moved (index : Nat) (slot : Slot) :
    (invocation.moved amount).required index slot =
      relocated amount id (invocation.required index slot) := by
  unfold required
  rw [slot?_moved]
  cases invocation.slot? index with
  | some text => rfl
  | none =>
    dsimp only [moved]
    rw [List.getElem?_map]
    cases invocation.arguments[index]? <;> rfl

theorem fill_moved (type : MacroType) (property : Property) :
    (invocation.moved amount).fill type property =
      relocated amount id (invocation.fill type property) := by
  unfold fill
  split
  · rfl
  · unfold fillScalar nameOr optional
    rw [required_moved]
    refine relocated_bind fun type1 => ?_
    simp only [slot?_moved, rest_moved]
    rfl
  · unfold fillCollection nameOr optional
    rw [required_moved]
    refine relocated_bind fun type1 => ?_
    simp only [slot?_moved, required_moved]
    split
    · exact relocated_bind fun type2 => rfl
    · rfl
  · unfold fillManager nameOr
    rw [required_moved]
    refine relocated_bind fun type1 => ?_
    simp only [slot?_moved, rest_moved]
    rfl
  · unfold fillAction optional
    rw [required_moved]
    refine relocated_bind fun propertyName => ?_
    simp only [slot?_moved]
    rfl

theorem group_moved (keyword : Text) (excerpt : Excerpt) :
    group keyword (excerpt.moved amount) =
      relocated amount (fun found => (found.1, found.2.moved amount)) (group keyword excerpt) := by
  unfold group
  rw [Excerpt.balanced?_moved]
  cases excerpt.balanced? quotes <;> rfl

theorem ofGroup_moved (keyword group : Text) (offset : Nat) :
    ofGroup keyword group (offset + amount) = (ofGroup keyword group offset).moved amount := by
  unfold ofGroup moved
  dsimp only
  rw [← Excerpt.arguments_moved, Excerpt.moved, Nat.add_right_comm offset amount,
    Nat.add_right_comm offset amount]

end Invocation

namespace Extractor

variable {extractor : Extractor}

theorem applyMacro_moved (comment : Excerpt) (property : Property) :
    (extractor.applyMacro (comment.moved amount) property).result =
      relocated amount (fun found => (found.1, found.2.moved amount))
        (extractor.applyMacro comment property).result := by
  unfold applyMacro
  rw [show extractor.invoked? (comment.moved amount) = extractor.invoked? comment from rfl]
  cases extractor.invoked? comment with
  | none => rfl
  | some found =>
    obtain ⟨keyword, type⟩ := found
    simp only [applyInvocation, Outcome.result_bind, Outcome.result_lift, Outcome.result_reportIf,
      Outcome.result_pure]
    rw [show (comment.moved amount).text = comment.text from rfl, Excerpt.skip_moved,
      Invocation.group_moved]
    refine relocated_bind fun read => ?_
    dsimp only
    rw [Excerpt.moved, Invocation.ofGroup_moved, Invocation.fill_moved]
    exact relocated_bind fun filled => rfl

/-- **The comment of a member** says the same wherever it stands. -/
theorem annotate_moved (comment : Excerpt) (property : Property) :
    (extractor.annotate (comment.moved amount) property).result =
      relocated amount id (extractor.annotate comment property).result := by
  simp only [annotate, Outcome.result_bind, Outcome.result_lift]
  rw [Excerpt.skipBlanks_moved, applyMacro_moved]
  refine relocated_bind fun filled => ?_
  dsimp only
  rw [Remark.ofExcerpt_moved]
  exact relocated_bind fun remark => remark.applyToMember_moved

/-- **A comment of a declaration** says the same wherever it stands. -/
theorem applyComment_moved (state : Class × List Text) (comment : Excerpt) :
    (applyComment state (comment.moved amount)).result =
      relocated amount id (applyComment state comment).result := by
  simp only [applyComment, Outcome.result_bind, Outcome.result_lift, Outcome.result_pure]
  rw [Remark.ofExcerpt_moved]
  refine relocated_bind fun remark => ?_
  rw [Remark.applyToClass_moved, Remark.rawCommand_moved]
  exact relocated_bind fun changed => rfl

end Extractor

end Scaffold
