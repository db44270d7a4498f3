/-
**Values decide nothing.**

Whether a source is extracted depends on its comments and not on the values of its members: the
rest of a body is read in the same way whatever value is due (`Outline.body_of_due`), and a
declaration can be described if its comments can be read (`Extractor.accepts_iff_of_notes`). So
another value may be written for a member (`Outline.Entered.sameNotes`), and a source with it is
extracted exactly if the one before was (`Extractor.exists_parse_iff_of_sameNotes`).
-/

import Scaffold.Proofs.Extraction.Valued

namespace Scaffold

/-! ### Comments of declarations -/

theorem forall_mem_iff_of_forall₂ {α β : Type} {holds : α → Prop} {other : β → Prop}
    {first : List α} {second : List β}
    (same : List.Forall₂ (fun item other' => holds item ↔ other other') first second) :
    (∀ item ∈ first, holds item) ↔ ∀ item ∈ second, other item := by
  induction same with
  | nil => exact iff_of_true nofun nofun
  | cons here more ih => rw [List.forall_mem_cons, List.forall_mem_cons, ih, here]

/-- The comments of a declaration and those of its members. -/
def Declaration.notes (declaration : Declaration) : List Excerpt × List (Option Excerpt) :=
  (declaration.comments, declaration.members.map Member.comment)

/-- Two outlines with the same comments, up to places, that both have a defect or both have none. -/
structure Outline.SameNotes (first second : Outline) : Prop where
  defect : first.defect = none ↔ second.defect = none
  notes : (Redaction.unplaced.outline first).declarations.map Declaration.notes =
    (Redaction.unplaced.outline second).declarations.map Declaration.notes

/-- A declaration with comments and nothing else. -/
def Declaration.ofNotes (notes : List Excerpt × List (Option Excerpt)) : Declaration :=
  ⟨[], [], notes.1, notes.2.map fun comment => ⟨[], 0, comment⟩⟩

theorem Declaration.ofNotes_redacted (redaction : Redaction) (declaration : Declaration) :
    redaction.declaration (ofNotes declaration.notes) =
      ofNotes (redaction.declaration declaration).notes := by
  simp only [Redaction.declaration, ofNotes, notes, List.map_map]
  rfl

namespace Extractor

variable {extractor : Extractor}

theorem accepts_ofNotes_iff (declaration : Declaration) :
    extractor.Accepts (.ofNotes declaration.notes) ↔ extractor.Accepts declaration := by
  have members : (∀ member ∈ (Declaration.ofNotes declaration.notes).members,
      ∀ comment ∈ member.comment, ∃ rest, extractor.Leaves comment.skipBlanks rest ∧
        rest.IsRemark Attribute.FitsMember) ↔
      ∀ member ∈ declaration.members, ∀ comment ∈ member.comment,
        ∃ rest, extractor.Leaves comment.skipBlanks rest ∧ rest.IsRemark Attribute.FitsMember := by
    simp only [Declaration.ofNotes, Declaration.notes, List.map_map, List.forall_mem_map,
      Function.comp_apply]
  exact ⟨fun accepts => ⟨accepts.comments, members.mp accepts.members⟩,
    fun accepts => ⟨accepts.comments, members.mpr accepts.members⟩⟩

/-- **Which declarations can be described** depends on what their comments say. -/
theorem accepts_iff_of_notes {first second : Declaration}
    (same : (Redaction.unplaced.declaration first).notes =
      (Redaction.unplaced.declaration second).notes) :
    extractor.Accepts first ↔ extractor.Accepts second := by
  rw [← accepts_ofNotes_iff first, ← accepts_ofNotes_iff second, ← exists_describe_iff,
    ← exists_describe_iff]
  refine exists_congr (describe_agree Redaction.unplaced_keepsMeaning ?_)
  rw [Declaration.ofNotes_redacted, Declaration.ofNotes_redacted, same]

theorem exists_parse_iff {source : Text} {tokens : Tokens}
    (cut : Token.tokenize source = .ok tokens) :
    (∃ classes, extractor.parse source = .ok classes) ↔
      (Outline.ofSource source tokens).defect = none ∧
        ∀ declaration ∈ (Outline.ofSource source tokens).declarations,
          extractor.Accepts declaration := by
  simp only [parse_ok_iff_of_tokenize cut, exists_and_left, exists_forall₂_iff, exists_describe_iff]

/-- **A source is extracted** if one with the same comments is. -/
theorem exists_parse_iff_of_sameNotes {first second : Text} {tokens others : Tokens}
    (cut : Token.tokenize first = .ok tokens) (cutOther : Token.tokenize second = .ok others)
    (same : Outline.SameNotes (.ofSource first tokens) (.ofSource second others)) :
    (∃ classes, extractor.parse first = .ok classes) ↔
      ∃ classes, extractor.parse second = .ok classes := by
  rw [exists_parse_iff cut, exists_parse_iff cutOther]
  refine and_congr same.defect ?_
  have notes := same.notes
  unfold Outline.declarations Redaction.outline at notes
  rw [Redaction.filterMap_item, Redaction.filterMap_item, List.map_map, List.map_map,
    map_eq_map_iff] at notes
  exact forall_mem_iff_of_forall₂ (notes.imp fun _ _ here => accepts_iff_of_notes here)

end Extractor

namespace Outline

/-! ### Outlines with the same comments -/

theorem SameNotes.of_unplaced {first second : Outline}
    (same : Redaction.unplaced.outline first = Redaction.unplaced.outline second) :
    SameNotes first second := by
  refine ⟨?_, by rw [same]⟩
  rw [← Option.map_eq_none_iff, (Outline.mk.inj same).2, Option.map_eq_none_iff]

theorem SameNotes.continuing {first second : Outline} (same : SameNotes first second)
    (items : List OutlineItem) :
    SameNotes (Outline.continuing items first) (Outline.continuing items second) := by
  refine ⟨same.defect, ?_⟩
  have notes := same.notes
  unfold Outline.declarations Redaction.outline at notes ⊢
  unfold Outline.continuing
  simp only [List.map_append, List.filterMap_append, notes]

theorem SameNotes.declaration {first second : Outline} (same : SameNotes first second)
    {item other : Declaration}
    (notes : (Redaction.unplaced.declaration item).notes =
      (Redaction.unplaced.declaration other).notes) :
    SameNotes (first.startingWith (.declaration item))
      (second.startingWith (.declaration other)) := by
  refine ⟨same.defect, ?_⟩
  exact congrArg₂ List.cons notes same.notes

open Tokens

variable {sourceEnd otherEnd : Nat}

/-- **The rest of a body** does not depend on the value that is due, but for the values in it. -/
theorem body_of_due (sourceEnd : Nat) (declaration : Text) (seen : List Text) (tokens : Tokens)
    (first second : Int) :
    (body sourceEnd declaration seen first tokens).members.map Member.comment =
        (body sourceEnd declaration seen second tokens).members.map Member.comment ∧
      (body sourceEnd declaration seen first tokens).after =
        (body sourceEnd declaration seen second tokens).after := by
  fun_induction body sourceEnd declaration seen first tokens generalizing second with
  | case1 seen first tokens shorter next =>
    rw [body_eq declaration seen second, next]
    exact ⟨rfl, rfl⟩
  | case2 seen first tokens shorter token rest next inner kind =>
    rw [body_eq declaration seen second, next]
    simp only [kind, and_self]
  | case3 seen first tokens shorter token rest next inner kind bounded ih =>
    rw [body_eq declaration seen second, next]
    simp only [kind]
    exact ih second
  | case4 seen first tokens shorter token rest next inner kind taken =>
    rw [body_eq declaration seen second, next]
    simp only [kind, taken, if_true, and_self]
  | case5 seen first tokens shorter token rest next inner kind isNew defect valued =>
    rw [body_eq declaration seen second, next]
    simp only [kind, isNew, if_false, valued, and_self]
  | case6 seen first tokens shorter token rest next inner kind isNew value after valued comment
      later trailing bounded fits own more ih =>
    rw [body_eq declaration seen second, next]
    simp only [kind, isNew, if_false, valued, trailing, List.map_cons, List.cons.injEq, true_and]
    exact ih _
  | case7 seen first tokens shorter token rest next inner noClose noHash noName =>
    rw [body_eq declaration seen second, next]
    cases kind : token.kind <;> simp_all

theorem afterMember_redacted (redaction : Redaction) (tokens : Tokens) :
    afterMember (redaction.tokens tokens) = redaction.tokens (afterMember tokens) := by
  unfold afterMember
  rw [skipSpacing_redacted, dropOne_redacted, trailingComment_redacted]

namespace Entered

variable {entered : Entered} {tokens others : Tokens}

/-- What a body says about the comments of an outline. -/
theorem sameNotes_of_body
    (comments : (body sourceEnd entered.name entered.seen entered.due tokens).members.map
        (fun member => (Redaction.unplaced.member member).comment) =
      (body otherEnd entered.name entered.seen entered.due others).members.map
        (fun member => (Redaction.unplaced.member member).comment))
    (afterwards : redacting Redaction.unplaced.tokens
        (body sourceEnd entered.name entered.seen entered.due tokens).after =
      redacting Redaction.unplaced.tokens
        (body otherEnd entered.name entered.seen entered.due others).after) :
    SameNotes (entered.outline sourceEnd tokens) (entered.outline otherEnd others) := by
  cases read : (body sourceEnd entered.name entered.seen entered.due tokens).after with
  | error defect =>
    cases readOther : (body otherEnd entered.name entered.seen entered.due others).after with
    | error otherDefect =>
      rw [outline, outline, read, readOther]
      exact ⟨iff_of_false (Option.some_ne_none _) (Option.some_ne_none _), rfl⟩
    | ok last =>
      rw [read, readOther] at afterwards
      cases afterwards
  | ok last =>
    cases readOther : (body otherEnd entered.name entered.seen entered.due others).after with
    | error defect =>
      rw [read, readOther] at afterwards
      cases afterwards
    | ok otherLast =>
      rw [read, readOther] at afterwards
      have same : Redaction.unplaced.tokens last = Redaction.unplaced.tokens otherLast :=
        Except.ok.inj afterwards
      rw [outline_of_after read, outline_of_after readOther]
      refine SameNotes.declaration (.of_unplaced ?_) (congrArg (Prod.mk _) ?_)
      · rw [← ofTokens_redacted, same, ofTokens_redacted]
      · simp only [Redaction.declaration, declaration, List.map_map, List.map_append]
        exact congrArg (List.map _ entered.members ++ ·) comments

/-- **Another value** for a member leaves the comments as they are. -/
theorem sameNotes {name : Token} {after later : Tokens} {value other : Int}
    (kind : name.kind = .identifier) (isNew : name.text ∉ entered.seen)
    (valued : memberValue sourceEnd name.text tokens = .ok (some value, after))
    (valuedOther : memberValue otherEnd name.text others = .ok (some other, later))
    (same : Redaction.unplaced.tokens after = Redaction.unplaced.tokens later) :
    SameNotes (entered.outline sourceEnd (name :: tokens))
      (entered.outline otherEnd (name :: others)) := by
  have sameComment : (after.skipSpacing.dropOne .comma).trailingComment.1.map
        Redaction.unplaced.excerpt =
      (later.skipSpacing.dropOne .comma).trailingComment.1.map Redaction.unplaced.excerpt := by
    have unfolded := congrArg (fun tokens => (tokens.skipSpacing.dropOne .comma).trailingComment.1)
      same
    simpa only [skipSpacing_redacted, dropOne_redacted, trailingComment_redacted] using unfolded
  have sameBody : Redaction.unplaced.body (body sourceEnd entered.name (name.text :: entered.seen)
        (nextOrdinal value) (afterMember after)) =
      Redaction.unplaced.body (body otherEnd entered.name (name.text :: entered.seen)
        (nextOrdinal value) (afterMember later)) := by
    rw [← body_redacted, ← afterMember_redacted, same, afterMember_redacted, body_redacted]
  obtain ⟨comments, afterwards⟩ := body_of_due otherEnd entered.name (name.text :: entered.seen)
    (afterMember later) (nextOrdinal value) (nextOrdinal other)
  obtain ⟨sameMembers, sameAfter⟩ := Body.mk.inj sameBody
  refine sameNotes_of_body ?_ ?_
  · rw [body_of_member kind isNew valued, body_of_member kind isNew valuedOther]
    refine congrArg₂ List.cons sameComment ?_
    have listed := congrArg (List.map Member.comment) sameMembers
    rw [List.map_map, List.map_map] at listed
    refine listed.trans ?_
    have redacted := congrArg (List.map (Option.map Redaction.unplaced.excerpt)) comments
    rwa [List.map_map, List.map_map] at redacted
  · rw [body_of_member kind isNew valued, body_of_member kind isNew valuedOther]
    exact sameAfter.trans (congrArg (redacting _) afterwards)

end Entered

end Outline

end Scaffold
