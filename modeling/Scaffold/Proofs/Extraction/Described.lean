/-
**Classes are descriptions of declarations.**

A source is extracted exactly if it can be cut into tokens, its outline has no defect, and each of
the declarations in it can be described; its classes are those descriptions, in their order
(`parse_ok_iff`). A description depends on what comments say, so the classes of a source are those of
any other with the same outline up to what has no meaning (`parse_ok_iff_of_redacted`). The places of
comments have none (`Redaction.unplaced_keepsMeaning`).
-/

import Scaffold.Proofs.Extraction.Ordinals
import Scaffold.Proofs.Extraction.Relocation

namespace Scaffold

/-! ### Declarations of a source -/

namespace Outline

/-- The enums with a body that an outline lists. -/
def declarations (outline : Outline) : List Declaration :=
  outline.items.filterMap OutlineItem.declaration?

/-- Only a defect leaves the body of an enum unfinished. -/
theorem Walks.finished {sourceEnd : Nat} {tokens : Tokens} {outline : Outline}
    (walks : Walks sourceEnd tokens outline) (complete : outline.defect = none) :
    ∀ item ∈ outline.items, ¬ item.IsUnfinished := by
  induction walks with
  | ended => exact nofun
  | failed | unfinished => cases complete
  | skipped suffix walks ih => exact ih complete
  | scope walks ih | forward walks ih | declaration word head ended walks ih =>
    exact List.forall_mem_cons.mpr ⟨nofun, ih complete⟩

end Outline

namespace Extractor

variable {extractor : Extractor} {source : Text} {classes : List Class}

theorem parse_ok_iff_of_tokenize {tokens : Tokens} (cut : Token.tokenize source = .ok tokens) :
    extractor.parse source = .ok classes ↔
      (Outline.ofSource source tokens).defect = none ∧
        List.Forall₂ (fun declaration cls => (extractor.describe declaration).result = .ok cls)
          (Outline.ofSource source tokens).declarations classes := by
  have described (complete : (Outline.ofSource source tokens).defect = none) :
      extractor.parse source = .ok classes ↔
        List.Forall₂ (fun declaration cls => (extractor.describe declaration).result = .ok cls)
          (Outline.ofSource source tokens).declarations classes := by
    have outlined : Outline.ofSource source tokens =
        ⟨(Outline.ofSource source tokens).items, none⟩ := by rw [← complete]
    exact parse_eq_ok_iff cut outlined
      ((Outline.walks_ofTokens source.size [] 0 tokens).finished complete)
  constructor
  · intro parsed
    obtain ⟨others, again, outlined⟩ := outline_of_parse parsed
    cases cut.symm.trans again
    have complete := defect_eq_none_of_outline outlined
    exact ⟨complete, (described complete).mp parsed⟩
  · rintro ⟨complete, listed⟩
    exact (described complete).mpr listed

/-- **The classes of a source** are the descriptions of the declarations in its outline. -/
theorem parse_ok_iff : extractor.parse source = .ok classes ↔
    ∃ tokens, Token.tokenize source = .ok tokens ∧
      (Outline.ofSource source tokens).defect = none ∧
      List.Forall₂ (fun declaration cls => (extractor.describe declaration).result = .ok cls)
        (Outline.ofSource source tokens).declarations classes := by
  constructor
  · intro parsed
    obtain ⟨tokens, cut, -⟩ := outline_of_parse parsed
    exact ⟨tokens, cut, (parse_ok_iff_of_tokenize cut).mp parsed⟩
  · rintro ⟨tokens, cut, listed⟩
    exact (parse_ok_iff_of_tokenize cut).mpr listed

end Extractor

/-! ### Declarations up to places -/

/-- What a comment says is put behind one mark and a blank. -/
theorem Excerpt.ofComment_spaced (text : Text) :
    ofComment ("// ".toList ++ text) 0 = ⟨' ' :: text, 2⟩ := by
  have size : Text.size ("// ".toList ++ text) - Text.size (' ' :: text) = 2 := by
    rw [show "// ".toList ++ text = "//".toList ++ ' ' :: text from rfl, Text.size_append,
      Nat.add_sub_cancel]
    rfl
  rw [ofComment, commentBody]
  show Excerpt.mk _ (0 + (Text.size _ - Text.size _)) = _
  rw [Nat.zero_add]
  exact congrArg _ size

/-- A redaction that hides nothing but places. -/
def Redaction.unplaced : Redaction where
  text token :=
    if token.kind.isComment then "// ".toList ++ (Tokens.comment token).text else token.text
  excerpt excerpt := ⟨' ' :: excerpt.text, 2⟩
  text_eq := by
    rintro token (name | number)
    · rw [name]
      rfl
    · rw [number]
      rfl
  ofComment_eq isComment := by rw [if_pos isComment, Excerpt.ofComment_spaced]

theorem Excerpt.unplaced_eq_iff {first second : Excerpt} :
    Redaction.unplaced.excerpt first = Redaction.unplaced.excerpt second ↔
      first.text = second.text := by
  constructor
  · intro same
    exact List.tail_eq_of_cons_eq (congrArg Excerpt.text same)
  · intro same
    exact congrArg (fun text => Excerpt.mk (' ' :: text) 2) same

theorem Redaction.filterMap_item (redaction : Redaction) (items : List OutlineItem) :
    (items.map redaction.item).filterMap OutlineItem.declaration? =
      (items.filterMap OutlineItem.declaration?).map redaction.declaration := by
  rw [List.filterMap_map, List.map_filterMap]
  congr 1
  funext item
  cases item <;> rfl

/-- Tokens of the same kinds and texts differ in their places only. -/
theorem Tokens.unplaced_eq {first second : Tokens}
    (same : List.Forall₂ (fun token other => token.kind = other.kind ∧ token.text = other.text)
      first second) : Redaction.unplaced.tokens first = Redaction.unplaced.tokens second := by
  refine map_eq_map_iff.mpr (same.imp ?_)
  rintro ⟨kind, text, offset⟩ ⟨otherKind, otherText, otherOffset⟩ ⟨rfl, rfl⟩
  rfl

/-- The outline of a source, up to places, is that of its tokens up to places. -/
theorem Outline.ofSource_unplaced (source : Text) (tokens : Tokens) :
    Redaction.unplaced.outline (ofSource source tokens) =
      ofTokens 0 [] 0 (Redaction.unplaced.tokens tokens) :=
  (ofTokens_redacted Redaction.unplaced source.size [] 0 tokens).symm

/-! ### Descriptions up to places -/

/-- Two results of which one succeeds exactly if the other does, with the same value. -/
def Agree {α : Type} (first second : Except Defect α) : Prop :=
  ∀ value, first = .ok value ↔ second = .ok value

namespace Agree

variable {α β γ : Type}

theorem refl (result : Except Defect α) : Agree result result := fun _ => Iff.rfl

theorem bind {first second : Except Defect α} {next following : α → Except Defect β}
    (agree : Agree first second) (later : ∀ value, Agree (next value) (following value)) :
    Agree (first >>= next) (second >>= following) := by
  intro result
  rw [bind_eq_ok_iff, bind_eq_ok_iff]
  exact exists_congr fun value => and_congr (agree value) (later value result)

theorem foldlM {related : β → β → Prop} {step : α → β → Except Defect α} {items others : List β}
    (same : List.Forall₂ related items others)
    (each : ∀ state item other, related item other → Agree (step state item) (step state other))
    (state : α) :
    Agree (items.foldlM step state) (others.foldlM step state) := by
  induction same generalizing state with
  | nil => exact refl _
  | cons first rest ih =>
    rw [List.foldlM_cons, List.foldlM_cons]
    exact (each state _ _ first).bind ih

theorem mapM {related : β → β → Prop} {step : β → Except Defect γ} {items others : List β}
    (same : List.Forall₂ related items others)
    (each : ∀ item other, related item other → Agree (step item) (step other)) :
    Agree (items.mapM step) (others.mapM step) := by
  induction same with
  | nil => exact refl _
  | cons first rest ih =>
    rw [List.mapM_cons, List.mapM_cons]
    exact (each _ _ first).bind fun value => ih.bind fun values => refl _

/-- What agrees wherever an excerpt is moved to depends on its text alone. -/
theorem of_moved (read : Excerpt → Except Defect α)
    (moves : ∀ amount excerpt, read (excerpt.moved amount) = relocated amount id (read excerpt))
    {first second : Excerpt} (same : first.text = second.text) :
    Agree (read first) (read second) := by
  have settled : ∀ excerpt : Excerpt, Agree (read excerpt) (read ⟨excerpt.text, 0⟩) := by
    intro excerpt value
    have here : read excerpt = relocated excerpt.offset id (read ⟨excerpt.text, 0⟩) := by
      rw [← moves, Excerpt.moved, Nat.zero_add]
    exact relocated_ok_iff here
  intro value
  rw [settled first value, settled second value, same]

end Agree

/-- What a redaction hides has no meaning: comments that are the same without it do the same to
members and to classes. -/
structure Redaction.KeepsMeaning (redaction : Redaction) : Prop where
  annotate_agree (extractor : Extractor) {first second : Excerpt} (property : Property)
    (same : redaction.excerpt first = redaction.excerpt second) :
    Agree (extractor.annotate first property).result (extractor.annotate second property).result
  applyComment_agree {first second : Excerpt} (state : Class × List Text)
    (same : redaction.excerpt first = redaction.excerpt second) :
    Agree (Extractor.applyComment state first).result (Extractor.applyComment state second).result

theorem Redaction.unplaced_keepsMeaning : Redaction.unplaced.KeepsMeaning where
  annotate_agree extractor _ _ property same :=
    .of_moved (fun comment => (extractor.annotate comment property).result)
      (fun _ _ => Extractor.annotate_moved _ _) (Excerpt.unplaced_eq_iff.mp same)
  applyComment_agree state same :=
    .of_moved (fun comment => (Extractor.applyComment state comment).result)
      (fun _ _ => Extractor.applyComment_moved _ _) (Excerpt.unplaced_eq_iff.mp same)

namespace Extractor

variable {extractor : Extractor} {redaction : Redaction}

theorem property_agree (keeps : redaction.KeepsMeaning) {first second : Member}
    (same : redaction.member first = redaction.member second) :
    Agree (extractor.property first).result (extractor.property second).result := by
  obtain ⟨name, ordinal, comment⟩ := first
  obtain ⟨otherName, otherOrdinal, otherComment⟩ := second
  simp only [Redaction.member, Member.mk.injEq] at same
  obtain ⟨rfl, rfl, texts⟩ := same
  cases comment with
  | none =>
    cases otherComment with
    | none => exact .refl _
    | some other => cases texts
  | some comment =>
    cases otherComment with
    | none => cases texts
    | some other => exact keeps.annotate_agree extractor _ (Option.some.inj texts)

/-- **A description** depends on the meaning of the comments alone. -/
theorem describe_agree (keeps : redaction.KeepsMeaning) {first second : Declaration}
    (same : redaction.declaration first = redaction.declaration second) :
    Agree (extractor.describe first).result (extractor.describe second).result := by
  obtain ⟨path, name, comments, members⟩ := first
  obtain ⟨otherPath, otherName, otherComments, otherMembers⟩ := second
  simp only [Redaction.declaration, Declaration.mk.injEq] at same
  obtain ⟨rfl, rfl, sameComments, sameMembers⟩ := same
  simp only [describe, classHead, Outcome.result_bind, Outcome.result_mapM,
    Outcome.result_foldlM, Outcome.result_pure]
  refine .bind (.bind ?_ fun _ => .refl _) fun head => .bind ?_ fun _ => .refl _
  · exact .foldlM (map_eq_map_iff.mp sameComments)
      (fun state comment other texts => keeps.applyComment_agree state texts) _
  · exact .mapM (map_eq_map_iff.mp sameMembers) fun _ _ => property_agree keeps

/-- **The classes of a source** are those of any source whose outline says the same. -/
theorem parse_ok_iff_of_redacted (keeps : redaction.KeepsMeaning) {first second : Text}
    {tokens others : Tokens} {classes : List Class} (cut : Token.tokenize first = .ok tokens)
    (cutOther : Token.tokenize second = .ok others)
    (same : redaction.outline (.ofSource first tokens) =
      redaction.outline (.ofSource second others)) :
    extractor.parse first = .ok classes ↔ extractor.parse second = .ok classes := by
  obtain ⟨items, defect⟩ := Outline.mk.inj same
  have complete : (Outline.ofSource first tokens).defect = none ↔
      (Outline.ofSource second others).defect = none := by
    rw [← Option.map_eq_none_iff, defect, Option.map_eq_none_iff]
  have listed := congrArg (List.filterMap OutlineItem.declaration?) items
  rw [Redaction.filterMap_item, Redaction.filterMap_item, map_eq_map_iff] at listed
  rw [parse_ok_iff_of_tokenize cut, parse_ok_iff_of_tokenize cutOther, complete]
  refine and_congr_right fun _ => ?_
  rw [← mapM_eq_ok_iff, ← mapM_eq_ok_iff]
  exact Agree.mapM listed (fun _ _ => describe_agree keeps) classes

/-- **The classes of a source** are those of any source with the same outline up to places. -/
theorem parse_ok_iff_of_unplaced {first second : Text} {tokens others : Tokens}
    {classes : List Class} (cut : Token.tokenize first = .ok tokens)
    (cutOther : Token.tokenize second = .ok others)
    (same : Redaction.unplaced.outline (.ofSource first tokens) =
      Redaction.unplaced.outline (.ofSource second others)) :
    extractor.parse first = .ok classes ↔ extractor.parse second = .ok classes :=
  parse_ok_iff_of_redacted Redaction.unplaced_keepsMeaning cut cutOther same

end Extractor

end Scaffold
