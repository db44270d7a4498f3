/-
**What comments say takes no part in reading.**

A silenced token is one without its place, and without its text if it is a comment. What is left of
two sources is the same exactly if they differ in nothing but what their comments say
(`silenced_eq_iff`). Silencing is a redaction, so the outline of silenced tokens is the outline of
the tokens, silenced (`ofTokens_silenced`, `ofSource_silenced`): a comment never hides a defect and
never is the cause of one while the outline is read.
-/

import Scaffold.Proofs.Extraction.Redaction

namespace Scaffold

/-! ### Silenced tokens -/

/-- An excerpt that says nothing and stands nowhere. -/
def Excerpt.silent : Excerpt := ⟨[], 0⟩

namespace Token

/-- A token without its place, and without its text if it is a comment. -/
def silenced (token : Token) : Token :=
  ⟨token.kind, if token.kind.isComment then [] else token.text, 0⟩

/-- Two tokens of one kind, and of one text unless they are comments. -/
def Alike (first second : Token) : Prop :=
  first.kind = second.kind ∧ (first.kind.isComment = false → first.text = second.text)

instance (first second : Token) : Decidable (first.Alike second) :=
  inferInstanceAs (Decidable (_ ∧ _))

theorem silenced_eq_iff {first second : Token} :
    first.silenced = second.silenced ↔ first.Alike second := by
  rw [silenced, silenced, Alike, Token.mk.injEq]
  constructor
  · rintro ⟨kind, text, -⟩
    refine ⟨kind, fun solid => ?_⟩
    rwa [← kind, solid, if_neg Bool.false_ne_true, if_neg Bool.false_ne_true] at text
  · rintro ⟨kind, text⟩
    refine ⟨kind, ?_, rfl⟩
    rw [← kind]
    by_cases comment : first.kind.isComment = true
    · rw [if_pos comment, if_pos comment]
    · rw [if_neg comment, if_neg comment, text (Bool.eq_false_iff.mpr comment)]

end Token

/-- Silencing as a redaction: nothing is left of what a comment says. -/
def Redaction.silence : Redaction where
  text token := if token.kind.isComment then [] else token.text
  excerpt _ := .silent
  text_eq := by
    rintro token (name | number)
    · rw [name]
      rfl
    · rw [number]
      rfl
  ofComment_eq isComment := by
    rw [if_pos isComment]
    rfl

namespace Tokens

/-- Tokens without their places, and without what comments say. -/
def silenced (tokens : Tokens) : Tokens := tokens.map Token.silenced

theorem silenced_eq_iff {first second : Tokens} :
    first.silenced = second.silenced ↔ List.Forall₂ Token.Alike first second := by
  rw [silenced, silenced, map_eq_map_iff]
  simp only [Token.silenced_eq_iff]

end Tokens

/-! ### Silenced outlines -/

def Member.silenced (member : Member) : Member :=
  { member with comment := member.comment.map fun _ => .silent }

def Declaration.silenced (declaration : Declaration) : Declaration :=
  { declaration with
    comments := declaration.comments.map fun _ => .silent
    members := declaration.members.map Member.silenced }

def OutlineItem.silenced : OutlineItem → OutlineItem
  | scope path depth => .scope path depth
  | forward name => .forward name
  | declaration item => .declaration item.silenced
  | unfinished item => .unfinished item.silenced

namespace Outline

/-- An outline without places and without what comments say. -/
def silenced (outline : Outline) : Outline :=
  ⟨outline.items.map OutlineItem.silenced, outline.defect.map Defect.unplaced⟩

/-- **The outline of silenced tokens** is the silenced outline: the same namespaces, declarations
and members, and the same defect where there is one. -/
theorem ofTokens_silenced (sourceEnd : Nat) (scopes : List Scope) (depth : Nat) (tokens : Tokens) :
    ofTokens 0 scopes depth tokens.silenced =
      (ofTokens sourceEnd scopes depth tokens).silenced := by
  have same : Redaction.silence.item = OutlineItem.silenced := by
    funext item
    cases item <;> rfl
  rw [silenced, ← same]
  exact ofTokens_redacted Redaction.silence sourceEnd scopes depth tokens

/-- The outline of a source does not depend on what its comments say, nor on where they end. -/
theorem ofSource_silenced (source : Text) (tokens : Tokens) :
    ofTokens 0 [] 0 tokens.silenced = (ofSource source tokens).silenced :=
  ofTokens_silenced source.size [] 0 tokens

end Outline

end Scaffold
