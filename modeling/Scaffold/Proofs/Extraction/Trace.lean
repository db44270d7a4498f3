/-
**What a walk over a source meets.**

The outline of a source is described without the braces and namespaces that are open on the way.
Reading members is a chain of members from the start of a body on (`Lists`); it ends with a defect
of the form of the source, or at a member whose name is one of those before it
(`lists_of_body_error`). A walk skips tokens or passes enums (`Walks`), and every outline comes from
such a walk (`walks_ofTokens`). Statements about all comments or all defects of an outline are
inductions on it.
-/

import Scaffold.Proofs.Extraction.Cursor
import Scaffold.Proofs.Extraction.Silence

namespace Scaffold

/-- A defect in the form of a source: not in what its comments say, and no name that comes again. -/
def Defect.IsStructural (defect : Defect) : Prop :=
  match defect.cause with
  | .malformed (.missingIdentifier _) | .malformed .missingNamespaceBody
  | .malformed (.missingBody _) | .malformed (.unclosedBody _) | .malformed (.missingMember _)
  | .malformed (.valueNotInteger _) => True
  | _ => False

/-- The comments of a declaration and those of its members. -/
def Declaration.allComments (declaration : Declaration) : List Excerpt :=
  declaration.comments ++ declaration.members.filterMap Member.comment

/-- The comments that an entry of an outline keeps. -/
def OutlineItem.allComments : OutlineItem → List Excerpt
  | declaration item | unfinished item => item.allComments
  | scope _ _ | forward _ => []

namespace Outline

open Tokens

variable {sourceEnd : Nat} {tokens rest : Tokens} {defect : Defect}

/-! ### Defects of heads -/

theorem isStructural_of_namespaceHead (failed : namespaceHead sourceEnd tokens = .error defect) :
    defect.IsStructural := by
  unfold namespaceHead at failed
  dsimp only at failed
  split at failed
  · cases failed
    exact trivial
  · split at failed <;> cases failed
    exact trivial

theorem isStructural_of_declarationHead {name : Text}
    (failed : declarationHead sourceEnd name tokens = .error defect) : defect.IsStructural := by
  fun_induction declarationHead sourceEnd name tokens with
  | case1 | case7 =>
    cases failed
    exact trivial
  | case2 | case3 => cases failed
  | case4 tokens shorter token later next inner kind ih
  | case5 tokens shorter token later next inner kind ih
  | case6 tokens shorter token later next inner kind ih =>
    exact ih (map_eq_error_iff.mp failed)

theorem isStructural_of_memberValue {member : Text}
    (failed : memberValue sourceEnd member tokens = .error defect) : defect.IsStructural := by
  have signed : ∀ tokens, signedValue sourceEnd member tokens = .error defect →
      defect.IsStructural := by
    intro tokens failed
    unfold signedValue at failed
    dsimp only at failed
    split at failed
    · cases failed
      exact trivial
    · split at failed <;> cases failed
      exact trivial
  unfold memberValue at failed
  split at failed
  · cases failed
  · rename_i token later next
    split at failed
    · exact signed later (map_eq_error_iff.mp failed)
    · cases failed

/-! ### Members -/

/-- From the tokens on, members with these name tokens are read up to the rest. -/
inductive Lists (sourceEnd : Nat) : Tokens → List Token → Tokens → Prop
  | nil (tokens : Tokens) : Lists sourceEnd tokens [] tokens
  | trivia {tokens rest : Tokens} {names : List Token}
      (lists : Lists sourceEnd tokens.skipTrivia names rest) : Lists sourceEnd tokens names rest
  | line {hash : Token} {tokens rest : Tokens} {names : List Token} (kind : hash.kind = .hash)
      (lists : Lists sourceEnd tokens.skipLine names rest) :
      Lists sourceEnd (hash :: tokens) names rest
  | member {name : Token} {value : Option Int} {tokens after rest : Tokens} {names : List Token}
      (kind : name.kind = .identifier)
      (valued : memberValue sourceEnd name.text tokens = .ok (value, after))
      (lists : Lists sourceEnd (afterMember after) names rest) :
      Lists sourceEnd (name :: tokens) (name :: names) rest

/-- The name tokens are among those that are read, in their order. -/
theorem Lists.exists_append {names : List Token} (lists : Lists sourceEnd tokens names rest) :
    ∃ passed, tokens = passed ++ rest ∧ names.Sublist passed := by
  induction lists with
  | nil tokens => exact ⟨[], rfl, List.Sublist.slnil⟩
  | @trivia tokens rest names lists ih =>
    obtain ⟨passed, same, listed⟩ := ih
    obtain ⟨skipped, split⟩ := skipTrivia_suffix tokens
    refine ⟨skipped ++ passed, ?_, listed.trans (List.sublist_append_right _ _)⟩
    rw [List.append_assoc, ← same, split]
  | @line hash tokens rest names kind lists ih =>
    obtain ⟨passed, same, listed⟩ := ih
    obtain ⟨skipped, split⟩ : tokens.skipLine <:+ tokens := skipPast_suffix _ tokens
    refine ⟨hash :: (skipped ++ passed), ?_,
      (listed.trans (List.sublist_append_right _ _)).cons hash⟩
    rw [List.cons_append, List.append_assoc, ← same, split]
  | @member name value tokens after rest names kind valued lists ih =>
    obtain ⟨passed, same, listed⟩ := ih
    obtain ⟨skipped, split⟩ := (afterMember_suffix after).trans (memberValue_suffix valued)
    refine ⟨name :: (skipped ++ passed), ?_,
      (listed.trans (List.sublist_append_right _ _)).cons_cons name⟩
    rw [List.cons_append, List.append_assoc, ← same, split]

/-- **How the members of a body end in a defect**: in one of its form, or at a name that is taken,
be it from the start or by a member before it. -/
theorem lists_of_body_error {declaration : Text} {seen : List Text} {ordinal : Int}
    (failed : (body sourceEnd declaration seen ordinal tokens).after = .error defect) :
    defect.IsStructural ∨ ∃ names repeated rest,
      Lists sourceEnd tokens names (repeated :: rest) ∧ repeated.kind = .identifier ∧
        (repeated.text ∈ seen ∨ ∃ first ∈ names, first.text = repeated.text) ∧
        (body sourceEnd declaration seen ordinal tokens).members.map Member.name =
          names.map Token.text ∧
        defect = ⟨.keyRepeated repeated.text, repeated.offset⟩ := by
  fun_induction body sourceEnd declaration seen ordinal tokens with
  | case1 | case7 =>
    cases failed
    exact Or.inl trivial
  | case2 => cases failed
  | case3 seen ordinal tokens shorter token later next inner kind bounded ih =>
    refine (ih failed).imp_right ?_
    rintro ⟨names, repeated, rest, lists, name, taken, listed, same⟩
    refine ⟨names, repeated, rest, .trivia ?_, name, taken, listed, same⟩
    rw [next]
    exact .line kind lists
  | case4 seen ordinal tokens shorter token later next inner kind taken =>
    cases failed
    refine Or.inr ⟨[], token, later, .trivia ?_, kind, Or.inl taken, rfl, rfl⟩
    rw [next]
    exact .nil _
  | case5 seen ordinal tokens shorter token later next inner kind isNew found valued =>
    cases failed
    exact Or.inl (isStructural_of_memberValue valued)
  | case6 seen ordinal tokens shorter token later next inner kind isNew value after valued comment
      last trailing bounded fits own more ih =>
    refine (ih failed).imp_right ?_
    rintro ⟨names, repeated, rest, lists, name, taken, listed, same⟩
    have following : afterMember after = last := congrArg Prod.snd trailing
    refine ⟨token :: names, repeated, rest, .trivia ?_, name, ?_,
      congrArg (token.text :: ·) listed, same⟩
    · rw [next]
      exact .member kind valued (following ▸ lists)
    · rcases taken with taken | ⟨first, among, text⟩
      · rcases List.mem_cons.mp taken with text | taken
        · exact Or.inr ⟨token, List.mem_cons_self, text.symm⟩
        · exact Or.inl taken
      · exact Or.inr ⟨first, List.mem_cons_of_mem _ among, text⟩

/-! ### Walks -/

/-- The outline of some tokens, wherever they stand. -/
inductive Walks (sourceEnd : Nat) : Tokens → Outline → Prop
  | ended : Walks sourceEnd [] ⟨[], none⟩
  | failed {tokens : Tokens} {defect : Defect} (structural : defect.IsStructural) :
      Walks sourceEnd tokens ⟨[], some defect⟩
  | skipped {tokens later : Tokens} {outline : Outline} (suffix : later <:+ tokens)
      (walks : Walks sourceEnd later outline) : Walks sourceEnd tokens outline
  | scope {tokens : Tokens} {path : List Text} {depth : Option Nat} {outline : Outline}
      (walks : Walks sourceEnd tokens outline) :
      Walks sourceEnd tokens (outline.startingWith (.scope path depth))
  | forward {tokens : Tokens} {name : Text} {outline : Outline}
      (walks : Walks sourceEnd tokens outline) :
      Walks sourceEnd tokens (outline.startingWith (.forward name))
  | declaration {keyword : Token} {tokens opened last : Tokens} {path : List Text} {name : Text}
      {comments : List Excerpt} {outline : Outline} (word : keyword.isWord "enum".toList = true)
      (head : enumHead sourceEnd tokens = .ok (name, some comments, opened))
      (ended : (body sourceEnd name [] 0 opened.trailingComment.2).after = .ok last)
      (walks : Walks sourceEnd last outline) :
      Walks sourceEnd (keyword :: tokens) (outline.startingWith (.declaration
        ⟨path, name, comments ++ opened.trailingComment.1.toList,
          (body sourceEnd name [] 0 opened.trailingComment.2).members⟩))
  | unfinished {keyword : Token} {tokens opened : Tokens} {path : List Text} {name : Text}
      {comments : List Excerpt} {defect : Defect} (word : keyword.isWord "enum".toList = true)
      (head : enumHead sourceEnd tokens = .ok (name, some comments, opened))
      (ended : (body sourceEnd name [] 0 opened.trailingComment.2).after = .error defect) :
      Walks sourceEnd (keyword :: tokens) ⟨[.unfinished
        ⟨path, name, comments ++ opened.trailingComment.1.toList,
          (body sourceEnd name [] 0 opened.trailingComment.2).members⟩], some defect⟩

/-- **Every outline comes from a walk.** -/
theorem walks_ofTokens (sourceEnd : Nat) (scopes : List Scope) (depth : Nat) (tokens : Tokens) :
    Walks sourceEnd tokens (ofTokens sourceEnd scopes depth tokens) := by
  fun_induction ofTokens sourceEnd scopes depth tokens with
  | case1 => exact .ended
  | case2 scopes depth token rest kind bounded ih =>
    exact .skipped ((skipPast_suffix _ rest).trans (List.suffix_cons token rest)) ih
  | case3 scopes depth token rest kind ih | case4 scopes depth token rest kind ih =>
    exact .skipped (List.suffix_cons token rest) ih
  | case5 scopes depth token rest kind word defect head =>
    exact .failed (isStructural_of_namespaceHead head)
  | case6 scopes depth token rest kind word path after head again shorter ih
  | case7 scopes depth token rest kind word path after head again shorter ih =>
    exact .skipped ((namespaceHead_suffix head).trans (List.suffix_cons token rest)) (.scope ih)
  | case8 scopes depth token rest kind word path after head bounded again shorter ih =>
    exact .skipped ((skipPast_suffix _ after).trans
      ((namespaceHead_suffix head).trans (List.suffix_cons token rest))) ih
  | case9 scopes depth token rest kind noNamespace word bounded ih =>
    exact .skipped ((skipPast_suffix _ rest).trans (List.suffix_cons token rest)) ih
  | case10 scopes depth token rest kind noNamespace noUsing word bounded named =>
    exact .failed trivial
  | case11 scopes depth token rest kind noNamespace noUsing word bounded name after named shorter
      defect head =>
    exact .failed (isStructural_of_declarationHead head)
  | case12 scopes depth token rest kind noNamespace noUsing word bounded name after named shorter
      later head again ih =>
    have opened := (enumHead_of_identifier? named).trans (congrArg _ head)
    exact .skipped ((headOf_of_enumHead opened).1.trans (List.suffix_cons token rest)) (.forward ih)
  | case13 scopes depth token rest kind noNamespace noUsing word bounded name after named shorter
      comments later head again first fits content declaration defect ended =>
    exact .unfinished (Token.isWord_iff.mpr ⟨kind, word⟩)
      ((enumHead_of_identifier? named).trans (congrArg _ head)) ended
  | case14 scopes depth token rest kind noNamespace noUsing word bounded name after named shorter
      comments later head again first fits content declaration last ended inner spaced dropped ih =>
    exact .declaration (Token.isWord_iff.mpr ⟨kind, word⟩)
      ((enumHead_of_identifier? named).trans (congrArg _ head)) ended
      (.skipped ((dropOne_suffix _ _).trans (skipSpacing_suffix last)) ih)
  | case15 scopes depth token rest kind noNamespace noUsing noEnum ih
  | case16 scopes depth token rest noHash noOpen noClose noName ih =>
    exact .skipped (List.suffix_cons token rest) ih

/-- What follows an enum is left of the tokens after its keyword. -/
theorem suffix_of_enum {opened last : Tokens} {name : Text} {comments : Option (List Excerpt)}
    (head : enumHead sourceEnd tokens = .ok (name, comments, opened))
    (ended : (body sourceEnd name [] 0 opened.trailingComment.2).after = .ok last) :
    last <:+ tokens :=
  ((body_suffix sourceEnd name [] 0 opened.trailingComment.2).1 last ended).trans
    ((trailingComment_suffix opened).trans (headOf_of_enumHead head).1)

/-- The comments of an enum are among the tokens after its keyword. -/
theorem hasComment_of_enum {opened : Tokens} {path : List Text} {name : Text}
    {comments : List Excerpt} (head : enumHead sourceEnd tokens = .ok (name, some comments, opened)) :
    ∀ excerpt ∈ Declaration.allComments ⟨path, name, comments ++ opened.trailingComment.1.toList,
      (body sourceEnd name [] 0 opened.trailingComment.2).members⟩, tokens.HasComment excerpt := by
  obtain ⟨suffix, among⟩ := headOf_of_enumHead head
  intro excerpt member
  rcases List.mem_append.mp member with own | listed
  · rcases List.mem_append.mp own with before | trailing
    · exact among comments rfl excerpt before
    · exact (hasComment_of_trailingComment (Option.mem_toList.mp trailing)).mono suffix
  · obtain ⟨item, inside, found⟩ := List.mem_filterMap.mp listed
    have inBody := (body_suffix sourceEnd name [] 0 opened.trailingComment.2).2 item inside excerpt
      found
    exact inBody.mono ((trailingComment_suffix opened).trans suffix)

/-- The comments of a walk are among its tokens. -/
theorem Walks.hasComment {outline : Outline} (walks : Walks sourceEnd tokens outline) :
    ∀ item ∈ outline.items, ∀ excerpt ∈ item.allComments, tokens.HasComment excerpt := by
  induction walks with
  | ended | failed => exact fun _ absent => absurd absent List.not_mem_nil
  | skipped suffix walks ih =>
    exact fun item member excerpt among => (ih item member excerpt among).mono suffix
  | scope walks ih | forward walks ih =>
    exact List.forall_mem_cons.mpr ⟨fun _ absent => absurd absent List.not_mem_nil, ih⟩
  | @declaration keyword tokens opened last path name comments outline word head ended walks ih =>
    have following := (suffix_of_enum head ended).trans (List.suffix_cons keyword tokens)
    refine List.forall_mem_cons.mpr ⟨fun excerpt among => ?_, fun item member excerpt among => ?_⟩
    · exact (hasComment_of_enum head excerpt among).mono (List.suffix_cons keyword tokens)
    · exact (ih item member excerpt among).mono following
  | @unfinished keyword tokens opened path name comments defect word head ended =>
    refine List.forall_mem_cons.mpr
      ⟨fun excerpt among => ?_, fun _ absent => absurd absent List.not_mem_nil⟩
    exact (hasComment_of_enum head excerpt among).mono (List.suffix_cons keyword tokens)

theorem getLast?_startingWith {item last : OutlineItem} {outline : Outline}
    (found : outline.items.getLast? = some last) :
    (outline.startingWith item).items.getLast? = some last := by
  rw [startingWith, List.getLast?_cons, found, Option.getD_some]

/-- A defect of a walk is in the form of the source, or it ends the body of the enum that the outline
ends with. -/
theorem Walks.defect_cases {outline : Outline} (walks : Walks sourceEnd tokens outline)
    (found : outline.defect = some defect) :
    defect.IsStructural ∨ ∃ keyword after comments opened declaration,
      keyword :: after <:+ tokens ∧ keyword.isWord "enum".toList = true ∧
        enumHead sourceEnd after = .ok (declaration.name, some comments, opened) ∧
        outline.items.getLast? = some (.unfinished declaration) ∧
        declaration.members =
          (body sourceEnd declaration.name [] 0 opened.trailingComment.2).members ∧
        (body sourceEnd declaration.name [] 0 opened.trailingComment.2).after = .error defect := by
  induction walks with
  | ended => cases found
  | failed structural =>
    cases found
    exact Or.inl structural
  | skipped suffix walks ih =>
    refine (ih found).imp_right ?_
    rintro ⟨keyword, after, comments, opened, declaration, inside, rest⟩
    exact ⟨keyword, after, comments, opened, declaration, inside.trans suffix, rest⟩
  | scope walks ih | forward walks ih =>
    refine (ih found).imp_right ?_
    rintro ⟨keyword, after, comments, opened, declaration, inside, word, head, last, rest⟩
    refine ⟨keyword, after, comments, opened, declaration, inside, word, head, ?_, rest⟩
    exact getLast?_startingWith last
  | @declaration keyword tokens opened last path name comments outline word head ended walks ih =>
    have following := (suffix_of_enum head ended).trans (List.suffix_cons keyword tokens)
    refine (ih found).imp_right ?_
    rintro ⟨keyword, after, comments, opened, declaration, inside, word, head, last, rest⟩
    refine ⟨keyword, after, comments, opened, declaration, inside.trans following, word, head, ?_,
      rest⟩
    exact getLast?_startingWith last
  | @unfinished keyword tokens opened path name comments defect word head ended =>
    cases found
    exact Or.inr ⟨keyword, tokens, comments, opened, _, List.suffix_rfl, word, head, rfl, rfl, ended⟩

end Outline

end Scaffold
