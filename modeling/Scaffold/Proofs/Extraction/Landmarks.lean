/-
**What of a source bears on its namespaces.**

The namespaces of an enum depend on the braces outside of enums, on the heads of namespaces and on
nothing else. These, with the enums themselves, are the landmarks of a source. The relation
`Layout.Landmarks` says which landmarks some tokens have, without any reader: comments, preprocessor
lines, skipped statements, forward enums and the bodies of enums have none.

* `Enumerators.afterBody_eq`, `path_of_namespaceHead`: where the body of an enum ends, and the head
  of a namespace;
* `exists_landmarks`: tokens that are walked to the end have landmarks;
* `placed_of_landmarks`: the enums of such a walk are those among the landmarks, each in the
  namespaces that are open there.
-/

import Scaffold.Proofs.Extraction.Ordinals

namespace Scaffold

/-- What of a source bears on the namespaces of its enums. -/
inductive Landmark where
  /-- A brace that opens neither a namespace nor an enum. -/
  | openBrace
  /-- A brace that closes a namespace or a block. -/
  | closeBrace
  /-- The head of a namespace with the brace that opens it; its names, the outermost first. -/
  | namespaced (path : List Text)
  /-- A namespace without braces. -/
  | fileScope (path : List Text)
  /-- An enum with its whole body. -/
  | enumeration (name : Text)
  deriving DecidableEq

namespace Layout

variable {kind : TokenKind} {tokens rest : Tokens}

/-- Everything up to the first token of a kind, with that token, or everything if there is none. -/
inductive Skips (kind : TokenKind) : Tokens → Tokens → Prop
  | upTo {line : Tokens} {stop : Token} (rest : Tokens) :
      (∀ token ∈ line, token.kind ≠ kind) → stop.kind = kind →
      Skips kind (line ++ stop :: rest) rest
  | all {line : Tokens} : (∀ token ∈ line, token.kind ≠ kind) → Skips kind line []

/-- The landmarks of some tokens, in their order. -/
inductive Landmarks : List Landmark → Tokens → Prop
  | ended : Landmarks [] []
  | filler {marks : List Landmark} {token : Token} {tokens : Tokens} :
      IsFiller token → Landmarks marks tokens → Landmarks marks (token :: tokens)
  | line {marks : List Landmark} {hash : Token} {tokens rest : Tokens} :
      hash.kind = .hash → Skips .newline tokens rest → Landmarks marks rest →
      Landmarks marks (hash :: tokens)
  | statement {marks : List Landmark} {word : Token} {tokens rest : Tokens} :
      word.isWord "using".toList = true → Skips .semicolon tokens rest → Landmarks marks rest →
      Landmarks marks (word :: tokens)
  | abbreviation {marks : List Landmark} {names : List Text} {word equals : Token}
      {head tokens rest : Tokens} :
      word.isWord "namespace".toList = true → Path names head (equals :: tokens) →
      equals.kind = .equals → Skips .semicolon tokens rest → Landmarks marks rest →
      Landmarks marks (word :: head)
  | openBrace {marks : List Landmark} {brace : Token} {tokens : Tokens} :
      brace.kind = .openBrace → Landmarks marks tokens →
      Landmarks (.openBrace :: marks) (brace :: tokens)
  | closeBrace {marks : List Landmark} {brace : Token} {tokens : Tokens} :
      brace.kind = .closeBrace → Landmarks marks tokens →
      Landmarks (.closeBrace :: marks) (brace :: tokens)
  | namespaced {marks : List Landmark} {names : List Text} {word opening : Token}
      {head tokens : Tokens} :
      word.isWord "namespace".toList = true → Path names head (opening :: tokens) →
      opening.kind = .openBrace → Landmarks marks tokens →
      Landmarks (.namespaced names :: marks) (word :: head)
  | fileScope {marks : List Landmark} {names : List Text} {word stop : Token}
      {head tokens : Tokens} :
      word.isWord "namespace".toList = true → Path names head (stop :: tokens) →
      stop.kind = .semicolon → Landmarks marks tokens →
      Landmarks (.fileScope names :: marks) (word :: head)
  | forward {marks : List Landmark} {name : Text} {comments : List Excerpt} {word stop : Token}
      {named head tokens : Tokens} :
      word.isWord "enum".toList = true → EnumName name named head →
      Head comments head (stop :: tokens) → stop.kind = .semicolon → Landmarks marks tokens →
      Landmarks marks (word :: named)
  | enumeration {marks : List Landmark} {name : Text} {comments : List Excerpt}
      {members : List (Text × Option WrittenValue)} {word opening : Token}
      {named head content rest : Tokens} :
      word.isWord "enum".toList = true → EnumName name named head →
      Head comments head (opening :: content) → opening.kind = .openBrace →
      Enumerators members content rest → Landmarks marks rest →
      Landmarks (.enumeration name :: marks) (word :: named)

theorem Skips.skipPast_eq (skips : Skips kind tokens rest) : tokens.skipPast kind = rest := by
  cases skips with
  | upTo rest others stops => exact Tokens.skipPast_append others stops rest
  | all others => exact Tokens.skipPast_eq_nil others

theorem skips_skipPast (kind : TokenKind) (tokens : Tokens) :
    Skips kind tokens (tokens.skipPast kind) := by
  rcases Tokens.skipPast_cases kind tokens with
    ⟨line, stop, others, stops, split⟩ | ⟨others, nothing⟩
  · have skips := Skips.upTo (tokens.skipPast kind) others stops
    rwa [← split] at skips
  · rw [nothing]
    exact .all others

/-- The blanks and the semicolon that may follow an enum hide no landmark. -/
theorem Landmarks.of_semicolon {marks : List Landmark}
    (written : Landmarks marks (tokens.skipSpacing.dropOne .semicolon)) :
    Landmarks marks tokens := by
  have spaced : Landmarks marks tokens.skipSpacing := by
    by_cases semicolon : tokens.skipSpacing.peek? = some .semicolon
    · obtain ⟨token, split, kind⟩ := Tokens.exists_cons_of_peek? semicolon
      rw [split]
      exact .filler (isFiller_of_kind (by simp [kind])) written
    · rwa [Tokens.dropOne_of_ne semicolon] at written
  obtain ⟨space, spacing, split⟩ := exists_spacing tokens
  rw [split]
  clear split
  induction space with
  | nil => exact spaced
  | cons token space ih =>
    obtain ⟨blank, others⟩ := List.forall_mem_cons.mp spacing
    exact .filler (isFiller_of_kind (by simp [blank])) (ih others)

/-! ### Where a body ends -/

/-- What follows the brace that closes a body: the first one that is on no preprocessor line. -/
def afterBody (tokens : Tokens) : Tokens :=
  match tokens with
  | [] => []
  | token :: rest =>
    match token.kind with
    | .closeBrace => rest
    | .hash =>
      have := Tokens.skipLine_length rest
      afterBody (Tokens.skipLine rest)
    | _ => afterBody rest
  termination_by tokens.length
  decreasing_by all_goals simp only [List.length_cons]; omega

/-- The token may stand in a body. -/
def IsInner (token : Token) : Prop := token.kind ≠ .closeBrace ∧ token.kind ≠ .hash

theorem isInner_of_isTrivia {token : Token} (trivial : token.kind.isTrivia = true) :
    IsInner token := by
  constructor <;> (intro kind; rw [kind] at trivial; cases trivial)

theorem isInner_of_kind {token : Token} (same : token.kind = kind)
    (other : kind ≠ .closeBrace ∧ kind ≠ .hash) : IsInner token := by
  rwa [IsInner, same]

theorem IsSpacing.isInner {space : Tokens} (spacing : IsSpacing space) :
    ∀ token ∈ space, IsInner token :=
  fun token member => isInner_of_isTrivia (spacing.isTrivia token member)

theorem afterBody_append {inner : Tokens} (isInner : ∀ token ∈ inner, IsInner token)
    (tokens : Tokens) : afterBody (inner ++ tokens) = afterBody tokens := by
  induction inner with
  | nil => rfl
  | cons token inner ih =>
    obtain ⟨⟨noBrace, noHash⟩, others⟩ := List.forall_mem_cons.mp isInner
    rw [List.cons_append, afterBody]
    split
    · exact absurd ‹_› noBrace
    · exact absurd ‹_› noHash
    · exact ih others

/-- What is written for a value is no brace and no preprocessor line. -/
theorem Assigned.exists_inner {written : Option WrittenValue}
    (assigned : Assigned written tokens rest) :
    ∃ inner, tokens = inner ++ rest ∧ ∀ token ∈ inner, IsInner token := by
  cases assigned with
  | nothing => exact ⟨[], rfl, List.forall_mem_nil _⟩
  | @literal space gap equals number _ spacing isEquals blank digits =>
    refine ⟨space ++ equals :: (gap ++ [number]), by simp, ?_⟩
    simp only [List.forall_mem_append, List.forall_mem_cons]
    exact ⟨spacing.isInner, isInner_of_kind isEquals (by decide), blank.isInner,
      isInner_of_kind digits (by decide), List.forall_mem_nil _⟩
  | @negated space gap between equals minus number _ spacing isEquals blank isMinus apart digits =>
    refine ⟨space ++ equals :: (gap ++ minus :: (between ++ [number])), by simp, ?_⟩
    simp only [List.forall_mem_append, List.forall_mem_cons]
    exact ⟨spacing.isInner, isInner_of_kind isEquals (by decide), blank.isInner,
      isInner_of_kind isMinus (by decide), apart.isInner, isInner_of_kind digits (by decide),
      List.forall_mem_nil _⟩

/-- **The members of a body** are followed by what follows its brace, however they are read. -/
theorem Enumerators.afterBody_eq {members : List (Text × Option WrittenValue)}
    (written : Enumerators members tokens rest) : afterBody tokens = rest := by
  induction written with
  | closed rest kind =>
    rw [afterBody, kind]
  | @trivia members token tokens rest trivial written ih =>
    rw [← ih]
    exact afterBody_append (List.forall_mem_singleton.mpr (isInner_of_isTrivia trivial)) tokens
  | line hash others feed written ih =>
    rw [afterBody, hash]
    dsimp only
    rw [Tokens.skipLine, Tokens.skipPast_append others feed, ih]
  | @member members value name tokens after rest kind assigned written ih =>
    obtain ⟨inner, rfl, isInner⟩ := assigned.exists_inner
    have isInnerName := isInner_of_kind kind (by decide)
    rw [← ih]
    exact afterBody_append (List.forall_mem_cons.mpr ⟨isInnerName, isInner⟩) after
  | @separated members value name comma space tokens after rest kind assigned spacing isComma
      written ih =>
    obtain ⟨inner, rfl, isInner⟩ := assigned.exists_inner
    have whole : ∀ token ∈ name :: (inner ++ (space ++ [comma])), IsInner token := by
      simp only [List.forall_mem_append, List.forall_mem_cons]
      exact ⟨isInner_of_kind kind (by decide), isInner, spacing.isInner,
        isInner_of_kind isComma (by decide), List.forall_mem_nil _⟩
    have passed := afterBody_append whole after
    simp only [List.cons_append, List.append_assoc, List.nil_append] at passed
    rw [passed, ih]

/-! ### Heads of namespaces -/

/-- Trivia may stand before the names of a namespace. -/
theorem Path.of_skipTrivia {names : List Text} (path : Path names tokens.skipTrivia rest) :
    Path names tokens rest := by
  induction tokens with
  | nil => exact path
  | cons token tokens ih =>
    by_cases trivial : token.kind.isTrivia = true
    · rw [Tokens.skipTrivia_of_trivia trivial] at path
      exact .skip (Or.inl trivial) (ih path)
    · rwa [Tokens.skipTrivia_of_not_trivia (Bool.not_eq_true _ ▸ trivial)] at path

end Layout

namespace Outline

open Tokens

variable {sourceEnd : Nat} {token stop : Token} {tokens rest : Tokens}

/-! ### Names of namespaces -/

/-- What follows a token of a kind that is found after trivia, or what follows the trivia. -/
theorem cases_of_eat {kind : TokenKind} {found : Bool} {after : Tokens}
    (eaten : Tokens.eat kind tokens = (found, after)) :
    found = true ∧ (∃ space token, (∀ blank ∈ space, blank.kind.isTrivia = true) ∧
        token.kind = kind ∧ tokens = space ++ token :: after) ∨
      found = false ∧ after = tokens.skipTrivia := by
  unfold Tokens.eat at eaten
  split at eaten
  · rename_i next
    cases eaten
    exact Or.inr ⟨rfl, next.symm⟩
  · rename_i token later next
    split at eaten
    · rename_i same
      cases eaten
      obtain ⟨space, trivial, split⟩ := exists_trivia next
      exact Or.inl ⟨rfl, space, token, trivial, same, split⟩
    · cases eaten
      exact Or.inr ⟨rfl, next.symm⟩

/-- The names that are read are written before what stops them. -/
theorem path_of_namespaceNames
    (stops : (namespaceNames tokens).2.skipTrivia = stop :: rest) :
    Layout.Path (namespaceNames tokens).1 tokens (stop :: rest) := by
  fun_induction namespaceNames tokens with
  | case1 => cases stops
  | case2 tokens shorter token later next inner kind =>
    rw [skipTrivia_of_not_trivia (not_isTrivia_of_skipTrivia next)] at stops
    exact .of_skipTrivia (next.trans stops ▸ .nil _)
  | case3 tokens shorter token later next inner kind word ih =>
    refine .of_skipTrivia ?_
    rw [next]
    exact .skip (Or.inr (Token.isWord_iff.mpr ⟨not_not.mp kind, word⟩)) (ih stops)
  | case4 tokens shorter token later next inner kind word after eaten =>
    rcases cases_of_eat eaten with ⟨found, -⟩ | ⟨-, rfl⟩
    · cases found
    · rw [skipTrivia_skipTrivia] at stops
      obtain ⟨space, trivial, split⟩ := exists_trivia stops
      refine .of_skipTrivia ?_
      rw [next, split]
      exact .last (not_not.mp kind) word trivial
  | case5 tokens shorter token later next inner kind word after eaten bounded more ih =>
    rcases cases_of_eat eaten with ⟨-, space, colons, trivial, double, split⟩ | ⟨found, -⟩
    · refine .of_skipTrivia ?_
      rw [next, split]
      exact .more (not_not.mp kind) word trivial double (ih stops)
    · cases found

/-- **The head of a namespace** is written after the keyword. -/
theorem path_of_namespaceHead {names : List Text} {shape : NamespaceBody}
    (head : namespaceHead sourceEnd tokens = .ok (names, shape, rest)) :
    ∃ stop, Layout.Path names tokens (stop :: rest) ∧
      stop.kind = match shape with
        | .braces => .openBrace
        | .wholeFile => .semicolon
        | .alias => .equals := by
  unfold namespaceHead at head
  dsimp only at head
  split at head
  · cases head
  · rename_i stop later next
    have path := path_of_namespaceNames next
    split at head <;> cases head
    all_goals
      rename_i kind
      exact ⟨stop, path, kind⟩

/-! ### Walks -/

/-- Where a walk stands: the open namespaces, the innermost first, and the number of open braces. -/
structure Standing where
  scopes : List Scope
  depth : Nat

namespace Standing

/-- Past a landmark. -/
def pass (standing : Standing) : Landmark → Standing
  | .openBrace => ⟨standing.scopes, standing.depth + 1⟩
  | .closeBrace => ⟨closeScopes (standing.depth - 1) standing.scopes, standing.depth - 1⟩
  | .namespaced path =>
    ⟨⟨path, some (standing.depth + 1)⟩ :: standing.scopes, standing.depth + 1⟩
  | .fileScope path => ⟨⟨path, none⟩ :: standing.scopes, standing.depth⟩
  | .enumeration _ => standing

/-- Past landmarks, one after the other. -/
def run (standing : Standing) (marks : List Landmark) : Standing := marks.foldl pass standing

/-- The enums among the landmarks, each with the names of the namespaces that are open there. -/
def enums (standing : Standing) : List Landmark → List (List Text × Text)
  | [] => []
  | .enumeration name :: marks => (scopePath standing.scopes, name) :: enums standing marks
  | mark :: marks => enums (standing.pass mark) marks

end Standing

/-- The enums with a body that an outline lists. -/
def placed (outline : Outline) : List (List Text × Text) :=
  (outline.items.filterMap OutlineItem.declaration?).map fun declaration =>
    (declaration.path, declaration.name)

/-- **A walk to the end** of some tokens has come past landmarks of them. -/
theorem exists_landmarks {scopes : List Scope} {depth : Nat}
    (complete : (ofTokens sourceEnd scopes depth tokens).defect = none) :
    ∃ marks, Layout.Landmarks marks tokens := by
  fun_induction ofTokens sourceEnd scopes depth tokens with
  | case1 => exact ⟨[], .ended⟩
  | case2 scopes depth token rest kind bounded ih =>
    exact (ih complete).imp fun _ => .line kind (Layout.skips_skipPast _ rest)
  | case3 scopes depth token rest kind ih =>
    obtain ⟨marks, written⟩ := ih complete
    exact ⟨_, .openBrace kind written⟩
  | case4 scopes depth token rest kind ih =>
    obtain ⟨marks, written⟩ := ih complete
    exact ⟨_, .closeBrace kind written⟩
  | case5 | case10 | case11 | case13 => cases complete
  | case6 scopes depth token rest kind word path after head again shorter ih =>
    obtain ⟨marks, written⟩ := ih complete
    obtain ⟨stop, named, opens⟩ := path_of_namespaceHead head
    exact ⟨_, .namespaced (Token.isWord_iff.mpr ⟨kind, word⟩) named opens written⟩
  | case7 scopes depth token rest kind word path after head again shorter ih =>
    obtain ⟨marks, written⟩ := ih complete
    obtain ⟨stop, named, ends⟩ := path_of_namespaceHead head
    exact ⟨_, .fileScope (Token.isWord_iff.mpr ⟨kind, word⟩) named ends written⟩
  | case8 scopes depth token rest kind word path after head bounded again shorter ih =>
    obtain ⟨equals, named, isEquals⟩ := path_of_namespaceHead head
    exact (ih complete).imp fun _ => .abbreviation (Token.isWord_iff.mpr ⟨kind, word⟩) named
      isEquals (Layout.skips_skipPast _ after)
  | case9 scopes depth token rest kind noNamespace word bounded ih =>
    exact (ih complete).imp fun _ =>
      .statement (Token.isWord_iff.mpr ⟨kind, word⟩) (Layout.skips_skipPast _ rest)
  | case12 scopes depth token rest kind noNamespace noUsing word bounded name after named shorter
      later head again ih =>
    obtain ⟨stop, comments, next, isName, before, ⟨-, absent⟩ | ⟨ends, -⟩⟩ :=
      layout_of_enumHead ((enumHead_of_identifier? named).trans (congrArg _ head))
    case inl => cases absent
    exact (ih complete).imp fun _ =>
      .forward (Token.isWord_iff.mpr ⟨kind, word⟩) isName before ends
  | case14 scopes depth token rest kind noNamespace noUsing word bounded name after named shorter
      comments later head again first fits content declaration last ended inner spaced dropped ih =>
    obtain ⟨marks, written⟩ := ih complete
    obtain ⟨opening, comments, next, isName, before, ⟨opens, -⟩ | ⟨-, absent⟩⟩ :=
      layout_of_enumHead ((enumHead_of_identifier? named).trans (congrArg _ head))
    case inr => cases absent
    obtain ⟨members, listing, -⟩ := numbered_of_body ended
    exact ⟨_, .enumeration (Token.isWord_iff.mpr ⟨kind, word⟩) isName before opens
      (.of_trailingComment listing) written.of_semicolon⟩
  | case15 scopes depth token rest kind noNamespace noUsing noEnum ih =>
    refine (ih complete).imp fun _ =>
      .filler ⟨by simp [kind], by simp [kind], by simp [kind], ?_, ?_, ?_⟩
    all_goals
      rw [← Bool.not_eq_true, Token.isWord_iff]
      rintro ⟨-, text⟩
      contradiction
  | case16 scopes depth token rest noHash noOpen noClose noName ih =>
    refine (ih complete).imp fun _ => .filler (Layout.isFiller_of_kind ?_)
    simp only [List.mem_cons, List.not_mem_nil, or_false, not_or]
    exact ⟨noOpen, noClose, noHash, noName⟩

/-- **The enums of a walk** to the end are those among the landmarks of its tokens, each in the
namespaces that are open there. -/
theorem placed_of_landmarks {marks : List Landmark} (written : Layout.Landmarks marks tokens)
    {scopes : List Scope} {depth : Nat}
    (complete : (ofTokens sourceEnd scopes depth tokens).defect = none) :
    (ofTokens sourceEnd scopes depth tokens).placed = Standing.enums ⟨scopes, depth⟩ marks := by
  induction written generalizing scopes depth with
  | ended =>
    rw [ofTokens]
    rfl
  | filler isFiller written ih =>
    rw [ofTokens_of_filler isFiller] at complete ⊢
    exact ih complete
  | line hash skips written ih =>
    rw [ofTokens_of_hash hash, Tokens.skipLine, skips.skipPast_eq] at complete ⊢
    exact ih complete
  | statement word skips written ih =>
    rw [ofTokens_of_using word, Tokens.skipStatement, skips.skipPast_eq] at complete ⊢
    exact ih complete
  | abbreviation word path equals skips written ih =>
    have head := namespaceHead_of_path sourceEnd path (Or.inr (Or.inr ⟨equals, rfl⟩))
    rw [ofTokens_of_namespace word head, Tokens.skipStatement, skips.skipPast_eq] at complete ⊢
    exact ih complete
  | openBrace kind written ih =>
    rw [ofTokens_of_openBrace kind] at complete ⊢
    exact ih complete
  | closeBrace kind written ih =>
    rw [ofTokens_of_closeBrace kind] at complete ⊢
    exact ih complete
  | namespaced word path opening written ih =>
    have head := namespaceHead_of_path sourceEnd path (Or.inl ⟨opening, rfl⟩)
    rw [ofTokens_of_namespace word head] at complete ⊢
    exact ih complete
  | fileScope word path stop written ih =>
    have head := namespaceHead_of_path sourceEnd path (Or.inr (Or.inl ⟨stop, rfl⟩))
    rw [ofTokens_of_namespace word head] at complete ⊢
    exact ih complete
  | forward word named head stop written ih =>
    rw [ofTokens_of_forward word named head stop] at complete ⊢
    exact ih complete
  | @enumeration marks name comments members keyword opening tokens head content rest word named
      headed kind listing written ih =>
    rw [ofTokens_of_enum word,
      enumHead_of_head sourceEnd named headed (Or.inl ⟨kind, rfl⟩)] at complete ⊢
    dsimp only at complete ⊢
    cases ended : (body sourceEnd name [] 0 content.trailingComment.2).after with
    | error defect =>
      rw [ended] at complete
      cases complete
    | ok last =>
      obtain ⟨others, read, -⟩ := numbered_of_body ended
      obtain rfl : last = rest :=
        (Layout.Enumerators.of_trailingComment read).afterBody_eq.symm.trans listing.afterBody_eq
      rw [ended] at complete
      dsimp only at complete ⊢
      rw [ofTokens_of_semicolon] at complete ⊢
      exact congrArg (List.cons (scopePath scopes, name)) (ih complete)

end Outline

end Scaffold
