/-
**The outline of a source is that of its tree.**

A walk over the tokens of one level of braces lists what the items there declare, and then goes on
with the tokens after them as if it had started there: with the same namespaces open and as many
braces. What carries the induction is that no open namespace ends at the present depth (`IsOpen`),
so a brace that closes the namespace entered last closes that one alone, and a brace of any other
block none.

* `ofTokens_of_tree`: one level of braces, with whatever follows it;
* `ofTokens_of_file`: a whole source.
-/

import Scaffold.Proofs.Extraction.Heads

namespace Scaffold

/-! ### Outlines of trees -/

/-- The entries of a tree inside the namespaces `path` and `depth` braces. -/
def SourceTree.items (path : List Text) (depth : Nat) : SourceTree → List OutlineItem
  | empty => []
  | namespaced names inner next =>
    .scope names (some (depth + 1)) ::
      (inner.items (path ++ names) (depth + 1) ++ next.items path depth)
  | block inner next => inner.items path (depth + 1) ++ next.items path depth
  | forward name next => .forward name :: next.items path depth
  | enumeration name comments members next =>
    .declaration ⟨path, name, comments, Member.numbered 0 members⟩ :: next.items path depth

/-- The entries of the rest of a file inside the namespaces `path`. -/
def SourceFile.items (path : List Text) : SourceFile → List OutlineItem
  | last items => items.items path 0
  | fileScope items names rest =>
    items.items path 0 ++ .scope names none :: rest.items (path ++ names)

namespace Outline

/-- An outline with more entries in front. -/
def continuing (items : List OutlineItem) (outline : Outline) : Outline :=
  ⟨items ++ outline.items, outline.defect⟩

theorem continuing_append (first second : List OutlineItem) (outline : Outline) :
    continuing (first ++ second) outline = continuing first (continuing second outline) := by
  rw [continuing, List.append_assoc]
  rfl

theorem startingWith_continuing (item : OutlineItem) (items : List OutlineItem)
    (outline : Outline) :
    startingWith item (continuing items outline) = continuing (item :: items) outline := rfl

/-! ### Open namespaces -/

/-- No namespace ends when only so many braces are open. -/
def IsOpen (scopes : List Scope) (depth : Nat) : Prop :=
  ∀ scope ∈ scopes, scope.endsAt depth = false

namespace IsOpen

variable {scopes : List Scope} {depth : Nat}

theorem closeScopes_eq (stay : IsOpen scopes depth) : closeScopes depth scopes = scopes := by
  cases scopes with
  | nil => rfl
  | cons scope outer =>
    exact List.dropWhile_cons_of_neg (by simp [stay scope List.mem_cons_self])

theorem succ (stay : IsOpen scopes depth) : IsOpen scopes (depth + 1) := by
  intro scope member
  have outside := stay scope member
  unfold Scope.endsAt at outside ⊢
  split
  · rename_i inside found
    rw [found] at outside
    simp only [decide_eq_false_iff_not] at outside ⊢
    omega
  · rfl

/-- A namespace with braces is entered. -/
theorem enter (stay : IsOpen scopes depth) (names : List Text) :
    IsOpen (⟨names, some (depth + 1)⟩ :: scopes) (depth + 1) := by
  intro scope member
  rcases List.mem_cons.mp member with rfl | member
  · exact decide_eq_false (Nat.lt_irrefl _)
  · exact stay.succ scope member

/-- The brace that closes a namespace leaves what was open around it. -/
theorem leave (stay : IsOpen scopes depth) (names : List Text) :
    closeScopes depth (⟨names, some (depth + 1)⟩ :: scopes) = scopes := by
  have ends : Scope.endsAt depth ⟨names, some (depth + 1)⟩ = true :=
    decide_eq_true (Nat.lt_succ_self depth)
  rw [closeScopes, List.dropWhile_cons_of_pos ends]
  exact stay.closeScopes_eq

/-- A namespace without braces never ends. -/
theorem enterFile (stay : IsOpen scopes depth) (names : List Text) :
    IsOpen (⟨names, none⟩ :: scopes) depth := by
  intro scope member
  rcases List.mem_cons.mp member with rfl | member
  · rfl
  · exact stay scope member

end IsOpen

@[simp] theorem scopePath_cons (scope : Scope) (scopes : List Scope) :
    scopePath (scope :: scopes) = scopePath scopes ++ scope.path := by
  rw [scopePath, List.reverse_cons, List.flatMap_append, List.flatMap_singleton, scopePath]

/-! ### Single steps -/

variable {sourceEnd depth : Nat} {scopes : List Scope} {token stop : Token} {tokens rest : Tokens}

/-- A step of the walk, by the token it is at. -/
theorem ofTokens_cons (token : Token) (rest : Tokens) :
    ofTokens sourceEnd scopes depth (token :: rest) =
      match token.kind with
      | .hash => ofTokens sourceEnd scopes depth rest.skipLine
      | .openBrace => ofTokens sourceEnd scopes (depth + 1) rest
      | .closeBrace => ofTokens sourceEnd (closeScopes (depth - 1) scopes) (depth - 1) rest
      | .identifier =>
        if token.text = "namespace".toList then
          match namespaceHead sourceEnd rest with
          | .error defect => ⟨[], some defect⟩
          | .ok (path, .braces, after) =>
            (ofTokens sourceEnd (⟨path, some (depth + 1)⟩ :: scopes) (depth + 1) after).startingWith
              (.scope path (some (depth + 1)))
          | .ok (path, .wholeFile, after) =>
            (ofTokens sourceEnd (⟨path, none⟩ :: scopes) depth after).startingWith
              (.scope path none)
          | .ok (_, .alias, after) => ofTokens sourceEnd scopes depth after.skipStatement
        else if token.text = "using".toList then
          ofTokens sourceEnd scopes depth rest.skipStatement
        else if token.text = "enum".toList then
          match enumHead sourceEnd rest with
          | .error defect => ⟨[], some defect⟩
          | .ok (name, none, later) =>
            (ofTokens sourceEnd scopes depth later).startingWith (.forward name)
          | .ok (name, some comments, later) =>
            let content := body sourceEnd name [] 0 later.trailingComment.2
            let declaration : Declaration :=
              ⟨scopePath scopes, name, comments ++ later.trailingComment.1.toList,
                content.members⟩
            match content.after with
            | .error defect => ⟨[.unfinished declaration], some defect⟩
            | .ok last =>
              (ofTokens sourceEnd scopes depth
                (last.skipSpacing.dropOne .semicolon)).startingWith (.declaration declaration)
        else ofTokens sourceEnd scopes depth rest
      | _ => ofTokens sourceEnd scopes depth rest := by
  rw [ofTokens]
  cases token.kind <;> try rfl
  dsimp only
  split
  · split <;> rename_i head <;> simp only [head]
    split <;> rfl
  · split
    · rfl
    · split
      · unfold enumHead
        split <;> rename_i named <;> simp only [named]
        · rfl
        · split <;> rename_i head <;> rw [head]
          · rfl
          · rfl
          · dsimp only [Except.map]
            split <;> rename_i ended <;> rw [ended]
      · rfl

theorem ofTokens_of_filler (filler : Layout.IsFiller token) (tokens : Tokens) :
    ofTokens sourceEnd scopes depth (token :: tokens) =
      ofTokens sourceEnd scopes depth tokens := by
  obtain ⟨noOpen, noClose, noHash, noNamespace, noUsing, noEnum⟩ := filler
  rw [ofTokens_cons]
  split
  · contradiction
  · contradiction
  · contradiction
  · rename_i kind
    simp only [Token.isWord, kind, BEq.rfl, Bool.true_and, beq_eq_false_iff_ne] at *
    rw [if_neg noNamespace, if_neg noUsing, if_neg noEnum]
  · rfl

theorem ofTokens_of_hash (hash : token.kind = .hash) (tokens : Tokens) :
    ofTokens sourceEnd scopes depth (token :: tokens) =
      ofTokens sourceEnd scopes depth tokens.skipLine := by
  rw [ofTokens_cons, hash]

theorem ofTokens_of_openBrace (kind : token.kind = .openBrace) (tokens : Tokens) :
    ofTokens sourceEnd scopes depth (token :: tokens) =
      ofTokens sourceEnd scopes (depth + 1) tokens := by
  rw [ofTokens_cons, kind]

theorem ofTokens_of_closeBrace (kind : token.kind = .closeBrace) (tokens : Tokens) :
    ofTokens sourceEnd scopes depth (token :: tokens) =
      ofTokens sourceEnd (closeScopes (depth - 1) scopes) (depth - 1) tokens := by
  rw [ofTokens_cons, kind]

theorem ofTokens_of_using (word : token.isWord "using".toList = true) (tokens : Tokens) :
    ofTokens sourceEnd scopes depth (token :: tokens) =
      ofTokens sourceEnd scopes depth tokens.skipStatement := by
  obtain ⟨kind, text⟩ := Token.isWord_iff.mp word
  rw [ofTokens_cons]
  simp only [kind, text]
  rw [if_neg (by decide), if_pos trivial]

theorem ofTokens_of_namespace {names : List Text} {shape : NamespaceBody}
    (word : token.isWord "namespace".toList = true)
    (head : namespaceHead sourceEnd tokens = .ok (names, shape, rest)) :
    ofTokens sourceEnd scopes depth (token :: tokens) =
      match shape with
      | .braces =>
        (ofTokens sourceEnd (⟨names, some (depth + 1)⟩ :: scopes) (depth + 1) rest).startingWith
          (.scope names (some (depth + 1)))
      | .wholeFile =>
        (ofTokens sourceEnd (⟨names, none⟩ :: scopes) depth rest).startingWith (.scope names none)
      | .alias => ofTokens sourceEnd scopes depth rest.skipStatement := by
  obtain ⟨kind, text⟩ := Token.isWord_iff.mp word
  rw [ofTokens_cons]
  simp only [kind, text, head]
  rw [if_pos trivial]
  cases shape <;> rfl

/-- What follows an enum may start with a semicolon. -/
theorem ofTokens_of_semicolon (tokens : Tokens) :
    ofTokens sourceEnd scopes depth (tokens.skipSpacing.dropOne .semicolon) =
      ofTokens sourceEnd scopes depth tokens := by
  have spaced : ofTokens sourceEnd scopes depth tokens.skipSpacing =
      ofTokens sourceEnd scopes depth tokens := by
    induction tokens with
    | nil => rfl
    | cons token rest ih =>
      by_cases blank : token.kind = .whitespace
      · rw [Tokens.skipSpacing, List.dropWhile_cons_of_pos (by simp [blank]),
          ofTokens_of_filler (Layout.isFiller_of_kind (by simp [blank]))]
        exact ih
      · rw [Tokens.skipSpacing_of_ne blank]
  rw [← spaced]
  cases tokens.skipSpacing with
  | nil => rfl
  | cons token rest =>
    by_cases semicolon : token.kind = .semicolon
    · rw [Tokens.dropOne, if_pos semicolon,
        ofTokens_of_filler (Layout.isFiller_of_kind (by simp [semicolon]))]
    · rw [Tokens.dropOne, if_neg semicolon]

/-- An enum, by what its head starts. -/
theorem ofTokens_of_enum (word : token.isWord "enum".toList = true) (tokens : Tokens) :
    ofTokens sourceEnd scopes depth (token :: tokens) =
      match enumHead sourceEnd tokens with
      | .error defect => ⟨[], some defect⟩
      | .ok (name, none, rest) =>
        (ofTokens sourceEnd scopes depth rest).startingWith (.forward name)
      | .ok (name, some comments, rest) =>
        let content := body sourceEnd name [] 0 rest.trailingComment.2
        let declaration : Declaration :=
          ⟨scopePath scopes, name, comments ++ rest.trailingComment.1.toList, content.members⟩
        match content.after with
        | .error defect => ⟨[.unfinished declaration], some defect⟩
        | .ok last =>
          (ofTokens sourceEnd scopes depth (last.skipSpacing.dropOne .semicolon)).startingWith
            (.declaration declaration) := by
  obtain ⟨kind, text⟩ := Token.isWord_iff.mp word
  rw [ofTokens_cons]
  simp only [kind, text]
  rw [if_neg (by decide), if_neg (by decide), if_pos trivial]

theorem ofTokens_of_forward {name : Text} {comments : List Excerpt} {head : Tokens}
    (word : token.isWord "enum".toList = true) (named : Layout.EnumName name tokens head)
    (headed : Layout.Head comments head (stop :: rest)) (kind : stop.kind = .semicolon) :
    ofTokens sourceEnd scopes depth (token :: tokens) =
      (ofTokens sourceEnd scopes depth rest).startingWith (.forward name) := by
  rw [ofTokens_of_enum word, enumHead_of_head sourceEnd named headed (Or.inr ⟨kind, rfl⟩)]

theorem ofTokens_of_enumeration {name : Text} {comments : List Excerpt}
    {members : List (Text × Option Excerpt)} {head content : Tokens}
    (word : token.isWord "enum".toList = true) (named : Layout.EnumName name tokens head)
    (headed : Layout.Head comments head (stop :: content)) (kind : stop.kind = .openBrace)
    (listed : Layout.Members (· == .whitespace) members content.trailingComment.2 rest)
    (distinct : (members.map Prod.fst).Nodup) :
    ofTokens sourceEnd scopes depth (token :: tokens) =
      (ofTokens sourceEnd scopes depth rest).startingWith
        (.declaration ⟨scopePath scopes, name, comments ++ content.trailingComment.1.toList,
          Member.numbered 0 members⟩) := by
  have filled : body sourceEnd name [] 0 content.trailingComment.2 =
      ⟨Member.numbered 0 members, .ok rest⟩ :=
    body_of_members sourceEnd name 0 listed (fun _ _ => List.not_mem_nil) distinct
  rw [ofTokens_of_enum word, enumHead_of_head sourceEnd named headed (Or.inl ⟨kind, rfl⟩)]
  dsimp only
  rw [filled]
  dsimp only
  rw [ofTokens_of_semicolon]

/-! ### Walks -/

/-- **One level of braces** is listed, and the walk goes on as it was before. -/
theorem ofTokens_of_tree {tree : SourceTree}
    (written : Layout.Tree (· == .whitespace) tree tokens rest) (stay : IsOpen scopes depth) :
    ofTokens sourceEnd scopes depth tokens =
      continuing (tree.items (scopePath scopes) depth) (ofTokens sourceEnd scopes depth rest) := by
  induction written generalizing scopes depth with
  | empty rest => rfl
  | filler filler written ih => rw [ofTokens_of_filler filler, ih stay]
  | line hash others feed written ih =>
    rw [ofTokens_of_hash hash, Tokens.skipLine, Tokens.skipPast_append others feed, ih stay]
  | statement word others stop written ih =>
    rw [ofTokens_of_using word, Tokens.skipStatement, Tokens.skipPast_append others stop, ih stay]
  | abbreviation word path equals others stop written ih =>
    have head := namespaceHead_of_path sourceEnd path
      (Or.inr (Or.inr ⟨equals, rfl⟩))
    rw [ofTokens_of_namespace word head]
    dsimp only
    rw [Tokens.skipStatement, Tokens.skipPast_append others stop, ih stay]
  | block opening inner closing next ihInner ihNext =>
    rw [ofTokens_of_openBrace opening, ihInner stay.succ, ofTokens_of_closeBrace closing,
      Nat.add_sub_cancel, stay.closeScopes_eq, ihNext stay, ← continuing_append]
    rfl
  | @namespaced inner next names word opening closing head content tokens rest isWord path isOpening
      inside isClosing after ihInner ihNext =>
    have head := namespaceHead_of_path sourceEnd path (Or.inl ⟨isOpening, rfl⟩)
    rw [ofTokens_of_namespace isWord head]
    dsimp only
    -- the closing brace pops the namespace that the keyword pushed, and nothing else
    rw [ihInner (stay.enter names), ofTokens_of_closeBrace isClosing, Nat.add_sub_cancel,
      stay.leave names, ihNext stay, ← continuing_append, startingWith_continuing, scopePath_cons]
    rfl
  | forward word named headed stop next ih =>
    rw [ofTokens_of_forward word named headed stop, ih stay, startingWith_continuing]
    rfl
  | enumeration word named headed opening listed distinct next ih =>
    rw [ofTokens_of_enumeration word named headed opening listed distinct, ih stay,
      startingWith_continuing]
    rfl

/-- **A source** is listed to its end, without a defect. -/
theorem ofTokens_of_file {file : SourceFile}
    (written : Layout.File (· == .whitespace) file tokens) (stay : IsOpen scopes 0) :
    ofTokens sourceEnd scopes 0 tokens = ⟨file.items (scopePath scopes), none⟩ := by
  have ended : ofTokens sourceEnd scopes 0 [] = ⟨[], none⟩ := by
    rw [ofTokens]
  induction written generalizing scopes with
  | last items =>
    rw [ofTokens_of_tree items stay, ended, continuing, List.append_nil]
    rfl
  | lastLine items hash others =>
    rw [ofTokens_of_tree items stay, ofTokens_of_hash hash, Tokens.skipLine,
      Tokens.skipPast_eq_nil others, ended, continuing, List.append_nil]
    rfl
  | @fileScope items names rest word stop tokens head later listed isWord path isStop after ih =>
    have head := namespaceHead_of_path sourceEnd path
      (Or.inr (Or.inl ⟨isStop, rfl⟩))
    rw [ofTokens_of_tree listed stay, ofTokens_of_namespace isWord head]
    dsimp only
    rw [ih (stay.enterFile names) (by rw [ofTokens]), scopePath_cons]
    rfl

end Outline

end Scaffold
