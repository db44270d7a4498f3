/-
**Blanks between tokens take no part in reading.**

Readers skip blanks wherever they stand, and they stop at, or pass, the first token that is none of
the kinds that matter. So blanks can be left out of the tokens, and of several such tokens in a row
all but the first one (`Tokens.squeezed`). A reader makes of squeezed tokens what it makes of the
tokens, and what it leaves of them is squeezed:

* `namespaceHead_squeezed`, `declarationHead_squeezed`: the heads of namespaces and enums;
* `memberValue_squeezed`, `body_squeezed`: the members of a body, with their values;
* `ofTokens_squeezed`: the outline is the same, with its comments and with its defect.
-/

import Scaffold.Proofs.Extraction.Enumerators
import Scaffold.Proofs.Extraction.Redaction

namespace Scaffold

namespace Tokens

variable {token : Token} {tokens rest : Tokens} {kind : TokenKind}

/-- The tokens without blanks, and with one token for several in a row that are none of the kinds
that matter. -/
def squeezed : Tokens → Tokens
  | [] => []
  | token :: rest =>
    if token.kind = .whitespace then squeezed rest
    else if token.kind = .other then token :: (squeezed rest).dropOne .other
    else token :: squeezed rest

/-- A kind of which every token stays. -/
def IsKept (kind : TokenKind) : Prop := kind ≠ .whitespace ∧ kind ≠ .other

instance (kind : TokenKind) : Decidable (IsKept kind) := inferInstanceAs (Decidable (_ ∧ _))

/-! ### Single tokens -/

theorem squeezed_of_blank (blank : token.kind = .whitespace) (rest : Tokens) :
    squeezed (token :: rest) = rest.squeezed :=
  if_pos blank

theorem squeezed_of_other (other : token.kind = .other) (rest : Tokens) :
    squeezed (token :: rest) = token :: rest.squeezed.dropOne .other := by
  rw [squeezed, if_neg (by simp [other]), if_pos other]

theorem squeezed_of_kept (kept : IsKept token.kind) (rest : Tokens) :
    squeezed (token :: rest) = token :: rest.squeezed := by
  rw [squeezed, if_neg kept.1, if_neg kept.2]

theorem squeezed_of_kind (same : token.kind = kind) (kept : IsKept kind) (rest : Tokens) :
    squeezed (token :: rest) = token :: rest.squeezed :=
  squeezed_of_kept (same ▸ kept) rest

theorem exists_squeezed (solid : token.kind ≠ .whitespace) (rest : Tokens) :
    ∃ more, squeezed (token :: rest) = token :: more := by
  by_cases other : token.kind = .other
  · exact ⟨_, squeezed_of_other other rest⟩
  · exact ⟨_, squeezed_of_kept ⟨solid, other⟩ rest⟩

theorem squeezed_cons_congr {others : Tokens} (same : rest.squeezed = others.squeezed)
    (token : Token) : squeezed (token :: rest) = squeezed (token :: others) := by
  rw [squeezed, squeezed, same]

/-- Of two tokens in a row that are none of the kinds that matter, the first one stays. -/
theorem squeezed_of_others {next : Token} (other : token.kind = .other)
    (otherNext : next.kind = .other) (rest : Tokens) :
    squeezed (token :: next :: rest) = squeezed (token :: rest) := by
  rw [squeezed_of_other other, squeezed_of_other other, squeezed_of_other otherNext, dropOne,
    if_pos otherNext]

theorem isKept_of_isComment (isComment : kind.isComment = true) : IsKept kind := by
  cases kind <;> first | decide | cases isComment

/-! ### Single steps -/

theorem offset_squeezed (solid : tokens.peek? ≠ some .whitespace) (sourceEnd : Nat) :
    tokens.squeezed.offset sourceEnd = tokens.offset sourceEnd := by
  cases tokens with
  | nil => rfl
  | cons token rest =>
    obtain ⟨more, same⟩ := exists_squeezed (fun blank => solid (congrArg some blank)) rest
    rw [same]
    rfl

theorem peek?_squeezed (solid : tokens.peek? ≠ some .whitespace) :
    tokens.squeezed.peek? = tokens.peek? := by
  cases tokens with
  | nil => rfl
  | cons token rest =>
    obtain ⟨more, same⟩ := exists_squeezed (fun blank => solid (congrArg some blank)) rest
    rw [same]
    rfl

theorem dropOne_squeezed (kept : IsKept kind) (solid : tokens.peek? ≠ some .whitespace) :
    tokens.squeezed.dropOne kind = (tokens.dropOne kind).squeezed := by
  by_cases next : tokens.peek? = some kind
  · cases tokens with
    | nil => cases next
    | cons token rest =>
      have same : token.kind = kind := Option.some.inj next
      rw [squeezed_of_kind same kept, dropOne, if_pos same, dropOne, if_pos same]
  · rw [dropOne_of_ne next, dropOne_of_ne (by rwa [peek?_squeezed solid])]

theorem peek?_skipSpacing_solid (tokens : Tokens) : tokens.skipSpacing.peek? ≠ some .whitespace := by
  have stops := List.head?_dropWhile_not (fun token : Token => token.kind == .whitespace) tokens
  intro blank
  rw [peek?, skipSpacing] at blank
  obtain ⟨token, found, kind⟩ := Option.map_eq_some_iff.mp blank
  rw [found] at stops
  simp [kind] at stops

theorem peek?_skipTrivia_solid (tokens : Tokens) : tokens.skipTrivia.peek? ≠ some .whitespace := by
  cases found : tokens.skipTrivia with
  | nil => exact nofun
  | cons token rest =>
    intro blank
    have significant := not_isTrivia_of_skipTrivia found
    rw [Option.some.inj blank] at significant
    cases significant

theorem solid_of_skipTrivia (found : tokens.skipTrivia = token :: rest) :
    token.kind ≠ .whitespace := by
  intro blank
  have solid := peek?_skipTrivia_solid tokens
  rw [found] at solid
  exact solid (congrArg some blank)

theorem solid_of_skipSpacing (found : tokens.skipSpacing = token :: rest) :
    token.kind ≠ .whitespace := by
  intro blank
  have solid := peek?_skipSpacing_solid tokens
  rw [found] at solid
  exact solid (congrArg some blank)

theorem skipTrivia_squeezed (tokens : Tokens) :
    tokens.squeezed.skipTrivia = tokens.skipTrivia.squeezed := by
  induction tokens with
  | nil => rfl
  | cons token rest ih =>
    by_cases blank : token.kind = .whitespace
    · rw [squeezed_of_blank blank, ih, skipTrivia_of_trivia (by rw [blank]; rfl)]
    · by_cases trivial : token.kind.isTrivia = true
      · have kept : IsKept token.kind :=
          ⟨blank, fun other => by rw [other] at trivial; cases trivial⟩
        rw [squeezed_of_kept kept, skipTrivia_of_trivia trivial, skipTrivia_of_trivia trivial, ih]
      · have significant := Bool.eq_false_iff.mpr trivial
        obtain ⟨more, same⟩ := exists_squeezed blank rest
        rw [skipTrivia_of_not_trivia significant, same, skipTrivia_of_not_trivia significant]

theorem skipSpacing_squeezed (tokens : Tokens) :
    tokens.squeezed.skipSpacing = tokens.skipSpacing.squeezed := by
  induction tokens with
  | nil => rfl
  | cons token rest ih =>
    by_cases blank : token.kind = .whitespace
    · rw [squeezed_of_blank blank, ih, skipSpacing, skipSpacing,
        List.dropWhile_cons_of_pos (by simp [blank])]
    · obtain ⟨more, same⟩ := exists_squeezed blank rest
      rw [skipSpacing_of_ne blank, same, skipSpacing_of_ne blank]

theorem skipPast_cons_of_ne (different : token.kind ≠ kind) (rest : Tokens) :
    skipPast kind (token :: rest) = skipPast kind rest := by
  rw [skipPast, skipPast, List.dropWhile_cons_of_pos (by simp [different])]

theorem skipPast_dropOne {dropped : TokenKind} (different : dropped ≠ kind) (tokens : Tokens) :
    skipPast kind (tokens.dropOne dropped) = skipPast kind tokens := by
  cases tokens with
  | nil => rfl
  | cons token rest =>
    by_cases same : token.kind = dropped
    · rw [dropOne, if_pos same, skipPast_cons_of_ne (same ▸ different)]
    · rw [dropOne, if_neg same]

theorem skipPast_squeezed (kept : IsKept kind) (tokens : Tokens) :
    skipPast kind tokens.squeezed = (skipPast kind tokens).squeezed := by
  induction tokens with
  | nil => rfl
  | cons token rest ih =>
    by_cases blank : token.kind = .whitespace
    · rw [squeezed_of_blank blank, ih, skipPast_cons_of_ne (blank ▸ Ne.symm kept.1)]
    by_cases other : token.kind = .other
    · rw [squeezed_of_other other, skipPast_cons_of_ne (other ▸ Ne.symm kept.2),
        skipPast_cons_of_ne (other ▸ Ne.symm kept.2), skipPast_dropOne (Ne.symm kept.2), ih]
    rw [squeezed_of_kept ⟨blank, other⟩]
    by_cases same : token.kind = kind
    · rw [skipPast, skipPast, List.dropWhile_cons_of_neg (by simp [same]),
        List.dropWhile_cons_of_neg (by simp [same])]
      rfl
    · rw [skipPast_cons_of_ne same, skipPast_cons_of_ne same, ih]

theorem trailingComment_squeezed (tokens : Tokens) :
    tokens.squeezed.trailingComment =
      (tokens.trailingComment.1, tokens.trailingComment.2.squeezed) := by
  unfold trailingComment
  rw [skipSpacing_squeezed]
  cases found : tokens.skipSpacing with
  | nil => rfl
  | cons token rest =>
    by_cases isComment : token.kind.isComment = true
    · rw [squeezed_of_kept (isKept_of_isComment isComment)]
      dsimp only
      rw [if_pos isComment, if_pos isComment]
    · obtain ⟨more, same⟩ := exists_squeezed (solid_of_skipSpacing found) rest
      dsimp only
      rw [same]
      dsimp only
      rw [if_neg isComment, if_neg isComment, same]

theorem eatIf_squeezed {test : Token → Prop} [DecidablePred test]
    (kept : ∀ token, test token → IsKept token.kind) (tokens : Tokens) :
    tokens.squeezed.eatIf test = ((tokens.eatIf test).1, (tokens.eatIf test).2.squeezed) := by
  unfold eatIf
  rw [skipTrivia_squeezed]
  cases found : tokens.skipTrivia with
  | nil => rfl
  | cons token rest =>
    by_cases passed : test token
    · rw [squeezed_of_kept (kept token passed)]
      dsimp only
      rw [if_pos passed, if_pos passed]
    · obtain ⟨more, squeezes⟩ := exists_squeezed (solid_of_skipTrivia found) rest
      dsimp only
      rw [squeezes]
      dsimp only
      rw [if_neg passed, if_neg passed, squeezes]

theorem eat_squeezed (kept : IsKept kind) (tokens : Tokens) :
    tokens.squeezed.eat kind = ((tokens.eat kind).1, (tokens.eat kind).2.squeezed) := by
  refine @eatIf_squeezed (fun token => token.kind = kind) _ (fun token same => ?_) tokens
  rwa [same]

theorem eatWord_squeezed (word : Text) (tokens : Tokens) :
    tokens.squeezed.eatWord word = ((tokens.eatWord word).1, (tokens.eatWord word).2.squeezed) := by
  refine @eatIf_squeezed (fun token => token.isWord word = true) _ (fun token isWord => ?_) tokens
  rw [(Token.isWord_iff.mp isWord).1]
  decide

theorem identifier?_squeezed (tokens : Tokens) :
    tokens.squeezed.identifier? =
      tokens.identifier?.map fun found => (found.1, found.2.squeezed) := by
  unfold identifier?
  rw [skipTrivia_squeezed]
  cases found : tokens.skipTrivia with
  | nil => rfl
  | cons token rest =>
    by_cases name : token.kind = .identifier
    · rw [squeezed_of_kind name (by decide)]
      dsimp only
      rw [if_pos name, if_pos name]
      rfl
    · obtain ⟨more, squeezes⟩ := exists_squeezed (solid_of_skipTrivia found) rest
      dsimp only
      rw [squeezes]
      dsimp only
      rw [if_neg name, if_neg name]
      rfl

end Tokens

open Tokens

namespace Outline

/-! ### Readers -/

variable {sourceEnd depth : Nat} {scopes : List Scope} {tokens : Tokens}

theorem namespaceNames_squeezed (tokens : Tokens) :
    namespaceNames tokens.squeezed =
      ((namespaceNames tokens).1, (namespaceNames tokens).2.squeezed) := by
  fun_induction namespaceNames tokens with
  | case1 tokens shorter found =>
    rw [namespaceNames_eq, skipTrivia_squeezed, found]
    rfl
  | case2 tokens shorter token rest found inner kind =>
    obtain ⟨more, same⟩ := exists_squeezed (solid_of_skipTrivia found) rest
    rw [namespaceNames_eq, skipTrivia_squeezed, found, same]
    exact if_pos kind
  | case3 tokens shorter token rest found inner kind word ih =>
    rw [namespaceNames_eq, skipTrivia_squeezed, found,
      squeezed_of_kind (not_not.mp kind) (by decide)]
    simp only [kind, word, if_false, if_true, ih]
  | case4 tokens shorter token rest found inner kind word after next =>
    rw [namespaceNames_eq, skipTrivia_squeezed, found,
      squeezed_of_kind (not_not.mp kind) (by decide)]
    simp only [kind, word, if_false, eat_squeezed (by decide : IsKept .doubleColon), next,
      Bool.false_eq_true]
  | case5 tokens shorter token rest found inner kind word after next bounded more ih =>
    rw [namespaceNames_eq, skipTrivia_squeezed, found,
      squeezed_of_kind (not_not.mp kind) (by decide)]
    simp only [kind, word, if_false, if_true, eat_squeezed (by decide : IsKept .doubleColon), next,
      ih, more]

theorem namespaceHead_squeezed (tokens : Tokens) :
    namespaceHead sourceEnd tokens.squeezed =
      (namespaceHead sourceEnd tokens).map fun head => (head.1, head.2.1, head.2.2.squeezed) := by
  unfold namespaceHead
  rw [namespaceNames_squeezed]
  dsimp only
  rw [skipTrivia_squeezed]
  cases found : (namespaceNames tokens).2.skipTrivia with
  | nil => rfl
  | cons token rest =>
    by_cases other : token.kind = .other
    · rw [squeezed_of_other other]
      simp only [other]
      rfl
    · rw [squeezed_of_kept ⟨solid_of_skipTrivia found, other⟩]
      dsimp only
      cases token.kind <;> rfl

theorem skipEnumKind_squeezed (tokens : Tokens) :
    skipEnumKind tokens.squeezed = (skipEnumKind tokens).squeezed := by
  unfold skipEnumKind
  simp only [eatWord_squeezed]
  split <;> rfl

theorem declarationHead_squeezed (name : Text) (tokens : Tokens) :
    declarationHead sourceEnd name tokens.squeezed =
      (declarationHead sourceEnd name tokens).map fun head => (head.1, head.2.squeezed) := by
  have commented (own : List Excerpt) (head : Except Defect (Option (List Excerpt) × Tokens)) :
      (head.map fun head => (head.1, head.2.squeezed)).map (addComments own) =
        (head.map (addComments own)).map fun head => (head.1, head.2.squeezed) := by
    cases head <;> rfl
  induction tokens with
  | nil =>
    rw [squeezed, declarationHead_eq]
    rfl
  | cons token rest ih =>
    by_cases blank : token.kind = .whitespace
    · have silent : ¬ token.kind.isComment = true := by simp [blank, TokenKind.isComment]
      rw [squeezed_of_blank blank, ih, declarationHead_of_trivia (by rw [blank]; rfl),
        if_neg silent, addComments_nil]
      cases declarationHead sourceEnd name rest <;> rfl
    by_cases trivial : token.kind.isTrivia = true
    · have kept : IsKept token.kind :=
        ⟨blank, fun other => by rw [other] at trivial; cases trivial⟩
      rw [squeezed_of_kept kept, declarationHead_of_trivia trivial,
        declarationHead_of_trivia trivial, ih, commented]
    have significant := Bool.eq_false_iff.mpr trivial
    by_cases type : token.kind = .colon ∨ token.kind = .doubleColon ∨ token.kind = .identifier
    · have kept : IsKept token.kind := by
        rcases type with kind | kind | kind <;> rw [kind] <;> decide
      rw [squeezed_of_kept kept, declarationHead_of_type type, declarationHead_of_type type, ih]
    · by_cases other : token.kind = .other
      · rw [squeezed_of_other other, declarationHead_eq, declarationHead_eq name (token :: rest),
          skipTrivia_of_not_trivia significant, skipTrivia_of_not_trivia significant]
        simp only [other]
        rfl
      · rw [squeezed_of_kept ⟨blank, other⟩, declarationHead_eq,
          declarationHead_eq name (token :: rest), skipTrivia_of_not_trivia significant,
          skipTrivia_of_not_trivia significant, leadingComments_of_not_trivia significant,
          leadingComments_of_not_trivia significant]
        dsimp only
        cases kind : token.kind <;> first | rfl | simp [kind] at type

theorem enumHead_squeezed (tokens : Tokens) :
    enumHead sourceEnd tokens.squeezed =
      (enumHead sourceEnd tokens).map fun head => (head.1, head.2.1, head.2.2.squeezed) := by
  unfold enumHead
  rw [skipEnumKind_squeezed, identifier?_squeezed, skipTrivia_squeezed,
    offset_squeezed (peek?_skipTrivia_solid _)]
  cases (skipEnumKind tokens).identifier? with
  | none => rfl
  | some found =>
    dsimp only [Option.map_some]
    rw [declarationHead_squeezed]
    cases declarationHead sourceEnd found.1.text found.2 <;> rfl

theorem unsigned_squeezed (tokens : Tokens) :
    unsigned tokens.squeezed = (unsigned tokens).squeezed := by
  have solid := peek?_skipSpacing_solid tokens
  unfold unsigned
  rw [skipSpacing_squeezed, peek?_squeezed solid, dropOne_squeezed (by decide) solid,
    skipSpacing_squeezed]
  split <;> rfl

theorem peek?_unsigned_solid (tokens : Tokens) : (unsigned tokens).peek? ≠ some .whitespace := by
  unfold unsigned
  split <;> exact peek?_skipSpacing_solid _

theorem signedValue_squeezed (member : Text) (tokens : Tokens) :
    signedValue sourceEnd member tokens.squeezed =
      (signedValue sourceEnd member tokens).map fun value => (value.1, value.2.squeezed) := by
  have solid := peek?_unsigned_solid tokens
  rw [signedValue_eq, signedValue_eq, unsigned_squeezed, skipSpacing_squeezed,
    peek?_squeezed (peek?_skipSpacing_solid tokens)]
  cases found : unsigned tokens with
  | nil => rfl
  | cons token rest =>
    by_cases number : token.kind = .number
    · rw [squeezed_of_kind number (by decide)]
      dsimp only
      rw [if_pos number]
      cases Literal.value? token.text <;> rfl
    · rw [found] at solid
      obtain ⟨more, same⟩ := exists_squeezed (fun blank => solid (congrArg some blank)) rest
      rw [same]
      dsimp only
      rw [if_neg number]
      rfl

/-- The value of a member is the same. -/
theorem memberValue_squeezed (member : Text) (tokens : Tokens) :
    memberValue sourceEnd member tokens.squeezed =
      (memberValue sourceEnd member tokens).map fun value => (value.1, value.2.squeezed) := by
  unfold memberValue
  rw [skipSpacing_squeezed]
  cases found : tokens.skipSpacing with
  | nil => rfl
  | cons token rest =>
    by_cases equals : token.kind = .equals
    · rw [squeezed_of_kind equals (by decide)]
      dsimp only
      rw [if_pos equals, if_pos equals, signedValue_squeezed]
      cases signedValue sourceEnd member rest <;> rfl
    · obtain ⟨more, same⟩ := exists_squeezed (solid_of_skipSpacing found) rest
      dsimp only
      rw [same]
      dsimp only
      rw [if_neg equals, if_neg equals, Except.map, same]

/-- **The members of a body** are the same. -/
theorem body_squeezed (declaration : Text) (seen : List Text) (ordinal : Int) (tokens : Tokens) :
    body sourceEnd declaration seen ordinal tokens.squeezed =
      ⟨(body sourceEnd declaration seen ordinal tokens).members,
        (body sourceEnd declaration seen ordinal tokens).after.map squeezed⟩ := by
  fun_induction body sourceEnd declaration seen ordinal tokens with
  | case1 seen ordinal tokens shorter found =>
    rw [body_eq, skipTrivia_squeezed, found]
    rfl
  | case2 seen ordinal tokens shorter token rest found inner kind =>
    rw [body_eq, skipTrivia_squeezed, found, squeezed_of_kind kind (by decide)]
    simp only [kind]
    rfl
  | case3 seen ordinal tokens shorter token rest found inner kind bounded ih =>
    rw [body_eq, skipTrivia_squeezed, found, squeezed_of_kind kind (by decide)]
    simp only [kind]
    rw [skipLine, skipPast_squeezed (by decide)]
    exact ih
  | case4 seen ordinal tokens shorter token rest found inner kind member =>
    rw [body_eq, skipTrivia_squeezed, found, squeezed_of_kind kind (by decide)]
    simp only [kind, member, if_true]
    rfl
  | case5 seen ordinal tokens shorter token rest found inner kind member defect valued =>
    rw [body_eq, skipTrivia_squeezed, found, squeezed_of_kind kind (by decide)]
    simp only [kind, member, if_false, memberValue_squeezed, valued, Except.map]
  | case6 seen ordinal tokens shorter token rest found inner kind member value after valued comment
      later trailing bounded shorter' own more ih =>
    rw [body_eq, skipTrivia_squeezed, found, squeezed_of_kind kind (by decide)]
    simp only [kind, member, if_false, memberValue_squeezed, valued, Except.map,
      skipSpacing_squeezed, trailingComment_squeezed, trailing,
      dropOne_squeezed (by decide : IsKept .comma) (peek?_skipSpacing_solid after)]
    rw [ih]
    rfl
  | case7 seen ordinal tokens shorter token rest found inner noClose noHash noName =>
    obtain ⟨more, same⟩ := exists_squeezed (solid_of_skipTrivia found) rest
    rw [body_eq, skipTrivia_squeezed, found, same]
    dsimp only
    cases kind : token.kind <;> first | rfl | contradiction

/-! ### Walks -/

/-- A token that is none of the kinds that matter is passed. -/
theorem ofTokens_dropOne_other (tokens : Tokens) :
    ofTokens sourceEnd scopes depth (tokens.dropOne .other) =
      ofTokens sourceEnd scopes depth tokens := by
  cases tokens with
  | nil => rfl
  | cons token rest =>
    by_cases other : token.kind = .other
    · rw [dropOne, if_pos other, ofTokens_of_filler (Layout.isFiller_of_kind (by simp [other]))]
    · rw [dropOne, if_neg other]

/-- **The outline of squeezed tokens** is that of the tokens. -/
theorem ofTokens_squeezed (sourceEnd : Nat) (scopes : List Scope) (depth : Nat) (tokens : Tokens) :
    ofTokens sourceEnd scopes depth tokens.squeezed = ofTokens sourceEnd scopes depth tokens := by
  fun_induction ofTokens sourceEnd scopes depth tokens with
  | case1 scopes depth =>
    rw [squeezed, ofTokens]
  | case2 scopes depth token rest kind bounded ih =>
    rw [squeezed_of_kind kind (by decide), ofTokens_of_hash kind, skipLine,
      skipPast_squeezed (by decide)]
    exact ih
  | case3 scopes depth token rest kind ih =>
    rw [squeezed_of_kind kind (by decide), ofTokens_of_openBrace kind]
    exact ih
  | case4 scopes depth token rest kind ih =>
    rw [squeezed_of_kind kind (by decide), ofTokens_of_closeBrace kind]
    exact ih
  | case5 scopes depth token rest kind word defect head =>
    rw [squeezed_of_kind kind (by decide), ofTokens_cons]
    simp only [kind, word, if_true, namespaceHead_squeezed, head, Except.map]
  | case6 scopes depth token rest kind word path after head again shorter ih
  | case7 scopes depth token rest kind word path after head again shorter ih =>
    rw [squeezed_of_kind kind (by decide), ofTokens_cons]
    simp only [kind, word, if_true, namespaceHead_squeezed, head, Except.map, ih]
  | case8 scopes depth token rest kind word path after head bounded again shorter ih =>
    rw [squeezed_of_kind kind (by decide), ofTokens_cons]
    simp only [kind, word, if_true, namespaceHead_squeezed, head, Except.map, skipStatement,
      skipPast_squeezed (by decide : IsKept .semicolon)]
    exact ih
  | case9 scopes depth token rest kind noNamespace word bounded ih =>
    rw [squeezed_of_kind kind (by decide), ofTokens_of_using (Token.isWord_iff.mpr ⟨kind, word⟩),
      skipStatement, skipPast_squeezed (by decide)]
    exact ih
  | case10 scopes depth token rest kind noNamespace noUsing word bounded named =>
    rw [squeezed_of_kind kind (by decide), ofTokens_of_enum (Token.isWord_iff.mpr ⟨kind, word⟩),
      enumHead_squeezed, enumHead, named]
    rfl
  | case11 scopes depth token rest kind noNamespace noUsing word bounded name after named shorter
      defect head =>
    rw [squeezed_of_kind kind (by decide), ofTokens_of_enum (Token.isWord_iff.mpr ⟨kind, word⟩),
      enumHead_squeezed, enumHead_of_identifier? named, head]
    rfl
  | case12 scopes depth token rest kind noNamespace noUsing word bounded name after named shorter
      later head again ih =>
    rw [squeezed_of_kind kind (by decide), ofTokens_of_enum (Token.isWord_iff.mpr ⟨kind, word⟩),
      enumHead_squeezed, enumHead_of_identifier? named, head]
    dsimp only [Except.map]
    rw [ih]
  | case13 scopes depth token rest kind noNamespace noUsing word bounded name after named shorter
      comments later head again first fits content declaration defect ended =>
    have found : (body sourceEnd name.text [] 0 later.trailingComment.2).after = .error defect :=
      ended
    rw [squeezed_of_kind kind (by decide), ofTokens_of_enum (Token.isWord_iff.mpr ⟨kind, word⟩),
      enumHead_squeezed, enumHead_of_identifier? named, head]
    dsimp only [Except.map]
    rw [trailingComment_squeezed, body_squeezed, found]
    rfl
  | case14 scopes depth token rest kind noNamespace noUsing word bounded name after named shorter
      comments later head again first fits content declaration last ended inner spaced dropped ih =>
    have found : (body sourceEnd name.text [] 0 later.trailingComment.2).after = .ok last := ended
    rw [squeezed_of_kind kind (by decide), ofTokens_of_enum (Token.isWord_iff.mpr ⟨kind, word⟩),
      enumHead_squeezed, enumHead_of_identifier? named, head]
    dsimp only [Except.map]
    rw [trailingComment_squeezed, body_squeezed, found]
    dsimp only [Except.map]
    rw [skipSpacing_squeezed, dropOne_squeezed (by decide) (peek?_skipSpacing_solid last), ih]
  | case15 scopes depth token rest kind noNamespace noUsing noEnum ih =>
    rw [squeezed_of_kind kind (by decide), ofTokens_cons]
    simp only [kind, noNamespace, noUsing, noEnum, if_false, ih]
  | case16 scopes depth token rest noHash noOpen noClose noName ih =>
    have passed (tokens : Tokens) :
        ofTokens sourceEnd scopes depth (token :: tokens) =
          ofTokens sourceEnd scopes depth tokens := by
      rw [ofTokens_cons]
      cases kind : token.kind <;> first | rfl | contradiction
    by_cases blank : token.kind = .whitespace
    · rw [squeezed_of_blank blank, ih]
    by_cases other : token.kind = .other
    · rw [squeezed_of_other other, passed, ofTokens_dropOne_other, ih]
    · rw [squeezed_of_kept ⟨blank, other⟩, passed, ih]

end Outline

end Scaffold
