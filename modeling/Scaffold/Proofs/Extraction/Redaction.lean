/-
**What may be hidden from the readers of an outline.**

Readers look at the kinds of tokens and at the texts of names and numbers, and they pass comments
on. A redaction is a change of texts that leaves the former as they are and says what becomes of the
latter. A reader makes of redacted tokens what it makes of the tokens, redacted:

* `namespaceHead_redacted`, `declarationHead_redacted`: the heads of namespaces and enums;
* `memberValue_redacted`, `body_redacted`: the members of a body, with their values;
* `ofTokens_redacted`: the outline.

Defects are kept too, without their places. So what is hidden never hides a defect and never is the
cause of one while the outline is read.
-/

import Scaffold.Proofs.Extraction.Walk
import Scaffold.Proofs.Results

namespace Scaffold

/-- A change of texts that readers take no notice of, and what becomes of comments by it. -/
structure Redaction where
  text : Token → Text
  excerpt : Excerpt → Excerpt
  /-- Names and numbers stay. -/
  text_eq {token : Token} : token.kind = .identifier ∨ token.kind = .number →
    text token = token.text
  ofComment_eq {token : Token} : token.kind.isComment = true →
    Excerpt.ofComment (text token) 0 = excerpt (Tokens.comment token)

/-- A defect without its place. -/
def Defect.unplaced (defect : Defect) : Defect := ⟨defect.cause, 0⟩

/-- What a reader finds, with what it found edited or its defect without its place. -/
def redacting {α β : Type} (edit : α → β) : Except Defect α → Except Defect β
  | .error defect => .error defect.unplaced
  | .ok found => .ok (edit found)

namespace Redaction

variable (redaction : Redaction)

/-! ### Redacted outlines -/

/-- A token with its new text and without its place. -/
def token (token : Token) : Token := ⟨token.kind, redaction.text token, 0⟩

def tokens (tokens : Tokens) : Tokens := tokens.map redaction.token

def member (member : Member) : Member :=
  { member with comment := member.comment.map redaction.excerpt }

def declaration (declaration : Declaration) : Declaration :=
  { declaration with
    comments := declaration.comments.map redaction.excerpt
    members := declaration.members.map redaction.member }

def item : OutlineItem → OutlineItem
  | .scope path depth => .scope path depth
  | .forward name => .forward name
  | .declaration item => .declaration (redaction.declaration item)
  | .unfinished item => .unfinished (redaction.declaration item)

def body (body : Outline.Body) : Outline.Body :=
  ⟨body.members.map redaction.member, redacting redaction.tokens body.after⟩

/-- An outline without places and with redacted comments. -/
def outline (outline : Outline) : Outline :=
  ⟨outline.items.map redaction.item, outline.defect.map Defect.unplaced⟩

end Redaction

open Tokens

variable {redaction : Redaction}

theorem Redaction.excerpts_append (comments : List Excerpt) (last : Option Excerpt) :
    comments.map redaction.excerpt ++ (last.map redaction.excerpt).toList =
      (comments ++ last.toList).map redaction.excerpt := by
  cases last <;> simp

@[simp] theorem Redaction.kind_token (token : Token) :
    (redaction.token token).kind = token.kind := rfl

theorem Redaction.text_token {token : Token}
    (isWord : token.kind = .identifier ∨ token.kind = .number) :
    (redaction.token token).text = token.text :=
  redaction.text_eq isWord

theorem Redaction.comment_token {token : Token} (isComment : token.kind.isComment = true) :
    comment (redaction.token token) = redaction.excerpt (comment token) :=
  redaction.ofComment_eq isComment

@[simp] theorem Redaction.tokens_nil : redaction.tokens [] = [] := rfl

@[simp] theorem Redaction.tokens_cons (token : Token) (rest : Tokens) :
    redaction.tokens (token :: rest) = redaction.token token :: redaction.tokens rest := rfl

theorem Token.isWord_redacted (word : Text) (token : Token) :
    (redaction.token token).isWord word = token.isWord word := by
  unfold isWord
  by_cases name : token.kind = .identifier
  · rw [Redaction.kind_token, Redaction.text_token (.inl name)]
  · rw [Redaction.kind_token, beq_eq_false_iff_ne.mpr name, Bool.false_and, Bool.false_and]

open Redaction (kind_token text_token comment_token tokens_nil tokens_cons excerpts_append)

/-! ### Single steps -/

namespace Tokens

theorem offset_redacted (tokens : Tokens) : (redaction.tokens tokens).offset 0 = 0 := by
  cases tokens <;> rfl

theorem peek?_redacted (tokens : Tokens) : (redaction.tokens tokens).peek? = tokens.peek? := by
  cases tokens <;> rfl

theorem skipTrivia_redacted (tokens : Tokens) :
    (redaction.tokens tokens).skipTrivia = redaction.tokens tokens.skipTrivia :=
  List.dropWhile_map ..

theorem skipSpacing_redacted (tokens : Tokens) :
    (redaction.tokens tokens).skipSpacing = redaction.tokens tokens.skipSpacing :=
  List.dropWhile_map ..

theorem skipPast_redacted (kind : TokenKind) (tokens : Tokens) :
    (redaction.tokens tokens).skipPast kind = redaction.tokens (tokens.skipPast kind) := by
  unfold skipPast Redaction.tokens
  rw [List.dropWhile_map, ← List.map_drop]
  rfl

theorem dropOne_redacted (kind : TokenKind) (tokens : Tokens) :
    (redaction.tokens tokens).dropOne kind = redaction.tokens (tokens.dropOne kind) := by
  cases tokens with
  | nil => rfl
  | cons token rest =>
    rw [tokens_cons, dropOne, dropOne, apply_ite redaction.tokens, tokens_cons]
    rfl

theorem ownComment_redacted (token : Token) :
    (if (redaction.token token).kind.isComment then [comment (redaction.token token)] else []) =
      (if token.kind.isComment then [comment token] else []).map redaction.excerpt := by
  by_cases isComment : token.kind.isComment = true
  · rw [kind_token, if_pos isComment, if_pos isComment, comment_token isComment]
    rfl
  · rw [kind_token, if_neg isComment, if_neg isComment]
    rfl

theorem trailingComment_redacted (tokens : Tokens) :
    (redaction.tokens tokens).trailingComment =
      (tokens.trailingComment.1.map redaction.excerpt,
        redaction.tokens tokens.trailingComment.2) := by
  unfold trailingComment
  rw [skipSpacing_redacted]
  cases tokens.skipSpacing with
  | nil => rfl
  | cons token rest =>
    rw [tokens_cons]
    dsimp only
    by_cases isComment : token.kind.isComment = true
    · rw [kind_token, if_pos isComment, if_pos isComment, comment_token isComment]
      rfl
    · rw [kind_token, if_neg isComment, if_neg isComment]
      rfl

theorem eatIf_redacted {test : Token → Prop} [DecidablePred test]
    (same : ∀ token, test (redaction.token token) ↔ test token) (tokens : Tokens) :
    (redaction.tokens tokens).eatIf test =
      ((tokens.eatIf test).1, redaction.tokens (tokens.eatIf test).2) := by
  unfold eatIf
  rw [skipTrivia_redacted]
  cases tokens.skipTrivia with
  | nil => rfl
  | cons token rest =>
    rw [tokens_cons]
    dsimp only
    by_cases passed : test token
    · rw [if_pos passed, if_pos ((same token).mpr passed)]
    · rw [if_neg passed, if_neg fun redacted => passed ((same token).mp redacted)]
      rfl

theorem eat_redacted (kind : TokenKind) (tokens : Tokens) :
    (redaction.tokens tokens).eat kind =
      ((tokens.eat kind).1, redaction.tokens (tokens.eat kind).2) :=
  eatIf_redacted (fun token => by rw [kind_token]) tokens

theorem eatWord_redacted (word : Text) (tokens : Tokens) :
    (redaction.tokens tokens).eatWord word =
      ((tokens.eatWord word).1, redaction.tokens (tokens.eatWord word).2) :=
  eatIf_redacted (fun token => by rw [Token.isWord_redacted]) tokens

theorem identifier?_redacted (tokens : Tokens) :
    (redaction.tokens tokens).identifier? =
      tokens.identifier?.map fun found => (redaction.token found.1, redaction.tokens found.2) := by
  unfold identifier?
  rw [skipTrivia_redacted]
  cases tokens.skipTrivia with
  | nil => rfl
  | cons token rest =>
    rw [tokens_cons]
    dsimp only
    rw [kind_token]
    split <;> rfl

theorem kind_of_identifier? {tokens rest : Tokens} {token : Token}
    (found : tokens.identifier? = some (token, rest)) : token.kind = .identifier := by
  unfold identifier? at found
  split at found
  · cases found
  · split at found
    · cases found
      assumption
    · cases found

end Tokens

namespace Outline

/-! ### Readers -/

variable {sourceEnd depth : Nat} {scopes : List Scope} {tokens : Tokens}

theorem namespaceNames_redacted (tokens : Tokens) :
    namespaceNames (redaction.tokens tokens) =
      ((namespaceNames tokens).1, redaction.tokens (namespaceNames tokens).2) := by
  fun_induction namespaceNames tokens with
  | case1 tokens shorter found =>
    rw [namespaceNames_eq, skipTrivia_redacted, found]
    rfl
  | case2 tokens shorter token rest found inner kind =>
    rw [namespaceNames_eq, skipTrivia_redacted, found]
    exact if_pos kind
  | case3 tokens shorter token rest found inner kind word ih =>
    have name := not_not.mp kind
    rw [namespaceNames_eq, skipTrivia_redacted, found]
    simp only [tokens_cons, kind_token, text_token (.inl name), kind, word, if_false, if_true, ih]
  | case4 tokens shorter token rest found inner kind word after next =>
    have name := not_not.mp kind
    rw [namespaceNames_eq, skipTrivia_redacted, found]
    simp only [tokens_cons, kind_token, text_token (.inl name), kind, word, if_false,
      eat_redacted, next, Bool.false_eq_true]
  | case5 tokens shorter token rest found inner kind word after next bounded more ih =>
    have name := not_not.mp kind
    rw [namespaceNames_eq, skipTrivia_redacted, found]
    simp only [tokens_cons, kind_token, text_token (.inl name), kind, word, if_false,
      if_true, eat_redacted, next, ih, more]

variable (sourceEnd) in
theorem namespaceHead_redacted (tokens : Tokens) :
    namespaceHead 0 (redaction.tokens tokens) =
      redacting (fun head => (head.1, head.2.1, redaction.tokens head.2.2))
        (namespaceHead sourceEnd tokens) := by
  unfold namespaceHead
  rw [namespaceNames_redacted]
  dsimp only
  rw [skipTrivia_redacted]
  cases (namespaceNames tokens).2.skipTrivia with
  | nil => rfl
  | cons token rest =>
    rw [tokens_cons]
    dsimp only
    rw [kind_token]
    cases token.kind <;> rfl

theorem skipEnumKind_redacted (tokens : Tokens) :
    skipEnumKind (redaction.tokens tokens) = redaction.tokens (skipEnumKind tokens) := by
  unfold skipEnumKind
  simp only [eatWord_redacted]
  split <;> rfl

/-- More comments in front of a head are redacted with those it has. -/
theorem redacting_addComments (own : List Excerpt)
    (head : Except Defect (Option (List Excerpt) × Tokens)) :
    redacting (fun head => (head.1.map (List.map redaction.excerpt), redaction.tokens head.2))
        (head.map (addComments own)) =
      (redacting (fun head => (head.1.map (List.map redaction.excerpt), redaction.tokens head.2))
        head).map (addComments (own.map redaction.excerpt)) := by
  rcases head with defect | ⟨_ | comments, after⟩
  · rfl
  · rfl
  · simp only [redacting, Except.map, addComments, Option.map_some, List.map_append]

variable (sourceEnd) in
theorem declarationHead_redacted (name : Text) (tokens : Tokens) :
    declarationHead 0 name (redaction.tokens tokens) =
      redacting (fun head => (head.1.map (List.map redaction.excerpt), redaction.tokens head.2))
        (declarationHead sourceEnd name tokens) := by
  induction tokens with
  | nil =>
    rw [tokens_nil, declarationHead_eq, declarationHead_eq]
    rfl
  | cons token rest ih =>
    have sameKind : (redaction.token token).kind.isTrivia = token.kind.isTrivia := rfl
    rw [tokens_cons]
    by_cases isTrivia : token.kind.isTrivia = true
    · rw [declarationHead_of_trivia isTrivia, declarationHead_of_trivia (sameKind.trans isTrivia),
        ih, redacting_addComments, ownComment_redacted]
    · have significant := Bool.eq_false_iff.mpr isTrivia
      by_cases type : token.kind = .colon ∨ token.kind = .doubleColon ∨ token.kind = .identifier
      · have redactedType : (redaction.token token).kind = .colon ∨
            (redaction.token token).kind = .doubleColon ∨
            (redaction.token token).kind = .identifier := type
        rw [declarationHead_of_type type, declarationHead_of_type redactedType, ih]
      · rw [declarationHead_eq, declarationHead_eq name (token :: rest),
          skipTrivia_of_not_trivia significant,
          skipTrivia_of_not_trivia (sameKind.trans significant),
          leadingComments_of_not_trivia significant,
          leadingComments_of_not_trivia (sameKind.trans significant)]
        dsimp only
        rw [kind_token]
        cases kind : token.kind <;> first | rfl | simp [kind] at type

variable (sourceEnd) in
theorem enumHead_redacted (tokens : Tokens) :
    enumHead 0 (redaction.tokens tokens) =
      redacting (fun head =>
          (head.1, head.2.1.map (List.map redaction.excerpt), redaction.tokens head.2.2))
        (enumHead sourceEnd tokens) := by
  unfold enumHead
  rw [skipEnumKind_redacted, identifier?_redacted, skipTrivia_redacted, offset_redacted]
  cases named : (skipEnumKind tokens).identifier? with
  | none => rfl
  | some found =>
    obtain ⟨name, after⟩ := found
    dsimp only [Option.map_some]
    rw [text_token (.inl (kind_of_identifier? named)), declarationHead_redacted sourceEnd]
    cases declarationHead sourceEnd name.text after <;> rfl

/-- What a number may start after a sign. -/
def unsigned (tokens : Tokens) : Tokens :=
  if tokens.skipSpacing.peek? == some .minus then
    (tokens.skipSpacing.dropOne .minus).skipSpacing
  else tokens.skipSpacing

theorem unsigned_redacted (tokens : Tokens) :
    unsigned (redaction.tokens tokens) = redaction.tokens (unsigned tokens) := by
  unfold unsigned
  simp only [skipSpacing_redacted, peek?_redacted, dropOne_redacted]
  split <;> rfl

theorem signedValue_eq (member : Text) (tokens : Tokens) :
    signedValue sourceEnd member tokens =
      match unsigned tokens with
      | [] => .error (.malformed (.valueNotInteger member) sourceEnd)
      | token :: rest =>
        match if token.kind = .number then Literal.value? token.text else none with
        | some value =>
          .ok (if tokens.skipSpacing.peek? == some .minus then -value else value, rest)
        | none => .error (.malformed (.valueNotInteger member) token.offset) := rfl

variable (sourceEnd) in
theorem signedValue_redacted (member : Text) (tokens : Tokens) :
    signedValue 0 member (redaction.tokens tokens) =
      redacting (fun value => (value.1, redaction.tokens value.2))
        (signedValue sourceEnd member tokens) := by
  rw [signedValue_eq, signedValue_eq, unsigned_redacted, skipSpacing_redacted, peek?_redacted]
  cases unsigned tokens with
  | nil => rfl
  | cons token rest =>
    rw [tokens_cons]
    dsimp only
    by_cases number : token.kind = .number
    · rw [kind_token, if_pos number, if_pos number, text_token (.inr number)]
      cases Literal.value? token.text <;> rfl
    · rw [kind_token, if_neg number, if_neg number]
      rfl

variable (sourceEnd) in
/-- The value of a member is the same. -/
theorem memberValue_redacted (member : Text) (tokens : Tokens) :
    memberValue 0 member (redaction.tokens tokens) =
      redacting (fun value => (value.1, redaction.tokens value.2))
        (memberValue sourceEnd member tokens) := by
  unfold memberValue
  rw [skipSpacing_redacted]
  cases tokens.skipSpacing with
  | nil => rfl
  | cons token rest =>
    rw [tokens_cons]
    dsimp only
    rw [kind_token]
    by_cases equals : token.kind = .equals
    · rw [if_pos equals, if_pos equals, signedValue_redacted sourceEnd]
      cases signedValue sourceEnd member rest <;> rfl
    · rw [if_neg equals, if_neg equals]
      rfl

variable (sourceEnd) in
/-- **The members of a body** have the same names and values in the same order. -/
theorem body_redacted (declaration : Text) (seen : List Text) (ordinal : Int) (tokens : Tokens) :
    body 0 declaration seen ordinal (redaction.tokens tokens) =
      redaction.body (body sourceEnd declaration seen ordinal tokens) := by
  fun_induction body sourceEnd declaration seen ordinal tokens with
  | case1 seen ordinal tokens shorter found =>
    rw [body_eq, skipTrivia_redacted, found]
    rfl
  | case2 seen ordinal tokens shorter token rest found inner kind =>
    rw [body_eq, skipTrivia_redacted, found]
    simp only [tokens_cons, kind_token, kind]
    rfl
  | case3 seen ordinal tokens shorter token rest found inner kind bounded ih =>
    rw [body_eq, skipTrivia_redacted, found]
    simp only [tokens_cons, kind_token, kind]
    rw [skipLine, skipPast_redacted]
    exact ih
  | case4 seen ordinal tokens shorter token rest found inner kind member =>
    rw [body_eq, skipTrivia_redacted, found]
    simp only [tokens_cons, kind_token, text_token (.inl kind), kind, member, if_true]
    rfl
  | case5 seen ordinal tokens shorter token rest found inner kind member defect valued =>
    rw [body_eq, skipTrivia_redacted, found]
    simp only [tokens_cons, kind_token, text_token (.inl kind), kind, member, if_false,
      memberValue_redacted sourceEnd, valued, redacting]
    rfl
  | case6 seen ordinal tokens shorter token rest found inner kind member value after valued comment
      later trailing bounded shorter' own more ih =>
    rw [body_eq, skipTrivia_redacted, found]
    simp only [tokens_cons, kind_token, text_token (.inl kind), kind, member, if_false,
      memberValue_redacted sourceEnd, valued, redacting, skipSpacing_redacted, dropOne_redacted,
      trailingComment_redacted, trailing]
    rw [ih]
    rfl
  | case7 seen ordinal tokens shorter token rest found inner noClose noHash noName =>
    rw [body_eq, skipTrivia_redacted, found]
    simp only [tokens_cons, kind_token]
    cases kind : token.kind <;> rfl

/-! ### Walks -/

variable (redaction sourceEnd) in
/-- **The outline of redacted tokens** is the redacted outline: the same namespaces, declarations
and members, and the same defect where there is one. -/
theorem ofTokens_redacted (scopes : List Scope) (depth : Nat) (tokens : Tokens) :
    ofTokens 0 scopes depth (redaction.tokens tokens) =
      redaction.outline (ofTokens sourceEnd scopes depth tokens) := by
  have isWord {token : Token} {word : Text} (kind : token.kind = .identifier)
      (text : token.text = word) : (redaction.token token).isWord word = true :=
    (Token.isWord_redacted word token).trans (Token.isWord_iff.mpr ⟨kind, text⟩)
  fun_induction ofTokens sourceEnd scopes depth tokens with
  | case1 scopes depth =>
    rw [tokens_nil, ofTokens]
    rfl
  | case2 scopes depth token rest kind bounded ih =>
    rw [tokens_cons, ofTokens_cons, kind_token, kind]
    dsimp only
    rw [skipLine, skipPast_redacted]
    exact ih
  | case3 scopes depth token rest kind ih | case4 scopes depth token rest kind ih =>
    rw [tokens_cons, ofTokens_cons, kind_token, kind]
    exact ih
  | case5 scopes depth token rest kind word defect head =>
    rw [tokens_cons, ofTokens_cons]
    simp only [kind_token, text_token (.inl kind), kind, word, if_true,
      namespaceHead_redacted sourceEnd, head, redacting]
    rfl
  | case6 scopes depth token rest kind word path after head again shorter ih
  | case7 scopes depth token rest kind word path after head again shorter ih =>
    rw [tokens_cons, ofTokens_cons]
    simp only [kind_token, text_token (.inl kind), kind, word, if_true,
      namespaceHead_redacted sourceEnd, head, redacting, ih]
    rfl
  | case8 scopes depth token rest kind word path after head bounded again shorter ih =>
    rw [tokens_cons, ofTokens_cons]
    simp only [kind_token, text_token (.inl kind), kind, word, if_true,
      namespaceHead_redacted sourceEnd, head, redacting, skipStatement, skipPast_redacted]
    exact ih
  | case9 scopes depth token rest kind noNamespace word bounded ih =>
    rw [tokens_cons, ofTokens_of_using (isWord kind word), skipStatement, skipPast_redacted]
    exact ih
  | case10 scopes depth token rest kind noNamespace noUsing word bounded named =>
    rw [tokens_cons, ofTokens_of_enum (isWord kind word), enumHead_redacted sourceEnd, enumHead,
      named]
    rfl
  | case11 scopes depth token rest kind noNamespace noUsing word bounded name after named shorter
      defect head =>
    rw [tokens_cons, ofTokens_of_enum (isWord kind word), enumHead_redacted sourceEnd,
      enumHead_of_identifier? named, head]
    rfl
  | case12 scopes depth token rest kind noNamespace noUsing word bounded name after named shorter
      later head again ih =>
    rw [tokens_cons, ofTokens_of_enum (isWord kind word), enumHead_redacted sourceEnd,
      enumHead_of_identifier? named, head]
    dsimp only [Except.map, redacting, Option.map_none]
    rw [ih]
    rfl
  | case13 scopes depth token rest kind noNamespace noUsing word bounded name after named shorter
      comments later head again first fits content declaration defect ended =>
    have found : (body sourceEnd name.text [] 0 later.trailingComment.2).after = .error defect :=
      ended
    rw [tokens_cons, ofTokens_of_enum (isWord kind word), enumHead_redacted sourceEnd,
      enumHead_of_identifier? named, head]
    dsimp only [Except.map, redacting, Option.map_some]
    rw [trailingComment_redacted, body_redacted sourceEnd]
    dsimp only [Redaction.body]
    rw [found, excerpts_append]
    rfl
  | case14 scopes depth token rest kind noNamespace noUsing word bounded name after named shorter
      comments later head again first fits content declaration last ended inner spaced dropped ih =>
    have found : (body sourceEnd name.text [] 0 later.trailingComment.2).after = .ok last := ended
    rw [tokens_cons, ofTokens_of_enum (isWord kind word), enumHead_redacted sourceEnd,
      enumHead_of_identifier? named, head]
    dsimp only [Except.map, redacting, Option.map_some]
    rw [trailingComment_redacted, body_redacted sourceEnd]
    dsimp only [Redaction.body]
    rw [found, excerpts_append]
    dsimp only [redacting]
    rw [skipSpacing_redacted, dropOne_redacted, ih]
    rfl
  | case15 scopes depth token rest kind noNamespace noUsing noEnum ih =>
    rw [tokens_cons, ofTokens_cons]
    simp only [kind_token, text_token (.inl kind), kind, noNamespace, noUsing, noEnum,
      if_false, ih]
  | case16 scopes depth token rest noHash noOpen noClose noName ih =>
    rw [tokens_cons, ofTokens_cons, kind_token]
    cases kind : token.kind <;> first | exact ih | contradiction


end Outline

end Scaffold
