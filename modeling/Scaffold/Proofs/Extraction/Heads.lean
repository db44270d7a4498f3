/-
**What the readers of an outline make of a written part.**

Each reader of the outline is given the tokens of one part and whatever follows, and it returns that
part and exactly what follows:

* `namespaceHead_of_path`: the names of a namespace and what they are followed by;
* `identifier?_of_enumName`: the name of an enum;
* `declarationHead_of_head`, `enumHead_of_head`: the comments before a body;
* `body_of_members`: the members of a body, with the brace that closes it.

The readers skip all trivia at once, the layout relations take one token at a time; so the lemmas
before these say what a reader does at a single token.
-/

import Mathlib.Data.List.DropRight
import Scaffold.Proofs.Extraction.Layout

namespace Scaffold

theorem TokenKind.isTrivia_of_isComment {kind : TokenKind} (isComment : kind.isComment = true) :
    kind.isTrivia = true := by
  cases kind <;> first | rfl | cases isComment

/-! ### Skipping tokens -/

namespace Tokens

variable {token stop : Token} {space line tokens rest : Tokens} {kind : TokenKind}

theorem skipTrivia_of_trivia (trivial : token.kind.isTrivia = true) (tokens : Tokens) :
    skipTrivia (token :: tokens) = tokens.skipTrivia :=
  List.dropWhile_cons_of_pos trivial

theorem skipTrivia_of_not_trivia (significant : token.kind.isTrivia = false)
    (tokens : Tokens) : skipTrivia (token :: tokens) = token :: tokens :=
  List.dropWhile_cons_of_neg (by simp [significant])

theorem skipTrivia_of_kind (same : token.kind = kind) (significant : kind.isTrivia = false)
    (tokens : Tokens) : skipTrivia (token :: tokens) = token :: tokens :=
  skipTrivia_of_not_trivia (by rw [same, significant]) tokens

theorem skipTrivia_append (trivial : ∀ token ∈ space, token.kind.isTrivia = true)
    (tokens : Tokens) : skipTrivia (space ++ tokens) = tokens.skipTrivia :=
  List.dropWhile_append_of_pos trivial

theorem skipSpacing_append (blank : ∀ token ∈ space, (token.kind == .whitespace) = true)
    (tokens : Tokens) : skipSpacing (space ++ tokens) = tokens.skipSpacing :=
  List.dropWhile_append_of_pos blank

theorem skipSpacing_of_ne (solid : token.kind ≠ .whitespace) (tokens : Tokens) :
    skipSpacing (token :: tokens) = token :: tokens :=
  List.dropWhile_cons_of_neg (by simp [solid])

@[simp] theorem skipTrivia_skipTrivia (tokens : Tokens) :
    tokens.skipTrivia.skipTrivia = tokens.skipTrivia :=
  List.dropWhile_idempotent _ tokens

@[simp] theorem skipSpacing_skipSpacing (tokens : Tokens) :
    tokens.skipSpacing.skipSpacing = tokens.skipSpacing :=
  List.dropWhile_idempotent _ tokens

theorem dropOne_of_ne (other : tokens.peek? ≠ some kind) : dropOne kind tokens = tokens := by
  cases tokens with
  | nil => rfl
  | cons token rest => exact if_neg fun same => other (congrArg some same)

theorem trailingComment_skipSpacing (tokens : Tokens) :
    tokens.skipSpacing.trailingComment = tokens.trailingComment := by
  rw [trailingComment, skipSpacing_skipSpacing, trailingComment]

/-- A kind that does not come after the comment on a line does not come before it. -/
theorem peek?_skipSpacing_ne (noComment : kind.isComment = false)
    (other : tokens.trailingComment.2.peek? ≠ some kind) :
    tokens.skipSpacing.peek? ≠ some kind := by
  unfold trailingComment at other
  split at other
  · rename_i nothing
    rw [nothing]
    intro same
    cases same
  · rename_i token rest found
    rw [found]
    by_cases isComment : token.kind.isComment = true
    · intro same
      rw [Option.some.inj same, noComment] at isComment
      cases isComment
    · rw [if_neg isComment] at other
      exact other

theorem identifier?_append (trivial : ∀ token ∈ space, token.kind.isTrivia = true)
    (tokens : Tokens) : identifier? (space ++ tokens) = identifier? tokens := by
  rw [identifier?, skipTrivia_append trivial, identifier?]

theorem identifier?_cons (name : token.kind = .identifier) (rest : Tokens) :
    identifier? (token :: rest) = some (token, rest) := by
  rw [identifier?, skipTrivia_of_kind name rfl]
  exact if_pos name

theorem eatWord_append (trivial : ∀ token ∈ space, token.kind.isTrivia = true) (word : Text)
    (tokens : Tokens) : eatWord word (space ++ tokens) = eatWord word tokens := by
  rw [eatWord, skipTrivia_append trivial, eatWord]

theorem eatWord_cons (name : token.kind = .identifier) (word : Text) (rest : Tokens) :
    eatWord word (token :: rest) =
      if token.text = word then (true, rest) else (false, token :: rest) := by
  rw [eatWord, skipTrivia_of_kind name rfl]
  simp only [Token.isWord, name, BEq.rfl, Bool.true_and, beq_iff_eq]

theorem skipPast_append (others : ∀ token ∈ line, token.kind ≠ kind) (last : stop.kind = kind)
    (rest : Tokens) : skipPast kind (line ++ stop :: rest) = rest := by
  rw [skipPast, List.dropWhile_append_of_pos (by simpa using others),
    List.dropWhile_cons_of_neg (by simp [last]), List.drop_one, List.tail_cons]

theorem skipPast_eq_nil (others : ∀ token ∈ line, token.kind ≠ kind) : skipPast kind line = [] := by
  rw [skipPast, List.dropWhile_eq_nil_iff.mpr (by simpa using others), List.drop_nil]

theorem leadingComments_of_trivia (trivial : token.kind.isTrivia = true) (tokens : Tokens) :
    leadingComments (token :: tokens) =
      (if token.kind.isComment then [comment token] else []) ++ tokens.leadingComments := by
  simp only [leadingComments, List.takeWhile_cons, trivial, if_true, List.filter_cons]
  split <;> rfl

theorem leadingComments_of_not_trivia (significant : token.kind.isTrivia = false)
    (tokens : Tokens) : leadingComments (token :: tokens) = [] := by
  rw [leadingComments, List.takeWhile_cons_of_neg (by simp [significant]), List.filter_nil,
    List.map_nil]

end Tokens

namespace Outline

open Tokens

variable {sourceEnd : Nat} {token stop : Token} {tokens rest : Tokens}

/-! ### Names of namespaces -/

/-- Reading names, by the next token that is no trivia. -/
theorem namespaceNames_eq (tokens : Tokens) : namespaceNames tokens =
    match tokens.skipTrivia with
    | [] => ([], [])
    | token :: rest =>
      if token.kind ≠ .identifier then ([], token :: rest)
      else if token.text = "inline".toList then namespaceNames rest
      else if (Tokens.eat .doubleColon rest).1 then
        (token.text :: (namespaceNames (Tokens.eat .doubleColon rest).2).1,
          (namespaceNames (Tokens.eat .doubleColon rest).2).2)
      else ([token.text], (Tokens.eat .doubleColon rest).2) := by
  rw [namespaceNames]
  split <;> rename_i found <;> simp only [found]
  split
  · rfl
  · split
    · rfl
    · split <;> rename_i next <;> rw [next] <;> rfl

theorem namespaceNames_of_path {names : List Text} (path : Layout.Path names tokens (stop :: rest))
    (significant : stop.kind.isTrivia = false) (noName : stop.kind ≠ .identifier)
    (noColons : stop.kind ≠ .doubleColon) :
    namespaceNames tokens = (names, stop :: rest) := by
  generalize same : stop :: rest = after at path
  induction path with
  | nil after =>
    rw [namespaceNames_eq, ← same, skipTrivia_of_not_trivia significant]
    exact if_pos noName
  | @skip names token tokens after passed path ih =>
    rw [← ih same]
    rcases passed with trivial | word
    · rw [namespaceNames_eq, skipTrivia_of_trivia trivial, ← namespaceNames_eq]
    · obtain ⟨kind, text⟩ := Token.isWord_iff.mp word
      rw [namespaceNames_eq, skipTrivia_of_kind kind rfl]
      simp only [kind, text, ne_eq, not_true_eq_false, if_false, if_true]
  | @last name space after kind text trivial =>
    have eaten : Tokens.eat .doubleColon (space ++ after) = (false, after) := by
      rw [eat, skipTrivia_append trivial, ← same, skipTrivia_of_not_trivia significant]
      exact if_neg noColons
    rw [namespaceNames_eq, skipTrivia_of_kind kind rfl]
    simp only [kind, text, eaten, ne_eq, not_true_eq_false, if_false, Bool.false_eq_true]
  | @more names name colons space tokens after kind text trivial double path ih =>
    have eaten : Tokens.eat .doubleColon (space ++ colons :: tokens) = (true, tokens) := by
      rw [eat, skipTrivia_append trivial, skipTrivia_of_kind double rfl]
      exact if_pos double
    rw [namespaceNames_eq, skipTrivia_of_kind kind rfl]
    simp only [kind, text, eaten, ne_eq, not_true_eq_false, if_false, if_true, ih same]

variable (sourceEnd) in
/-- **The head of a namespace** is its names and what its body starts with. -/
theorem namespaceHead_of_path {names : List Text} {shape : NamespaceBody}
    (path : Layout.Path names tokens (stop :: rest))
    (starts : stop.kind = .openBrace ∧ shape = .braces ∨
      stop.kind = .semicolon ∧ shape = .wholeFile ∨ stop.kind = .equals ∧ shape = .alias) :
    namespaceHead sourceEnd tokens = .ok (names, shape, rest) := by
  rcases starts with ⟨kind, rfl⟩ | ⟨kind, rfl⟩ | ⟨kind, rfl⟩
  all_goals
    have significant : stop.kind.isTrivia = false := by rw [kind]; rfl
    have named := namespaceNames_of_path path significant (by simp [kind]) (by simp [kind])
    rw [namespaceHead, named]
    simp only [skipTrivia_of_not_trivia significant, kind]

/-! ### Enums before their bodies -/

/-- **The name of an enum** is found after its keyword. -/
theorem identifier?_of_enumName {name : Text} (written : Layout.EnumName name tokens rest) :
    ∃ token, token.text = name ∧ (skipEnumKind tokens).identifier? = some (token, rest) := by
  cases written with
  | @bare space token rest trivial kind noClass noStruct =>
    have kept : skipEnumKind (space ++ token :: rest) = token :: rest := by
      rw [skipEnumKind, eatWord_append trivial, eatWord_cons kind, if_neg noClass]
      dsimp only
      rw [eatWord_cons kind, if_neg noStruct]
      rfl
    rw [kept]
    exact ⟨token, rfl, identifier?_cons kind rest⟩
  | @kinded space between word token rest trivial kinds gap kind =>
    rw [Token.isWord_iff, Token.isWord_iff, ← and_or_left] at kinds
    obtain ⟨identifier, isKind⟩ := kinds
    have skipped : skipEnumKind (space ++ word :: (between ++ token :: rest)) =
        between ++ token :: rest := by
      rw [skipEnumKind, eatWord_append trivial, eatWord_cons identifier]
      by_cases isClass : word.text = "class".toList
      · rw [if_pos isClass]
        rfl
      · rw [if_neg isClass]
        dsimp only
        rw [eatWord_cons identifier, if_pos (isKind.resolve_left isClass)]
        rfl
    rw [skipped, identifier?_append gap]
    exact ⟨token, rfl, identifier?_cons kind rest⟩

/-- The head of an enum with more comments in front. -/
def addComments (own : List Excerpt) (head : Option (List Excerpt) × Tokens) :
    Option (List Excerpt) × Tokens :=
  (head.1.map (own ++ ·), head.2)

theorem addComments_nil : addComments [] = id := by
  funext ⟨comments, after⟩
  cases comments <;> rfl

theorem map_addComments_append (own leading : List Excerpt)
    (head : Except Defect (Option (List Excerpt) × Tokens)) :
    head.map (addComments (own ++ leading)) =
      (head.map (addComments leading)).map (addComments own) := by
  rcases head with defect | ⟨_ | comments, after⟩
  · rfl
  · rfl
  · simp only [Except.map, addComments, Option.map_some, List.append_assoc]

/-- Reading up to a body, by the next token that is no trivia. -/
theorem declarationHead_eq (name : Text) (tokens : Tokens) :
    declarationHead sourceEnd name tokens =
      match tokens.skipTrivia with
      | [] => .error (.malformed (.missingBody name) sourceEnd)
      | token :: rest =>
        match token.kind with
        | .openBrace => .ok (some tokens.leadingComments, rest)
        | .semicolon => .ok (none, rest)
        | .colon | .doubleColon | .identifier =>
          (declarationHead sourceEnd name rest).map (addComments tokens.leadingComments)
        | _ => .error (.malformed (.missingBody name) token.offset) := by
  rw [declarationHead]
  split
  · rename_i found
    simp only [found]
  · rename_i token rest found
    simp only [found]
    cases token.kind <;> rfl

/-- A comment is kept, other trivia are skipped. -/
theorem declarationHead_of_trivia (trivial : token.kind.isTrivia = true) (name : Text)
    (tokens : Tokens) :
    declarationHead sourceEnd name (token :: tokens) =
      (declarationHead sourceEnd name tokens).map
        (addComments (if token.kind.isComment then [comment token] else [])) := by
  rw [declarationHead_eq, declarationHead_eq name tokens, skipTrivia_of_trivia trivial,
    leadingComments_of_trivia trivial]
  cases tokens.skipTrivia with
  | nil => rfl
  | cons next rest =>
    dsimp only
    split <;> first | rfl | exact map_addComments_append _ _ _

theorem declarationHead_of_type (type : token.kind = .colon ∨ token.kind = .doubleColon ∨
    token.kind = .identifier) (name : Text) (tokens : Tokens) :
    declarationHead sourceEnd name (token :: tokens) = declarationHead sourceEnd name tokens := by
  have significant : token.kind.isTrivia = false := by
    rcases type with kind | kind | kind <;> rw [kind] <;> rfl
  rw [declarationHead_eq, skipTrivia_of_not_trivia significant,
    leadingComments_of_not_trivia significant, addComments_nil]
  rcases type with kind | kind | kind <;> simp only [kind] <;>
    cases declarationHead sourceEnd name tokens <;> rfl

variable (sourceEnd) in
/-- **The head of an enum** has its comments, if a body follows. -/
theorem declarationHead_of_head {comments : List Excerpt} {found : Option (List Excerpt)}
    (name : Text) (written : Layout.Head comments tokens (stop :: rest))
    (starts : stop.kind = .openBrace ∧ found = some comments ∨
      stop.kind = .semicolon ∧ found = none) :
    declarationHead sourceEnd name tokens = .ok (found, rest) := by
  generalize same : stop :: rest = after at written
  induction written generalizing found with
  | nil after =>
    rcases starts with ⟨kind, rfl⟩ | ⟨kind, rfl⟩
    all_goals
      have significant : stop.kind.isTrivia = false := by rw [kind]; rfl
      rw [← same, declarationHead_eq, skipTrivia_of_not_trivia significant]
      simp only [kind, leadingComments_of_not_trivia significant]
  | @comment comments token tokens after isComment written ih =>
    rw [declarationHead_of_trivia (TokenKind.isTrivia_of_isComment isComment), if_pos isComment]
    rcases starts with ⟨kind, rfl⟩ | ⟨kind, rfl⟩
    · rw [ih (Or.inl ⟨kind, rfl⟩) same]
      rfl
    · rw [ih (Or.inr ⟨kind, rfl⟩) same]
      rfl
  | @blank comments token tokens after blank written ih =>
    have trivial : token.kind.isTrivia = true := by
      rcases blank with kind | kind <;> rw [kind] <;> rfl
    have silent : ¬ token.kind.isComment = true := by
      rcases blank with kind | kind <;> rw [kind] <;> decide
    rw [declarationHead_of_trivia trivial, if_neg silent, addComments_nil, ih starts same]
    rfl
  | type type written ih => rw [declarationHead_of_type type, ih starts same]

/-- What stands before the body of an enum, after the keyword: its name, and its comments if a body
follows them. -/
def enumHead (sourceEnd : Nat) (tokens : Tokens) :
    Except Defect (Text × Option (List Excerpt) × Tokens) :=
  match (skipEnumKind tokens).identifier? with
  | none =>
    .error (.malformed (.missingIdentifier "declaration name".toList)
      ((skipEnumKind tokens).skipTrivia.offset sourceEnd))
  | some (name, after) => (declarationHead sourceEnd name.text after).map (Prod.mk name.text)

theorem enumHead_of_identifier? {name : Token} {after : Tokens}
    (named : (skipEnumKind tokens).identifier? = some (name, after)) :
    enumHead sourceEnd tokens =
      (declarationHead sourceEnd name.text after).map (Prod.mk name.text) := by
  rw [enumHead, named]

variable (sourceEnd) in
theorem enumHead_of_head {name : Text} {comments : List Excerpt} {found : Option (List Excerpt)}
    {head : Tokens} (named : Layout.EnumName name tokens head)
    (written : Layout.Head comments head (stop :: rest))
    (starts : stop.kind = .openBrace ∧ found = some comments ∨
      stop.kind = .semicolon ∧ found = none) :
    enumHead sourceEnd tokens = .ok (name, found, rest) := by
  obtain ⟨token, rfl, identified⟩ := identifier?_of_enumName named
  rw [enumHead_of_identifier? identified,
    declarationHead_of_head sourceEnd token.text written starts]
  rfl

/-! ### Bodies -/

/-- Reading members, by the next token that is no trivia. -/
theorem body_eq (declaration : Text) (seen : List Text) (ordinal : Int) (tokens : Tokens) :
    body sourceEnd declaration seen ordinal tokens =
      match tokens.skipTrivia with
      | [] => ⟨[], .error (.malformed (.unclosedBody declaration) sourceEnd)⟩
      | token :: rest =>
        match token.kind with
        | .closeBrace => ⟨[], .ok rest⟩
        | .hash => body sourceEnd declaration seen ordinal (Tokens.skipLine rest)
        | .identifier =>
          if token.text ∈ seen then ⟨[], .error ⟨.keyRepeated token.text, token.offset⟩⟩
          else
            match memberValue sourceEnd token.text rest with
            | .error defect => ⟨[], .error defect⟩
            | .ok (value, after) =>
              let trailing := (after.skipSpacing.dropOne .comma).trailingComment
              let more := body sourceEnd declaration (token.text :: seen)
                (nextOrdinal (value.getD ordinal)) trailing.2
              ⟨⟨token.text, value.getD ordinal, trailing.1⟩ :: more.members, more.after⟩
        | _ => ⟨[], .error (.malformed (.missingMember declaration) token.offset)⟩ := by
  rw [body]
  split
  · rename_i found
    simp only [found]
  · rename_i token rest found
    simp only [found]
    cases token.kind <;> try rfl
    dsimp only
    split
    · rfl
    · split <;> rename_i valued <;> simp only [valued]

theorem body_of_trivia (trivial : token.kind.isTrivia = true) (declaration : Text)
    (seen : List Text) (ordinal : Int) (tokens : Tokens) :
    body sourceEnd declaration seen ordinal (token :: tokens) =
      body sourceEnd declaration seen ordinal tokens := by
  rw [body_eq, skipTrivia_of_trivia trivial, ← body_eq]

/-- A member without a value has the next number and the comment after its comma. -/
theorem body_of_identifier {seen : List Text} (kind : token.kind = .identifier)
    (isNew : token.text ∉ seen) (noValue : tokens.skipSpacing.peek? ≠ some .equals)
    (declaration : Text) (ordinal : Int) :
    body sourceEnd declaration seen ordinal (token :: tokens) =
      let trailing := (tokens.skipSpacing.dropOne .comma).trailingComment
      let more := body sourceEnd declaration (token.text :: seen) (nextOrdinal ordinal) trailing.2
      ⟨⟨token.text, ordinal, trailing.1⟩ :: more.members, more.after⟩ := by
  have valued : memberValue sourceEnd token.text tokens = .ok (none, tokens.skipSpacing) := by
    rw [memberValue]
    split
    · rename_i nothing
      rw [nothing]
    · rename_i next rest found
      rw [found] at noValue ⊢
      exact if_neg fun equals => noValue (congrArg some equals)
  rw [body_eq, skipTrivia_of_kind kind rfl]
  simp only [kind, isNew, if_false, valued, skipSpacing_skipSpacing, Option.getD_none]

theorem peek?_of_members {gap : TokenKind → Bool} {members : List (Text × Option Excerpt)}
    (written : Layout.Members gap members tokens rest) :
    tokens.peek? ≠ some .equals ∧ tokens.peek? ≠ some .comma := by
  cases written with
  | trivia trivial =>
    simp only [peek?, List.head?_cons, Option.map_some, ne_eq, Option.some.injEq]
    constructor <;> (intro kind; rw [kind] at trivial; cases trivial)
  | nil rest kind | line kind | separated kind | bare kind =>
    simp only [peek?, List.head?_cons, Option.map_some, kind]
    exact ⟨nofun, nofun⟩

/-- Names that are distinct and not seen yet are still not seen when the first of them is. -/
theorem not_mem_seen {name : Text} {names seen : List Text}
    (areNew : ∀ other ∈ name :: names, other ∉ seen) (distinct : (name :: names).Nodup) :
    ∀ other ∈ names, other ∉ name :: seen := by
  intro other member
  refine List.not_mem_cons_of_ne_of_not_mem ?_ (areNew other (List.mem_cons_of_mem _ member))
  rintro rfl
  exact (List.nodup_cons.mp distinct).1 member

variable (sourceEnd) in
/-- **The body of an enum** has its members, numbered from the value that is due. -/
theorem body_of_members {members : List (Text × Option Excerpt)} {seen : List Text}
    (declaration : Text) (ordinal : Int)
    (written : Layout.Members (· == .whitespace) members tokens rest)
    (areNew : ∀ name ∈ members.map Prod.fst, name ∉ seen)
    (distinct : (members.map Prod.fst).Nodup) :
    body sourceEnd declaration seen ordinal tokens =
      ⟨Member.numbered ordinal members, .ok rest⟩ := by
  induction written generalizing seen ordinal with
  | nil rest kind =>
    rw [body_eq, skipTrivia_of_kind kind rfl]
    simp only [kind, Member.numbered]
  | trivia trivial written ih => rw [body_of_trivia trivial, ih ordinal areNew distinct]
  | line hash others feed written ih =>
    rw [body_eq, skipTrivia_of_kind hash rfl]
    simp only [hash, skipLine, skipPast_append others feed, ih ordinal areNew distinct]
  | @separated members name comma space tokens rest kind gap isComma written ih =>
    have spaced : skipSpacing (space ++ comma :: tokens) = comma :: tokens := by
      rw [skipSpacing_append gap, skipSpacing_of_ne (by simp [isComma])]
    rw [body_of_identifier kind (areNew _ List.mem_cons_self) (by simp [spaced, peek?, isComma]),
      spaced, dropOne, if_pos isComma]
    dsimp only
    rw [ih _ (not_mem_seen areNew distinct) distinct.tail]
    rfl
  | @bare members name tokens rest kind written ih =>
    obtain ⟨noEquals, noComma⟩ := peek?_of_members written
    rw [body_of_identifier kind (areNew _ List.mem_cons_self)
        (peek?_skipSpacing_ne (by decide) noEquals),
      dropOne_of_ne (peek?_skipSpacing_ne (by decide) noComma), trailingComment_skipSpacing]
    dsimp only
    rw [ih _ (not_mem_seen areNew distinct) distinct.tail]
    rfl

end Outline

end Scaffold
