/-
**Reading up to a place.**

What a reader makes of the tokens before a place depends on nothing behind it, as long as a token
follows that no value, no comma and no comment of a member goes past (`IsBarrier`). So a walk that
is not stopped before the place arrives there in the same way whatever follows:

* `memberValue_barrier`, `exists_of_inside`: the members of a body, up to a place inside of it;
* `passes_of_items`: the items before an enum;
* `exists_of_inBody`: all tokens before a place inside of an enum.
-/

import Scaffold.Proofs.Extraction.Places

namespace Scaffold

/-- A token that is never part of a value or of what follows a member on its line. -/
def Layout.IsBarrier (token : Token) : Prop :=
  token.kind = .newline ∨ token.kind = .identifier ∨ token.kind = .closeBrace ∨ token.kind = .hash

/-- Members in front of a body. -/
def Outline.Body.startingWith (members : List Member) (body : Outline.Body) : Outline.Body :=
  ⟨members ++ body.members, body.after⟩

open Layout (IsBarrier Inside)

/-! ### Single readers -/

namespace Layout.IsBarrier

variable {token : Token}

/-- What a barrier is not. -/
theorem kind_ne {kind : TokenKind} (barrier : IsBarrier token)
    (other : kind ∉ [.newline, .identifier, .closeBrace, .hash]) : token.kind ≠ kind := by
  rintro rfl
  rcases barrier with same | same | same | same <;> simp [same] at other

theorem not_isComment (barrier : IsBarrier token) : token.kind.isComment = false := by
  rcases barrier with same | same | same | same <;> rw [same] <;> rfl

end Layout.IsBarrier

namespace Tokens

variable {stop : Token} (tokens rest : Tokens)

theorem skipSpacing_barrier (barrier : IsBarrier stop) :
    skipSpacing (tokens ++ stop :: rest) = tokens.skipSpacing ++ stop :: rest := by
  induction tokens with
  | nil => exact skipSpacing_of_ne (barrier.kind_ne (by decide)) rest
  | cons token tokens ih =>
    by_cases blank : token.kind = .whitespace
    · rw [List.cons_append, skipSpacing, List.dropWhile_cons_of_pos (by simp [blank]), skipSpacing,
        List.dropWhile_cons_of_pos (by simp [blank])]
      exact ih
    · rw [List.cons_append, skipSpacing_of_ne blank, skipSpacing_of_ne blank, List.cons_append]

theorem dropOne_barrier {kind : TokenKind} (other : stop.kind ≠ kind) :
    dropOne kind (tokens ++ stop :: rest) = tokens.dropOne kind ++ stop :: rest := by
  cases tokens with
  | nil => exact if_neg other
  | cons token tokens =>
    rw [List.cons_append, dropOne, dropOne]
    split <;> rfl

theorem trailingComment_barrier (barrier : IsBarrier stop) :
    trailingComment (tokens ++ stop :: rest) =
      (tokens.trailingComment.1, tokens.trailingComment.2 ++ stop :: rest) := by
  unfold trailingComment
  rw [skipSpacing_barrier tokens rest barrier]
  cases tokens.skipSpacing with
  | nil =>
    dsimp only [List.nil_append]
    rw [if_neg (by simp [barrier.not_isComment])]
  | cons token tokens =>
    dsimp only [List.cons_append]
    split <;> rfl

end Tokens

namespace Outline

open Tokens

variable {sourceEnd : Nat} {stop : Token}

theorem afterMember_barrier (barrier : IsBarrier stop) (tokens rest : Tokens) :
    afterMember (tokens ++ stop :: rest) = afterMember tokens ++ stop :: rest := by
  unfold afterMember
  rw [skipSpacing_barrier tokens rest barrier, dropOne_barrier _ rest (barrier.kind_ne (by decide)),
    trailingComment_barrier _ rest barrier]

theorem peek?_barrier {kind : TokenKind} (other : stop.kind ≠ kind) (tokens rest : Tokens) :
    (peek? (tokens ++ stop :: rest) == some kind) = (tokens.peek? == some kind) := by
  cases tokens with
  | nil => exact beq_eq_false_iff_ne.mpr fun same => other (Option.some.inj same)
  | cons token tokens => rfl

theorem unsigned_barrier (barrier : IsBarrier stop) (tokens rest : Tokens) :
    unsigned (tokens ++ stop :: rest) = unsigned tokens ++ stop :: rest := by
  have noMinus : stop.kind ≠ .minus := barrier.kind_ne (by decide)
  unfold unsigned
  rw [skipSpacing_barrier tokens rest barrier, peek?_barrier noMinus,
    dropOne_barrier _ rest noMinus, skipSpacing_barrier _ rest barrier]
  split <;> rfl

/-- A value that is missing before a barrier is missing as at the end of the source. -/
theorem signedValue_barrier (barrier : IsBarrier stop) (member : Text) (tokens rest : Tokens) :
    signedValue sourceEnd member (tokens ++ stop :: rest) =
      (signedValue stop.offset member tokens).map fun value =>
        (value.1, value.2 ++ stop :: rest) := by
  rw [signedValue_eq, signedValue_eq, unsigned_barrier barrier,
    skipSpacing_barrier tokens rest barrier, peek?_barrier (barrier.kind_ne (by decide))]
  cases unsigned tokens with
  | nil =>
    dsimp only [List.nil_append]
    rw [if_neg (barrier.kind_ne (by decide))]
    rfl
  | cons token tokens =>
    dsimp only [List.cons_append]
    split <;> rfl

theorem memberValue_barrier (barrier : IsBarrier stop) (member : Text) (tokens rest : Tokens) :
    memberValue sourceEnd member (tokens ++ stop :: rest) =
      (memberValue stop.offset member tokens).map fun value =>
        (value.1, value.2 ++ stop :: rest) := by
  unfold memberValue
  rw [skipSpacing_barrier tokens rest barrier]
  cases tokens.skipSpacing with
  | nil =>
    dsimp only [List.nil_append]
    rw [if_neg (barrier.kind_ne (by decide))]
    rfl
  | cons token tokens =>
    dsimp only [List.cons_append]
    split
    · rw [signedValue_barrier barrier]
      cases signedValue stop.offset member tokens <;> rfl
    · rfl

/-! ### Bodies -/

/-- What follows a value is inside of the body that the value is in. -/
theorem inside_of_memberValue {member : Text} {tokens after : Tokens} {value : Option Int}
    (inside : Inside tokens) (read : memberValue sourceEnd member tokens = .ok (value, after)) :
    Inside after := by
  have signed : ∀ {tokens after : Tokens} {value : Int}, Inside tokens →
      signedValue sourceEnd member tokens = .ok (value, after) → Inside after := by
    intro tokens after value inside read
    have digits : Inside (unsigned tokens) := by
      unfold unsigned
      split
      · exact (inside.skipSpacing.dropOne (by decide)).skipSpacing
      · exact inside.skipSpacing
    rw [signedValue_eq] at read
    split at read
    · cases read
    · rename_i token rest found
      rw [found] at digits
      split at read
      · rename_i number
        cases read
        refine digits.tail fun hash => ?_
        rw [if_neg (by simp [hash])] at number
        cases number
      · cases read
  have spaced := inside.skipSpacing
  unfold memberValue at read
  split at read
  · cases read
    exact .nil
  · rename_i token rest found
    rw [found] at spaced
    split at read
    · rename_i equals
      obtain ⟨value, done, same⟩ := map_eq_ok_iff.mp read
      cases same
      exact signed (spaced.tail (by simp [equals])) done
    · cases read
      exact spaced

theorem body_of_space {space : Tokens} (trivial : ∀ token ∈ space, token.kind.isTrivia = true)
    (declaration : Text) (seen : List Text) (ordinal : Int) (tokens : Tokens) :
    body sourceEnd declaration seen ordinal (space ++ tokens) =
      body sourceEnd declaration seen ordinal tokens := by
  rw [body_eq, skipTrivia_append trivial, ← body_eq]

/-- A member that is read, and the members after it. -/
theorem body_of_member {name : Token} {seen : List Text} {tokens after : Tokens}
    {value : Option Int} (kind : name.kind = .identifier) (isNew : name.text ∉ seen)
    (valued : memberValue sourceEnd name.text tokens = .ok (value, after)) (declaration : Text)
    (ordinal : Int) :
    body sourceEnd declaration seen ordinal (name :: tokens) =
      (body sourceEnd declaration (name.text :: seen) (nextOrdinal (value.getD ordinal))
        (afterMember after)).startingWith
        [⟨name.text, value.getD ordinal,
          (after.skipSpacing.dropOne .comma).trailingComment.1⟩] := by
  rw [body_eq, skipTrivia_of_kind kind rfl]
  simp only [kind, isNew, if_false, valued]
  rfl

/-- A member before a barrier is read in the same way whatever follows the barrier. -/
theorem body_of_member_barrier (barrier : IsBarrier stop) {name : Token} {seen : List Text}
    {tokens after : Tokens} {value : Option Int} (kind : name.kind = .identifier)
    (isNew : name.text ∉ seen)
    (valued : memberValue stop.offset name.text tokens = .ok (value, after)) (declaration : Text)
    (ordinal : Int) (rest : Tokens) :
    body sourceEnd declaration seen ordinal (name :: (tokens ++ stop :: rest)) =
      (body sourceEnd declaration (name.text :: seen) (nextOrdinal (value.getD ordinal))
        (afterMember after ++ stop :: rest)).startingWith
        [⟨name.text, value.getD ordinal,
          (after.skipSpacing.dropOne .comma).trailingComment.1⟩] := by
  have read : memberValue sourceEnd name.text (tokens ++ stop :: rest) =
      .ok (value, after ++ stop :: rest) := by
    rw [memberValue_barrier barrier, valued]
    rfl
  rw [body_of_member kind isNew read, afterMember_barrier barrier,
    skipSpacing_barrier after rest barrier, dropOne_barrier _ rest (barrier.kind_ne (by decide)),
    trailingComment_barrier _ rest barrier]

theorem body_of_line {hash feed : Token} {line : Tokens} (isHash : hash.kind = .hash)
    (others : ∀ token ∈ line, token.kind ≠ .newline) (isFeed : feed.kind = .newline)
    (declaration : Text) (seen : List Text) (ordinal : Int) (tokens : Tokens) :
    body sourceEnd declaration seen ordinal (hash :: (line ++ feed :: tokens)) =
      body sourceEnd declaration seen ordinal tokens := by
  rw [body_eq, skipTrivia_of_kind isHash rfl]
  simp only [isHash]
  rw [skipLine, skipPast_append others isFeed]

/-- A body that is read to its end has a member at each name in it, and that member has a value. -/
theorem exists_of_name {name : Token} {declaration : Text} {seen : List Text} {ordinal : Int}
    {tokens last : Tokens} (kind : name.kind = .identifier)
    (read : (body sourceEnd declaration seen ordinal (name :: tokens)).after = .ok last) :
    name.text ∉ seen ∧ ∃ value after,
      memberValue sourceEnd name.text tokens = .ok (value, after) := by
  rw [body_eq, skipTrivia_of_kind kind rfl] at read
  simp only [kind] at read
  split at read
  · cases read
  · rename_i isNew
    cases valued : memberValue sourceEnd name.text tokens with
    | error defect =>
      rw [valued] at read
      cases read
    | ok found => exact ⟨isNew, found.1, found.2, rfl⟩

/-- Only a name, a preprocessor line or the brace at its end comes next in a body that is read to
its end. -/
theorem kind_of_body {token : Token} {declaration : Text} {seen : List Text} {ordinal : Int}
    {tokens last : Tokens} (significant : token.kind.isTrivia = false)
    (read : (body sourceEnd declaration seen ordinal (token :: tokens)).after = .ok last) :
    token.kind = .identifier ∨ token.kind = .hash ∨ token.kind = .closeBrace := by
  rw [body_eq, skipTrivia_of_not_trivia significant] at read
  cases kind : token.kind <;> simp [kind] at read ⊢

/-- **Members up to a place** are read in the same way whatever follows the place. -/
theorem exists_of_inside {declaration : Text} {seen : List Text} {ordinal : Int}
    {tokens rest last : Tokens} (barrier : IsBarrier stop) (inside : Inside tokens)
    (read : (body sourceEnd declaration seen ordinal (tokens ++ stop :: rest)).after = .ok last) :
    ∃ members passed due, ∀ sourceEnd rest,
      body sourceEnd declaration seen ordinal (tokens ++ stop :: rest) =
        (body sourceEnd declaration passed due (stop :: rest)).startingWith members := by
  -- a member takes several tokens with it, so the induction is on how many there are
  induction size : tokens.length using Nat.strong_induction_on generalizing tokens seen ordinal with
  | _ bound ih =>
  cases next : tokens.skipTrivia with
  | nil =>
    obtain ⟨space, trivial, rfl⟩ := exists_trivia next
    rw [List.append_nil]
    exact ⟨[], seen, ordinal, fun _ _ => body_of_space trivial declaration seen ordinal _⟩
  | cons token later =>
    have significant := not_isTrivia_of_skipTrivia next
    have insideNext : Inside (token :: later) := next ▸ inside.skipTrivia
    obtain ⟨space, trivial, rfl⟩ := exists_trivia next
    rw [List.length_append, List.length_cons] at size
    simp only [List.append_assoc, List.cons_append, body_of_space trivial] at read ⊢
    cases insideNext with
    | @line _ feed line following isHash others isFeed insideLater =>
      simp only [List.append_assoc, List.cons_append,
        body_of_line isHash others isFeed] at read ⊢
      refine ih following.length ?_ insideLater read rfl
      rw [List.length_append, List.length_cons] at size
      omega
    | token isInner insideLater =>
      obtain kind : token.kind = .identifier :=
        (kind_of_body significant read).resolve_right fun other =>
          other.elim isInner.2 isInner.1
      obtain ⟨isNew, value, _, valued⟩ := exists_of_name kind read
      rw [memberValue_barrier barrier] at valued
      obtain ⟨⟨value', after⟩, done, same⟩ := map_eq_ok_iff.mp valued
      cases same
      simp only [body_of_member_barrier barrier kind isNew done] at read ⊢
      have insideAfter := (inside_of_memberValue insideLater done).skipSpacing
      have bounded := (memberValue_suffix done).length_le
      have shorter := (afterMember_suffix after).length_le
      obtain ⟨members, passed, due, continues⟩ := ih (afterMember after).length (by omega)
        (insideAfter.dropOne (by decide)).trailingComment read rfl
      exact ⟨⟨token.text, value'.getD ordinal,
        (after.skipSpacing.dropOne .comma).trailingComment.1⟩ :: members, passed, due,
        fun sourceEnd rest => congrArg (Body.startingWith [_]) (continues sourceEnd rest)⟩

theorem body_of_closing {brace : Token} (closes : brace.kind = .closeBrace) (declaration : Text)
    (seen : List Text) (ordinal : Int) (rest : Tokens) :
    body sourceEnd declaration seen ordinal (brace :: rest) = ⟨[], .ok rest⟩ := by
  rw [body_eq, skipTrivia_of_kind closes rfl]
  simp only [closes]

/-! ### Walks -/

/-- Where a walk stands inside of the body of an enum. -/
structure Entered where
  scopes : List Scope
  depth : Nat
  name : Text
  /-- The comments before the first member. -/
  comments : List Excerpt
  /-- The members so far. -/
  members : List Member
  /-- The names that are taken. -/
  seen : List Text
  /-- The value of a next member without one of its own. -/
  due : Int

namespace Entered

/-- The enum, with the members of the rest of its body. -/
def declaration (entered : Entered) (content : Body) : Declaration :=
  ⟨scopePath entered.scopes, entered.name, entered.comments, entered.members ++ content.members⟩

/-- The outline from the place on. -/
def outline (entered : Entered) (sourceEnd : Nat) (tokens : Tokens) : Outline :=
  let content := body sourceEnd entered.name entered.seen entered.due tokens
  match content.after with
  | .error defect => ⟨[.unfinished (entered.declaration content)], some defect⟩
  | .ok last =>
    (ofTokens sourceEnd entered.scopes entered.depth last).startingWith
      (.declaration (entered.declaration content))

theorem exists_of_complete {entered : Entered} {tokens : Tokens}
    (complete : (entered.outline sourceEnd tokens).defect = none) :
    ∃ last, (body sourceEnd entered.name entered.seen entered.due tokens).after = .ok last := by
  unfold outline at complete
  dsimp only at complete
  split at complete
  · cases complete
  · exact ⟨_, ‹_›⟩

/-- The rest of a body that is read to its end, and what follows it. -/
theorem outline_of_after {entered : Entered} {tokens last : Tokens}
    (read : (body sourceEnd entered.name entered.seen entered.due tokens).after = .ok last) :
    entered.outline sourceEnd tokens =
      (ofTokens sourceEnd entered.scopes entered.depth last).startingWith (.declaration
        (entered.declaration (body sourceEnd entered.name entered.seen entered.due tokens))) := by
  rw [outline, read]

theorem outline_of_closing {entered : Entered} {brace : Token} (closes : brace.kind = .closeBrace)
    (rest : Tokens) :
    entered.outline sourceEnd (brace :: rest) =
      (ofTokens sourceEnd entered.scopes entered.depth rest).startingWith
        (.declaration (entered.declaration ⟨[], .ok rest⟩)) := by
  rw [outline, body_of_closing closes]

/-- **A walk up to a place in a body** comes there in the same way whatever follows. -/
theorem exists_of_inside {entered : Entered} {tokens rest : Tokens} (barrier : IsBarrier stop)
    (inside : Inside tokens)
    (complete : (entered.outline sourceEnd (tokens ++ stop :: rest)).defect = none) :
    ∃ later : Entered, ∀ sourceEnd rest,
      entered.outline sourceEnd (tokens ++ stop :: rest) =
        later.outline sourceEnd (stop :: rest) := by
  obtain ⟨last, read⟩ := exists_of_complete complete
  obtain ⟨members, passed, due, continues⟩ := Outline.exists_of_inside barrier inside read
  refine ⟨⟨entered.scopes, entered.depth, entered.name, entered.comments,
    entered.members ++ members, passed, due⟩, fun sourceEnd rest => ?_⟩
  unfold outline declaration
  rw [continues]
  simp only [Body.startingWith, List.append_assoc]

end Entered

variable {scopes : List Scope} {depth : Nat}

/-- A namespace alias is skipped. -/
theorem ofTokens_of_abbreviation {names : List Text} {word equals stop : Token}
    {head statement tokens : Tokens} (isWord : word.isWord "namespace".toList = true)
    (path : Layout.Path names head (equals :: (statement ++ stop :: tokens)))
    (isEquals : equals.kind = .equals) (others : ∀ token ∈ statement, token.kind ≠ .semicolon)
    (ends : stop.kind = .semicolon) :
    ofTokens sourceEnd scopes depth (word :: head) = ofTokens sourceEnd scopes depth tokens := by
  rw [ofTokens_of_namespace isWord
    (namespaceHead_of_path sourceEnd path (Or.inr (Or.inr ⟨isEquals, rfl⟩)))]
  dsimp only
  rw [skipStatement, skipPast_append others ends]

/-- An enum with a body, by what follows the opening brace. -/
theorem ofTokens_of_opening {name : Text} {comments : List Excerpt} {word opening : Token}
    {named head content : Tokens} (isEnum : word.isWord "enum".toList = true)
    (isName : Layout.EnumName name named head)
    (headed : Layout.Head comments head (opening :: content)) (opens : opening.kind = .openBrace) :
    ofTokens sourceEnd scopes depth (word :: named) =
      Entered.outline ⟨scopes, depth, name, comments ++ content.trailingComment.1.toList, [], [], 0⟩
        sourceEnd content.trailingComment.2 := by
  rw [ofTokens_of_enum isEnum, enumHead_of_head sourceEnd isName headed (Or.inl ⟨opens, rfl⟩)]
  cases ended : (body sourceEnd name [] 0 content.trailingComment.2).after with
  | error defect => simp only [Entered.outline, Entered.declaration, List.nil_append, ended]
  | ok last =>
    simp only [Entered.outline, Entered.declaration, List.nil_append, ended, ofTokens_of_semicolon]

/-- **A walk into a body**, up to a place inside of it, is the same whatever follows the place. -/
theorem exists_of_opening {name : Text} {comments : List Excerpt} {word opening : Token}
    {inner more : Tokens} {named head following : Tokens → Tokens}
    (isEnum : word.isWord "enum".toList = true)
    (isName : ∀ rest, Layout.EnumName name (named rest) (head rest))
    (headed : ∀ rest,
      Layout.Head comments (head rest) (opening :: (inner ++ stop :: following rest)))
    (opens : opening.kind = .openBrace) (inside : Inside inner) (barrier : IsBarrier stop)
    (complete : (ofTokens sourceEnd scopes depth (word :: named more)).defect = none) :
    ∃ entered : Entered, ∀ sourceEnd rest, ofTokens sourceEnd scopes depth (word :: named rest) =
      entered.outline sourceEnd (stop :: following rest) := by
  have opened : ∀ sourceEnd rest, ofTokens sourceEnd scopes depth (word :: named rest) =
      Entered.outline ⟨scopes, depth, name, comments ++ inner.trailingComment.1.toList, [], [], 0⟩
        sourceEnd (inner.trailingComment.2 ++ stop :: following rest) := by
    intro sourceEnd rest
    rw [ofTokens_of_opening isEnum (isName rest) (headed rest) opens,
      trailingComment_barrier inner _ barrier]
  rw [opened] at complete
  obtain ⟨entered, arrives⟩ := Entered.exists_of_inside barrier inside.trailingComment complete
  exact ⟨entered, fun sourceEnd rest => (opened sourceEnd rest).trans (arrives sourceEnd _)⟩

/-- The tokens are walked in the same way whatever follows them, and so many enums with a body are
listed on the way. -/
def Passes (count : Nat) (scopes : List Scope) (depth : Nat) (tokens : Tokens) : Prop :=
  ∃ front scopes' depth', (front.filterMap OutlineItem.declaration?).length = count ∧
    ∀ sourceEnd rest, ofTokens sourceEnd scopes depth (tokens ++ rest) =
      continuing front (ofTokens sourceEnd scopes' depth' rest)

/-- An entry that is no enum with a body comes first. -/
theorem Passes.startingWith {count inner : Nat} {open' : List Scope} {item : OutlineItem}
    {tokens later : Tokens} (noDeclaration : item.declaration? = none)
    (passes : Passes count open' inner later)
    (walked : ∀ sourceEnd rest, ofTokens sourceEnd scopes depth (tokens ++ rest) =
      (ofTokens sourceEnd open' inner (later ++ rest)).startingWith item) :
    Passes count scopes depth tokens := by
  obtain ⟨front, scopes', depth', counted, passed⟩ := passes
  refine ⟨item :: front, scopes', depth', ?_, fun sourceEnd rest => ?_⟩
  · rw [List.filterMap_cons_none noDeclaration, counted]
  · rw [walked, passed, startingWith_continuing]

/-- **Items outside of enums** are walked in the same way whatever follows, and the enums with a
body among them are listed. -/
theorem passes_of_items {count : Nat} {tokens rest : Tokens} (items : Layout.Items count tokens)
    (complete : (ofTokens sourceEnd scopes depth (tokens ++ rest)).defect = none) :
    Passes count scopes depth tokens := by
  unfold Passes
  induction items generalizing scopes depth with
  | nil => exact ⟨[], scopes, depth, rfl, fun _ _ => rfl⟩
  | filler filler items ih =>
    simp only [List.cons_append, ofTokens_of_filler filler] at complete ⊢
    exact ih complete
  | brace brace items ih =>
    rcases brace with opens | closes
    · simp only [List.cons_append, ofTokens_of_openBrace opens] at complete ⊢
      exact ih complete
    · simp only [List.cons_append, ofTokens_of_closeBrace closes] at complete ⊢
      exact ih complete
  | line isHash others isFeed items ih =>
    simp only [List.cons_append, List.append_assoc, ofTokens_of_hash isHash, skipLine,
      skipPast_append others isFeed] at complete ⊢
    exact ih complete
  | statement isWord others ends items ih =>
    simp only [List.cons_append, List.append_assoc, ofTokens_of_using isWord, skipStatement,
      skipPast_append others ends] at complete ⊢
    exact ih complete
  | @abbreviation _ _ word _ _ head _ tokens isWord path equals others ends items ih =>
    have walked : ∀ sourceEnd rest, ofTokens sourceEnd scopes depth (word :: (head ++ rest)) =
        ofTokens sourceEnd scopes depth (tokens ++ rest) := by
      intro sourceEnd rest
      have named := path.append rest
      rw [List.cons_append, List.append_assoc, List.cons_append] at named
      exact ofTokens_of_abbreviation isWord named equals others ends
    rw [List.cons_append, walked] at complete
    simp only [List.cons_append, walked]
    exact ih complete
  | @namespaced _ names word _ head tokens isWord path stops items ih =>
    rcases stops with opens | ends
    · have walked : ∀ sourceEnd rest, ofTokens sourceEnd scopes depth (word :: (head ++ rest)) =
          (ofTokens sourceEnd (⟨names, some (depth + 1)⟩ :: scopes) (depth + 1)
            (tokens ++ rest)).startingWith (.scope names (some (depth + 1))) :=
        fun sourceEnd rest => ofTokens_of_namespace isWord
          (namespaceHead_of_path sourceEnd (path.append rest) (Or.inl ⟨opens, rfl⟩))
      rw [List.cons_append, walked] at complete
      exact Passes.startingWith rfl (ih complete) walked
    · have walked : ∀ sourceEnd rest, ofTokens sourceEnd scopes depth (word :: (head ++ rest)) =
          (ofTokens sourceEnd (⟨names, none⟩ :: scopes) depth (tokens ++ rest)).startingWith
            (.scope names none) :=
        fun sourceEnd rest => ofTokens_of_namespace isWord
          (namespaceHead_of_path sourceEnd (path.append rest) (Or.inr (Or.inl ⟨ends, rfl⟩)))
      rw [List.cons_append, walked] at complete
      exact Passes.startingWith rfl (ih complete) walked
  | @forward _ name _ word _ named _ tokens isWord isName headed ends items ih =>
    have walked : ∀ sourceEnd rest, ofTokens sourceEnd scopes depth (word :: (named ++ rest)) =
        (ofTokens sourceEnd scopes depth (tokens ++ rest)).startingWith (.forward name) :=
      fun sourceEnd rest =>
        ofTokens_of_forward isWord (isName.append rest) (headed.append rest) ends
    rw [List.cons_append, walked] at complete
    exact Passes.startingWith rfl (ih complete) walked
  | @enumeration _ _ comments _ opening closing _ head inner tokens isWord isName headed opens
      inside closes items ih =>
    have content : ∀ rest, Layout.Head comments (head ++ rest)
        (opening :: (inner ++ closing :: (tokens ++ rest))) := by
      intro rest
      have appended := headed.append rest
      rwa [List.cons_append, List.append_assoc, List.cons_append] at appended
    obtain ⟨entered, arrives⟩ := exists_of_opening isWord isName.append content opens inside
      (Or.inr (Or.inr (Or.inl closes))) complete
    rw [List.cons_append, arrives, Entered.outline_of_closing closes] at complete
    obtain ⟨front, scopes', depth', counted, passed⟩ := ih complete
    refine ⟨.declaration (entered.declaration ⟨[], .ok []⟩) :: front, scopes', depth', ?_,
      fun sourceEnd rest => ?_⟩
    · rw [OutlineItem.filterMap_declaration, List.length_cons, counted]
    · rw [List.cons_append, arrives, Entered.outline_of_closing closes, passed]
      rfl

/-- **A walk to a place inside of an enum** comes there in the same way whatever follows it. -/
theorem exists_of_inBody {count : Nat} {tokens rest : Tokens} (place : Layout.InBody count tokens)
    (barrier : IsBarrier stop)
    (complete : (ofTokens sourceEnd scopes depth (tokens ++ stop :: rest)).defect = none) :
    ∃ front entered, (front.filterMap OutlineItem.declaration?).length = count ∧
      ∀ sourceEnd rest, ofTokens sourceEnd scopes depth (tokens ++ stop :: rest) =
        continuing front (Entered.outline entered sourceEnd (stop :: rest)) := by
  cases place with
  | @intro _ _ _ _ _ _ _ inner items isEnum isName headed opens inside =>
    rw [List.append_assoc] at complete
    obtain ⟨items, scopes', depth', counted, passed⟩ := passes_of_items items complete
    rw [passed, List.cons_append, List.append_assoc] at complete
    obtain ⟨entered, arrives⟩ := exists_of_opening isEnum
      (fun rest => isName.append (inner ++ stop :: rest))
      (fun rest => headed.append (inner ++ stop :: rest)) opens inside barrier complete
    refine ⟨items, entered, counted, fun sourceEnd rest => ?_⟩
    rw [List.append_assoc, passed, List.cons_append, List.append_assoc, arrives]

end Outline

end Scaffold
