/-
**Tokens by byte offsets.**

The lexer keeps the offset at which it stands. A token is a range from there on, and its text is the
slice of that range; the end of a block comment is found by a search in what follows the comment's
opening. The lexer then goes on at the end of the range. The marker of a comment is taken off by a
difference of sizes.

* `nextToken?_nil`, `nextToken?_cons`: the lexer stands between two characters, and the range of the
  next token ends between two characters again;
* `tokenize?_eq`: the tokens are those of the model;
* `Excerpt.ofComment?_eq`: so is the body of every comment.
-/

import Scaffold.Proofs.Bytes.Checked
import Scaffold.Proofs.Bytes.Slices
import Scaffold.Token.Lexer
import Scaffold.Token.Stream

namespace Scaffold

/-! ### Comments -/

/-- The body of a comment; its place is the size of the comment less that of the body. -/
def Excerpt.ofComment? (comment : Text) (offset : Nat) : Option Excerpt :=
  match comment.after? "//".toList with
  | some rest => do
    let body := rest.dropWhile (· == '/')
    let marker ← minus? comment.size (Text.size body)
    return ⟨body, offset + marker⟩
  | none =>
    match comment.after? "/*".toList with
    | some rest => some ⟨(rest.before? "*/".toList).getD rest, offset + 2⟩
    | none => some ⟨comment, offset⟩

/-- **The marker of a comment** is no longer than the comment. -/
theorem Excerpt.ofComment?_eq (comment : Text) (offset : Nat) :
    Excerpt.ofComment? comment offset = some (.ofComment comment offset) := by
  rw [ofComment?, ofComment, commentBody]
  cases line : comment.after? "//".toList with
  | some rest =>
    have split : comment = ("//".toList ++ rest.takeWhile (· == '/')) ++ rest.dropWhile (· == '/') := by
      rw [List.append_assoc, List.takeWhile_append_dropWhile]
      exact Text.after?_eq_some.mp line
    have marker := Text.minus?_append ("//".toList ++ rest.takeWhile (· == '/'))
      (rest.dropWhile (· == '/'))
    rw [← split] at marker
    have same : comment.size - Text.size (rest.dropWhile (· == '/')) =
        Text.size ("//".toList ++ rest.takeWhile (· == '/')) := by
      have := minus?_eq_some_iff.mp marker
      omega
    dsimp only
    rw [marker, same]
    rfl
  | none => cases comment.after? "/*".toList <;> rfl

namespace Token

/-! ### Single tokens -/

/-- The offset right after the block comment that starts at an offset, if it ends. -/
def commentStop? (source : Text) (position : Nat) : Option (Option Nat) := do
  let inside ← source.from? (position + 2)
  match inside.placeOf? "*/".toList with
  | some found =>
    let stop := position + 2 + (found + 2)
    let _ ← source.from? stop
    return some stop
  | none =>
    let _ ← source.slice? position (position + 2)
    return none

/-- The kind of the token at an offset and the offset right after it; nothing if the token is a
block comment without an end. What the token starts with is `first` and `rest`. -/
def tokenStop? (source : Text) (position : Nat) (first : Char) (rest : Text) :
    Option (Option (TokenKind × Nat)) :=
  if "/*".toList.isPrefixOf (first :: rest) then do
    let stop ← commentStop? source position
    return stop.map fun stop => (.blockComment, stop)
  else some ((lexeme first rest).map fun token => (token.1, position + token.2.1.size))

/-- The token at an offset; nothing at the end of the source. -/
def nextToken? (source : Text) (position : Nat) : Checked Defect (Option Token) := do
  let rest ← source.from? position
  match rest with
  | [] => return none
  | first :: more =>
    match ← tokenStop? source position first more with
    | none => throw (.malformed .unterminatedComment position)
    | some (kind, stop) =>
      let text ← source.slice? position stop
      return some ⟨kind, text, position⟩

/-- The search for the end of a block comment finds it. -/
theorem placeOf?_commentBody (text : Text) :
    (text.placeOf? "*/".toList).map (· + 2) = (commentBody text).map fun parts => parts.1.size := by
  fun_induction commentBody text with
  | case1 => rfl
  | case2 rest => rfl
  | case3 char rest other ih =>
    have apart : ¬ "*/".toList.isPrefixOf (char :: rest) = true := by
      intro leads
      obtain ⟨tail, same⟩ := List.isPrefixOf_iff_prefix.mp leads
      obtain ⟨rfl, rfl⟩ := List.cons.inj same
      exact other tail rfl rfl
    have shifted : Text.placeOf? (char :: rest) "*/".toList =
        (Text.placeOf? rest "*/".toList).map (char.utf8Size + ·) := by
      rw [Text.placeOf?, Text.placeOf?, Text.splitAtFirst, if_neg apart]
      dsimp only
      split <;> rfl
    rw [shifted, Option.map_map, Option.map_map]
    calc (Text.placeOf? rest "*/".toList).map ((· + 2) ∘ (char.utf8Size + ·))
        = ((Text.placeOf? rest "*/".toList).map (· + 2)).map (char.utf8Size + ·) := by
          rw [Option.map_map]
          exact congrArg (Option.map · _) (funext fun found => Nat.add_assoc _ found 2)
      _ = ((commentBody rest).map fun parts => parts.1.size).map (char.utf8Size + ·) := by rw [ih]
      _ = _ := by
          rw [Option.map_map]
          rfl

theorem commentStop?_eq (before inside : Text) :
    commentStop? (before ++ '/' :: '*' :: inside) before.size =
      some ((commentBody inside).map fun parts =>
        before.size + Text.size ('/' :: '*' :: parts.1)) := by
  have opening : Text.size ['/', '*'] = 2 := rfl
  have opened : (before ++ '/' :: '*' :: inside).from? (before.size + 2) = some inside := by
    rw [← opening, ← Text.size_append]
    have after := Text.from?_append (before ++ ['/', '*']) inside
    rwa [List.append_assoc] at after
  have found := placeOf?_commentBody inside
  rw [commentStop?, opened, Option.bind_eq_bind, Option.bind_some]
  cases ended : commentBody inside with
  | none =>
    rw [ended, Option.map_none, Option.map_eq_none_iff] at found
    have mark : (before ++ '/' :: '*' :: inside).slice? before.size (before.size + 2) =
        some ['/', '*'] := Text.slice?_append before ['/', '*'] inside
    rw [found, mark]
    rfl
  | some parts =>
    obtain ⟨body, after⟩ := parts
    rw [ended, Option.map_some, Option.map_eq_some_iff] at found
    obtain ⟨place, found, size⟩ := found
    have stop : before.size + 2 + (place + 2) = before.size + Text.size ('/' :: '*' :: body) := by
      rw [size, Nat.add_assoc, ← opening, ← Text.size_append]
      rfl
    have behind : (before ++ '/' :: '*' :: inside).from?
        (before.size + Text.size ('/' :: '*' :: body)) = some after := by
      have rest := Text.from?_append (before ++ '/' :: '*' :: body) after
      rw [List.append_assoc, List.cons_append, List.cons_append, commentBody_append ended,
        Text.size_append] at rest
      exact rest
    rw [found]
    dsimp only
    rw [stop, behind]
    rfl

/-- **A token stops** as far behind its start as it is long. -/
theorem tokenStop?_eq (before : Text) (first : Char) (rest : Text) :
    tokenStop? (before ++ first :: rest) before.size first rest =
      some ((lexeme first rest).map fun token => (token.1, before.size + token.2.1.size)) := by
  rw [tokenStop?]
  split
  · rename_i leads
    obtain ⟨inside, same⟩ := List.isPrefixOf_iff_prefix.mp leads
    obtain ⟨rfl, rfl⟩ : '/' = first ∧ '*' :: inside = rest := List.cons.inj same
    have comment : lexeme '/' ('*' :: inside) =
        (commentBody inside).map fun parts => (.blockComment, '/' :: '*' :: parts.1, parts.2) := rfl
    rw [comment, Option.map_map, commentStop?_eq, Option.bind_eq_bind, Option.bind_some]
    cases commentBody inside <;> rfl
  · rfl

theorem nextToken?_nil (source : Text) : nextToken? source source.size = .of (.ok none) := by
  have rest := Text.from?_append source []
  rw [List.append_nil] at rest
  rw [nextToken?, rest]
  rfl

theorem nextToken?_cons (before : Text) (first : Char) (rest : Text) :
    nextToken? (before ++ first :: rest) before.size =
      .of (match lexeme first rest with
        | none => .error (.malformed .unterminatedComment before.size)
        | some (kind, text, _) => .ok (some ⟨kind, text, before.size⟩)) := by
  rw [nextToken?, Text.from?_append, Checked.lift_some_bind]
  dsimp only
  rw [tokenStop?_eq, Checked.lift_some_bind]
  cases found : lexeme first rest with
  | none => rfl
  | some token =>
    obtain ⟨kind, text, after⟩ := token
    have piece := Text.slice?_append before text after
    rw [lexeme_append found] at piece
    dsimp only [Option.map_some]
    rw [piece]
    rfl

/-! ### All tokens -/

/-- The token at an offset, with the offset to go on at. -/
def step? (source : Text) (position : Nat) : Checked Defect (Option (Token × Nat)) :=
  (Option.map fun token => (token, token.stop)) <$> nextToken? source position

/-- The tokens from an offset on. -/
def tokensFrom? (source : Text) (position : Nat) : Checked Defect (List Token) :=
  Checked.loop (step? source) (source.size - ·) position

/-- The tokens of a source, with the body of every comment looked at. -/
def tokenize? (source : Text) : Checked Defect (List Token) := do
  let tokens ← tokensFrom? source 0
  let comments := tokens.filter fun token => token.kind.isComment
  let _ ← (comments.mapM fun token => Excerpt.ofComment? token.text token.offset : Option _)
  return tokens

theorem tokensFrom?_eq (before text : Text) :
    tokensFrom? (before ++ text) before.size = .of (tokensFrom before.size text) := by
  generalize place : before.size = offset
  fun_induction tokensFrom offset text generalizing before with
  | case1 offset =>
    subst place
    rw [List.append_nil]
    refine Checked.loop_ended ?_
    rw [step?, nextToken?_nil]
    rfl
  | case2 offset first rest failed =>
    subst place
    refine Checked.loop_failed ?_
    rw [step?, nextToken?_cons, failed]
    rfl
  | case3 offset first rest kind text after found shorter ih =>
    subst place
    have stop : (before ++ text).size = before.size + text.size := Text.size_append before text
    have later := ih (before ++ text) stop
    rw [List.append_assoc, lexeme_append found] at later
    have moved : step? (before ++ first :: rest) before.size =
        .of (.ok (some (⟨kind, text, before.size⟩, before.size + text.size))) := by
      rw [step?, nextToken?_cons, found]
      rfl
    have closer : (before ++ first :: rest).size - (before.size + text.size) <
        (before ++ first :: rest).size - before.size := by
      have filled := Text.size_pos (lexeme_filled found)
      rw [← lexeme_append found, Text.size_append, Text.size_append]
      omega
    rw [tokensFrom?, Checked.loop_moved moved closer]
    rw [tokensFrom?] at later
    rw [later, Checked.map_of]

/-- **Every token is a slice of the source**, and so is every comment without its markers. -/
theorem tokenize?_eq (source : Text) : tokenize? source = .of (tokenize source) := by
  have bodies (tokens : List Token) :
      tokens.mapM (fun token => Excerpt.ofComment? token.text token.offset) =
        some (tokens.map Tokens.comment) := by
    simp only [Excerpt.ofComment?_eq]
    exact List.mapM_pure
  have tokens := tokensFrom?_eq [] source
  rw [List.nil_append] at tokens
  rw [tokenize?, tokenize, show (0 : Nat) = Text.size [] from rfl, tokens]
  cases tokensFrom (Text.size []) source with
  | error defect => rfl
  | ok found =>
    rw [Checked.of_ok_bind]
    dsimp only
    rw [bodies]
    rfl

end Token

end Scaffold
