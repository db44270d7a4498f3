/-
**Cutting texts that go on differently.**

A token is cut off a text by what it takes and at most two characters after it (`Token.SameAhead`),
so the tokens of the first part of a text stay when the text goes on differently
(`lexeme_of_sameAhead`, `tokensFrom_append`), and the tokens of the rest are the same wherever it
starts (`exists_tokensFrom`). Blanks, comments on lines of their own and literals are cut off as a
whole:

* `exists_spacing_tokens`: blanks before anything else;
* `tokensFrom_line`: the rest of a line that is a comment;
* `tokensFrom_number`: a literal that no letter and no digit follows.
-/

import Mathlib.Data.List.Infix
import Scaffold.Proofs.Extraction.Enumerators
import Scaffold.Proofs.Tag.Grammar

namespace Scaffold

/-- The text that tokens are cut off. -/
def Tokens.text (tokens : Tokens) : Text := tokens.flatMap Token.text

theorem Tokens.text_append (tokens others : Tokens) :
    Tokens.text (tokens ++ others) = tokens.text ++ others.text := List.flatMap_append

theorem Tokens.text_cons (token : Token) (tokens : Tokens) :
    Tokens.text (token :: tokens) = token.text ++ tokens.text := List.flatMap_cons

theorem Tag.Stops.mono {more other : Char → Bool} {text : Text} (stops : Stops more text)
    (implies : ∀ char, other char = true → more char = true) : Stops other text :=
  fun char first => Bool.eq_false_iff.mpr fun holds =>
    Bool.false_ne_true ((stops char first).symm.trans (implies char holds))

open Tag (Stops stops_cons)

namespace Token

/-- A token that ends before the first text ends before the second one too: that one is empty or
starts with the same character, and with the same two, if it has them, where the first of them may
be the mark of a hexadecimal number or stand before an escaped character. -/
def SameAhead (first second : Text) : Prop :=
  second.take 1 <+: first.take 1 ∧
    (second.head? ∈ [some 'x', some 'X', some '\\'] → second.take 2 <+: first.take 2)

variable {first : Char} {rest other after : Text} {kind : TokenKind}

/-! ### Single tokens -/

theorem SameAhead.refl (text : Text) : SameAhead text text :=
  ⟨List.prefix_rfl, fun _ => List.prefix_rfl⟩

/-- A text can end anywhere. -/
theorem sameAhead_of_leads (leads : other <+: rest) : SameAhead rest other :=
  ⟨leads.take 1, fun _ => leads.take 2⟩

theorem SameAhead.append (ahead : SameAhead rest other) (taken : Text) :
    SameAhead (taken ++ rest) (taken ++ other) := by
  match taken with
  | [] => exact ahead
  | [char] => exact ⟨List.prefix_rfl, fun _ => (List.prefix_cons_inj char).mpr ahead.1⟩
  | char :: next :: taken => exact ⟨List.prefix_rfl, fun _ => List.prefix_rfl⟩

/-- If the second text has a first character, the first one starts with it too. -/
theorem SameAhead.exists_cons {char : Char} (ahead : SameAhead rest (char :: other)) :
    ∃ more, rest = char :: more := by
  cases rest with
  | nil => exact absurd (List.prefix_nil.mp ahead.1) (List.cons_ne_nil _ _)
  | cons head more =>
    obtain ⟨rfl, -⟩ := List.cons_prefix_cons.mp ahead.1
    exact ⟨more, rfl⟩

theorem SameAhead.stops {more : Char → Bool} (ahead : SameAhead rest other)
    (stops : Stops more rest) : Stops more other := by
  intro char first
  obtain ⟨tail, rfl⟩ := List.head?_eq_some_iff.mp first
  obtain ⟨behind, rfl⟩ := ahead.exists_cons
  exact stops char rfl

/-- What is taken while a condition holds ends before anything that stops it. -/
theorem span_of_stops {more : Char → Bool} (rest : Text) (stops : Stops more other) :
    (rest.takeWhile more ++ other).takeWhile more = rest.takeWhile more ∧
      (rest.takeWhile more ++ other).dropWhile more = other :=
  Tag.takeWhile_eq_and_dropWhile_eq_iff.mpr ⟨rfl, fun _ => List.mem_takeWhile_imp, stops⟩

theorem whileLexeme_of_sameAhead (start : Text) {taken : Text} {given : TokenKind}
    {more : Char → Bool}
    (found : whileLexeme given start more rest = (kind, start ++ taken, after))
    (ahead : SameAhead after other) :
    whileLexeme given start more (taken ++ other) = (kind, start ++ taken, other) := by
  obtain ⟨rfl, inner⟩ := Prod.mk.inj found
  obtain ⟨text, rfl⟩ := Prod.mk.inj inner
  obtain rfl := List.append_cancel_left text
  obtain ⟨takes, drops⟩ := span_of_stops rest (ahead.stops (Tag.stops_dropWhile more rest))
  rw [whileLexeme, takes, drops]

theorem numberLexeme_of_sameAhead (start : Text) {taken : Text} {digit : Char → Bool}
    (found : numberLexeme start digit rest = (kind, start ++ taken, after))
    (ahead : SameAhead after other) :
    numberLexeme start digit (taken ++ other) = (kind, start ++ taken, other) := by
  obtain ⟨rfl, inner⟩ := Prod.mk.inj found
  obtain ⟨text, rfl⟩ := Prod.mk.inj inner
  rw [List.append_assoc] at text
  obtain rfl := List.append_cancel_left text
  obtain ⟨takesSuffix, dropsSuffix⟩ := span_of_stops (rest.dropWhile digit)
    (ahead.stops (Tag.stops_dropWhile isNumberSuffix (rest.dropWhile digit)))
  have follows : Stops digit ((rest.dropWhile digit).takeWhile isNumberSuffix ++ other) := by
    refine (ahead.append _).stops ?_
    rw [List.takeWhile_append_dropWhile]
    exact Tag.stops_dropWhile digit rest
  obtain ⟨takes, drops⟩ := span_of_stops rest follows
  simp only [numberLexeme, List.append_assoc, takes, drops, takesSuffix, dropsSuffix]

/-- The rest of a literal, by its next character. -/
theorem literalBody_cons (quote char : Char) (rest : Text) : literalBody quote (char :: rest) =
    if char = quote then ([char], rest, true)
    else if char = '\n' then ([], char :: rest, false)
    else if char = '\\' then
      match rest with
      | [] => ([], [char], false)
      | escaped :: more =>
        if escaped = '\n' then ([], char :: escaped :: more, false)
        else
          let inner := literalBody quote more
          (char :: escaped :: inner.1, inner.2)
    else
      let inner := literalBody quote rest
      (char :: inner.1, inner.2) := by
  rw [literalBody.eq_def]
  rfl

theorem literalBody_of_sameAhead {quote : Char} {text body : Text} {closed : Bool}
    (found : literalBody quote text = (body, after, closed)) (ahead : SameAhead after other) :
    literalBody quote (body ++ other) = (body, other, closed) := by
  fun_induction literalBody quote text generalizing body closed with
  | case1 =>
    cases found
    obtain rfl : other = [] := List.take_eq_nil_iff.mp (List.prefix_nil.mp ahead.1) |>.resolve_left
      one_ne_zero
    rfl
  | case2 =>
    cases found
    rw [List.cons_append, literalBody_cons, if_pos rfl]
    rfl
  | case3 rest noQuote =>
    cases found
    cases other with
    | nil => rfl
    | cons char other =>
      obtain ⟨more, same⟩ := ahead.exists_cons
      cases same
      rw [List.nil_append, literalBody_cons, if_neg noQuote, if_pos rfl]
  | case4 noQuote noFeed =>
    cases found
    cases other with
    | nil => rfl
    | cons char other =>
      obtain ⟨more, same⟩ := ahead.exists_cons
      cases same
      have alone : '\\' :: other.take 1 <+: ['\\'] := ahead.2 (by simp)
      cases other with
      | nil => rw [List.nil_append, literalBody_cons, if_neg noQuote, if_neg noFeed, if_pos rfl]
      | cons char other => simp at alone
  | case5 more noQuote noFeed =>
    cases found
    cases other with
    | nil => rfl
    | cons char other =>
      obtain ⟨more, same⟩ := ahead.exists_cons
      cases same
      have next : '\\' :: other.take 1 <+: ['\\', '\n'] := ahead.2 (by simp)
      cases other with
      | nil => rw [List.nil_append, literalBody_cons, if_neg noQuote, if_neg noFeed, if_pos rfl]
      | cons char other =>
        obtain rfl : char = '\n' := by simpa using next
        rw [List.nil_append, literalBody_cons, if_neg noQuote, if_neg noFeed, if_pos rfl]
        simp
  | case6 escaped more noFeed inner later closing read noQuote noOther ih =>
    cases found
    rw [List.cons_append, List.cons_append, literalBody_cons, if_neg noQuote, if_neg noOther,
      if_pos rfl]
    simp [noFeed, ih read]
  | case7 char rest noQuote noFeed noEscape inner later closing read ih =>
    cases found
    rw [List.cons_append, literalBody_cons, if_neg noQuote, if_neg noFeed, if_neg noEscape]
    simp [ih read]

theorem commentBody_ne_nil {text body : Text} (found : commentBody text = some (body, after)) :
    body ≠ [] := by
  fun_induction commentBody text with
  | case1 => cases found
  | case2 =>
    cases found
    exact List.cons_ne_nil _ _
  | case3 =>
    obtain ⟨inner, -, same⟩ := Option.map_eq_some_iff.mp found
    cases same
    exact List.cons_ne_nil _ _

/-- The rest of a block comment is the same whatever follows it. -/
theorem commentBody_of_append {text body : Text} (found : commentBody text = some (body, after))
    (other : Text) : commentBody (body ++ other) = some (body, other) := by
  fun_induction commentBody text generalizing body with
  | case1 => cases found
  | case2 more =>
    cases found
    rfl
  | case3 char more noEnd ih =>
    obtain ⟨⟨inner, later⟩, read, same⟩ := Option.map_eq_some_iff.mp found
    cases same
    rw [List.cons_append, commentBody, ih read]
    · rfl
    · rintro rest rfl starts
      obtain ⟨next, inner, rfl⟩ := List.exists_cons_of_ne_nil (commentBody_ne_nil read)
      obtain ⟨rfl, -⟩ := List.cons.inj starts
      exact noEnd _ rfl (commentBody_append read).symm

theorem literalLexeme_of_sameAhead {taken : Text} {given : TokenKind}
    (found : literalLexeme given first rest = (kind, first :: taken, after))
    (ahead : SameAhead after other) :
    literalLexeme given first (taken ++ other) = (kind, first :: taken, other) := by
  unfold literalLexeme at found ⊢
  cases read : literalBody first rest with
  | mk body parts =>
    rw [read] at found
    cases found
    rw [literalBody_of_sameAhead read ahead]

/-- A number, by its first digit. -/
def numeral (first : Char) (rest : Text) : Lexeme :=
  match rest with
  | mark :: digit :: more =>
    if first = '0' ∧ (mark = 'x' ∨ mark = 'X') ∧ isHexDigit digit then
      numberLexeme [first, mark, digit] isHexDigit more
    else numberLexeme [first] Char.isDigit rest
  | _ => numberLexeme [first] Char.isDigit rest

/-- A token that starts with none of the characters before. -/
def sign (first : Char) (rest : Text) : Option Lexeme :=
  match first, rest with
  | '/', '/' :: more => some (whileLexeme .lineComment ['/', '/'] (· != '\n') more)
  | '/', '*' :: more =>
    (commentBody more).map fun parts => (.blockComment, '/' :: '*' :: parts.1, parts.2)
  | ':', ':' :: more => some (.doubleColon, [':', ':'], more)
  | _, _ => some (punctuation first, [first], rest)

/-- A token, by its first character. -/
theorem lexeme_eq (first : Char) (rest : Text) : lexeme first rest =
    if isSpacing first then some (whileLexeme .whitespace [first] isSpacing rest)
    else if first = '\n' then some (.newline, ['\n'], rest)
    else if Text.startsIdentifier first then
      some (whileLexeme .identifier [first] Text.continuesIdentifier rest)
    else if first.isDigit then some (numeral first rest)
    else if first = '"' then some (literalLexeme .stringLiteral '"' rest)
    else if first = '\'' then some (literalLexeme .charLiteral '\'' rest)
    else sign first rest := by
  unfold lexeme numeral
  rcases rest with - | ⟨mark, - | ⟨digit, more⟩⟩
  · rfl
  · rfl
  · dsimp only
    rw [apply_ite some]
    rfl

/-- A number is hexadecimal if this follows its first digit. -/
def IsMarked (first : Char) (rest : Text) : Prop :=
  ∃ mark digit more, rest = mark :: digit :: more ∧
    first = '0' ∧ (mark = 'x' ∨ mark = 'X') ∧ isHexDigit digit = true

theorem numeral_of_not_isMarked (decimal : ¬ IsMarked first rest) :
    numeral first rest = numberLexeme [first] Char.isDigit rest := by
  unfold numeral
  split
  · exact if_neg fun marked => decimal ⟨_, _, _, rfl, marked⟩
  · rfl

/-- The marks of hexadecimal numbers. -/
def isMark (char : Char) : Bool := char == 'x' || char == 'X'

theorem isMark_eq_false {good : Char → Bool} (other : good 'x' = false ∧ good 'X' = false)
    {char : Char} (isGood : good char = true) : isMark char = false := by
  simp only [isMark, Bool.or_eq_false_iff, beq_eq_false_iff_ne]
  exact ⟨fun same => by simp [same, other.1] at isGood,
    fun same => by simp [same, other.2] at isGood⟩

/-- A number is decimal if no mark follows its first digit. -/
theorem not_isMarked (stops : Stops isMark rest) : ¬ IsMarked first rest := by
  rintro ⟨mark, digit, more, rfl, -, rfl | rfl, -⟩ <;> cases stops _ rfl

/-- A decimal number stays one when what follows it starts alike. -/
theorem not_isMarked_of_sameAhead {taken : Text} (decimal : ¬ IsMarked first rest)
    (found : numberLexeme [first] Char.isDigit rest = (kind, first :: taken, after))
    (ahead : SameAhead after other) : ¬ IsMarked first (taken ++ other) := by
  have text : rest.takeWhile Char.isDigit ++
      (rest.dropWhile Char.isDigit).takeWhile isNumberSuffix = taken :=
    (List.cons.inj (congrArg (fun lexeme : Lexeme => lexeme.2.1) found)).2
  cases taken with
  | cons char taken =>
    refine not_isMarked (stops_cons ?_ _)
    have among : char ∈ rest.takeWhile Char.isDigit ++
        (rest.dropWhile Char.isDigit).takeWhile isNumberSuffix := text ▸ List.mem_cons_self
    rcases List.mem_append.mp among with digit | suffix
    · exact isMark_eq_false (by decide) (List.mem_takeWhile_imp digit)
    · exact isMark_eq_false (by decide) (List.mem_takeWhile_imp suffix)
  | nil =>
    rintro ⟨mark, digit, more, rfl, zero, isMark, isHex⟩
    have whole := numberLexeme_append [first] Char.isDigit rest
    rw [found] at whole
    obtain rfl : after = rest := (List.cons.inj whole).2
    have two : [mark, digit] <+: after.take 2 := by
      refine ahead.2 ?_
      rcases isMark with rfl | rfl <;> simp
    obtain ⟨more, whole⟩ := two.trans (List.take_prefix 2 after)
    exact decimal ⟨mark, digit, more, whole.symm, zero, isMark, isHex⟩

theorem numeral_of_sameAhead {taken : Text}
    (found : numeral first rest = (kind, first :: taken, after)) (ahead : SameAhead after other) :
    numeral first (taken ++ other) = (kind, first :: taken, other) := by
  by_cases marked : IsMarked first rest
  · obtain ⟨mark, digit, more, rfl, isMarked⟩ := marked
    have read :
        numberLexeme [first, mark, digit] isHexDigit more = (kind, first :: taken, after) := by
      rw [← found]
      exact (if_pos isMarked).symm
    obtain ⟨inner, rfl⟩ : ∃ inner, taken = mark :: digit :: inner :=
      ⟨_, (List.cons.inj (congrArg (fun lexeme : Lexeme => lexeme.2.1) read)).2.symm⟩
    exact (if_pos isMarked).trans (numberLexeme_of_sameAhead [first, mark, digit] read ahead)
  · rw [numeral_of_not_isMarked marked] at found
    have again := numberLexeme_of_sameAhead [first] found ahead
    rw [numeral_of_not_isMarked (not_isMarked_of_sameAhead marked found ahead), again,
      List.singleton_append]

theorem sign_of_sameAhead {taken : Text}
    (found : sign first rest = some (kind, first :: taken, after))
    (ahead : SameAhead after other) :
    sign first (taken ++ other) = some (kind, first :: taken, other) := by
  unfold sign at found
  split at found
  · have read := Option.some.inj found
    obtain ⟨more, rfl⟩ : ∃ more, taken = '/' :: more :=
      ⟨_, (List.cons.inj (congrArg (fun lexeme : Lexeme => lexeme.2.1) read)).2.symm⟩
    exact congrArg some (whileLexeme_of_sameAhead ['/', '/'] read ahead)
  · obtain ⟨⟨inner, later⟩, read, same⟩ := Option.map_eq_some_iff.mp found
    cases same
    show (commentBody (inner ++ other)).map _ = _
    rw [commentBody_of_append read]
    rfl
  · cases found
    rfl
  · rename_i noLine noBlock noColon
    cases found
    rw [List.nil_append]
    unfold sign
    split
    · obtain ⟨more, same⟩ := ahead.exists_cons
      exact (noLine more rfl same).elim
    · obtain ⟨more, same⟩ := ahead.exists_cons
      exact (noBlock more rfl same).elim
    · obtain ⟨more, same⟩ := ahead.exists_cons
      exact (noColon more rfl same).elim
    · rfl

/-- **A token is cut off** in the same way when what follows it starts alike. -/
theorem lexeme_of_sameAhead {taken : Text}
    (found : lexeme first rest = some (kind, first :: taken, after))
    (ahead : SameAhead after other) :
    lexeme first (taken ++ other) = some (kind, first :: taken, other) := by
  rw [lexeme_eq] at found ⊢
  by_cases spacing : isSpacing first = true
  · rw [if_pos spacing] at found ⊢
    exact congrArg some (whileLexeme_of_sameAhead [first] (Option.some.inj found) ahead)
  rw [if_neg spacing] at found ⊢
  by_cases feed : first = '\n'
  · rw [if_pos feed] at found ⊢
    cases found
    rfl
  rw [if_neg feed] at found ⊢
  by_cases name : Text.startsIdentifier first = true
  · rw [if_pos name] at found ⊢
    exact congrArg some (whileLexeme_of_sameAhead [first] (Option.some.inj found) ahead)
  rw [if_neg name] at found ⊢
  by_cases digit : first.isDigit = true
  · rw [if_pos digit] at found ⊢
    exact congrArg some (numeral_of_sameAhead (Option.some.inj found) ahead)
  rw [if_neg digit] at found ⊢
  by_cases string : first = '"'
  · subst string
    exact congrArg some (literalLexeme_of_sameAhead (Option.some.inj found) ahead)
  rw [if_neg string] at found ⊢
  by_cases char : first = '\''
  · subst char
    exact congrArg some (literalLexeme_of_sameAhead (Option.some.inj found) ahead)
  rw [if_neg char] at found ⊢
  exact sign_of_sameAhead found ahead

/-! ### Tokens of a text -/

theorem tokensFrom_cons {text : Text} (found : lexeme first rest = some (kind, text, after))
    (offset : Nat) : tokensFrom offset (first :: rest) =
      (tokensFrom (offset + text.size) after).map (⟨kind, text, offset⟩ :: ·) := by
  rw [tokensFrom]
  split <;> rename_i again <;> rw [found] at again <;> cases again
  rfl

theorem lexeme_feed (rest : Text) : lexeme '\n' rest = some (.newline, ['\n'], rest) := rfl

/-- A token, and the line feed behind it. -/
theorem tokensFrom_of_feed {text : Text}
    (found : lexeme first rest = some (kind, text, '\n' :: after))
    (offset : Nat) : tokensFrom offset (first :: rest) =
      (tokensFrom (offset + text.size + Text.size ['\n']) after).map fun tokens =>
        ⟨kind, text, offset⟩ :: ⟨.newline, ['\n'], offset + text.size⟩ :: tokens := by
  rw [tokensFrom_cons found, tokensFrom_cons (lexeme_feed after)]
  cases tokensFrom (offset + text.size + Text.size ['\n']) after <;> rfl

theorem Placed.text_eq {offset : Nat} {tokens : Tokens} {text : Text}
    (placed : Placed offset tokens text) : tokens.text = text := by
  induction placed with
  | nil => rfl
  | @cons token _ _ more ih => exact congrArg (token.text ++ ·) ih

/-- The first of some tokens, and how the others are cut off. -/
theorem exists_of_tokensFrom {offset : Nat} {text : Text} {token : Token} {tokens : Tokens}
    (cut : tokensFrom offset text = .ok (token :: tokens)) :
    ∃ first taken after, text = first :: taken ++ after ∧ token.text = first :: taken ∧
      token.offset = offset ∧
      lexeme first (taken ++ after) = some (token.kind, first :: taken, after) ∧
      tokensFrom (offset + token.text.size) after = .ok tokens := by
  cases text with
  | nil =>
    rw [tokensFrom] at cut
    cases cut
  | cons first rest =>
    rw [tokensFrom] at cut
    split at cut
    · cases cut
    · rename_i kind text after found
      obtain ⟨more, read, same⟩ := map_eq_ok_iff.mp cut
      cases same
      have whole := lexeme_append found
      obtain ⟨char, taken, rfl⟩ := List.exists_cons_of_ne_nil (lexeme_filled found)
      obtain ⟨rfl, rfl⟩ := List.cons.inj whole
      exact ⟨char, taken, after, rfl, rfl, rfl, found, read⟩

/-- **The first tokens of a text** are the same when it goes on alike behind them. -/
theorem tokensFrom_append {offset : Nat} {taken : Text} {tokens later : Tokens}
    (cut : tokensFrom offset (taken ++ rest) = .ok (tokens ++ later)) (text : tokens.text = taken)
    (ahead : SameAhead rest other) :
    tokensFrom offset (taken ++ other) =
      (tokensFrom (offset + taken.size) other).map (tokens ++ ·) := by
  induction tokens generalizing offset taken with
  | nil =>
    obtain rfl : [] = taken := text
    exact (congrFun Except.map_id _).symm
  | cons token tokens ih =>
    obtain ⟨first, inner, after, whole, same, rfl, found, read⟩ := exists_of_tokensFrom cut
    obtain rfl : token.text ++ Tokens.text tokens = taken := text
    rw [same, List.append_assoc] at whole
    obtain rfl := List.append_cancel_left whole
    have again := lexeme_of_sameAhead found (ahead.append (Tokens.text tokens))
    rw [same, List.append_assoc, List.cons_append, tokensFrom_cons again, ← same, ih read rfl,
      Text.size_append, Nat.add_assoc]
    cases tokensFrom (token.offset + (token.text.size + Text.size (Tokens.text tokens))) other
    all_goals rfl

/-- Tokens behind the first ones are cut off the rest. -/
theorem tokensFrom_of_append {offset : Nat} {taken : Text} {tokens later : Tokens}
    (cut : tokensFrom offset (taken ++ rest) = .ok (tokens ++ later)) (text : tokens.text = taken) :
    tokensFrom (offset + taken.size) rest = .ok later := by
  rw [tokensFrom_append cut text (.refl rest)] at cut
  obtain ⟨others, read, same⟩ := map_eq_ok_iff.mp cut
  rwa [List.append_cancel_left same] at read

/-- A text is cut at each of its tokens. -/
theorem tokenize_append {source : Text} {tokens later : Tokens}
    (cut : tokenize source = .ok (tokens ++ later)) :
    source = tokens.text ++ later.text ∧ tokensFrom tokens.text.size later.text = .ok later := by
  have whole := (placed_of_tokensFrom cut).text_eq
  rw [Tokens.text_append] at whole
  rw [tokenize, ← whole] at cut
  have read := tokensFrom_of_append cut rfl
  rw [Nat.zero_add] at read
  exact ⟨whole.symm, read⟩

/-- **Tokens do not depend on where a text starts**, up to their places. -/
theorem exists_tokensFrom {offset : Nat} {text : Text} {tokens : Tokens}
    (cut : tokensFrom offset text = .ok tokens) (start : Nat) :
    ∃ others, tokensFrom start text = .ok others ∧
      List.Forall₂ (fun token other => token.kind = other.kind ∧ token.text = other.text)
        tokens others := by
  induction tokens generalizing offset text start with
  | nil =>
    obtain rfl : [] = text := (placed_of_tokensFrom cut).text_eq
    refine ⟨[], ?_, .nil⟩
    rw [tokensFrom]
  | cons token tokens ih =>
    obtain ⟨first, taken, after, rfl, same, -, found, read⟩ := exists_of_tokensFrom cut
    obtain ⟨others, again, alike⟩ := ih read (start + Text.size (first :: taken))
    refine ⟨⟨token.kind, token.text, start⟩ :: others, ?_, .cons ⟨rfl, rfl⟩ alike⟩
    rw [List.cons_append, tokensFrom_cons found, again, same]
    rfl

/-! ### Blanks, comments and literals -/

theorem numeral_kind (first : Char) (rest : Text) : (numeral first rest).1 = .number := by
  unfold numeral
  split
  · split <;> rfl
  · rfl

theorem literalLexeme_kind (given : TokenKind) (quote : Char) (rest : Text) :
    (literalLexeme given quote rest).1 ∈ [given, .other] := by
  unfold literalLexeme
  dsimp only
  split <;> simp

theorem punctuation_ne (char : Char) : punctuation char ∉ [.whitespace, .newline] := by
  unfold punctuation
  split <;> decide

/-- Only blanks are cut off as blanks, and only a line feed is cut off as one. -/
theorem cases_of_lexeme {taken : Text} (found : lexeme first rest = some (kind, taken, after)) :
    kind = .whitespace ∧ (∀ char ∈ taken, isSpacing char = true) ∨
      kind = .newline ∧ taken = ['\n'] ∨ kind ∉ [.whitespace, .newline] := by
  have other {made : Lexeme} {kinds : List TokenKind} (same : some made = some (kind, taken, after))
      (among : made.1 ∈ kinds) (solid : ∀ kind ∈ kinds, kind ∉ [.whitespace, .newline]) :
      kind ∉ [.whitespace, .newline] := by
    cases same
    exact solid _ among
  rw [lexeme_eq] at found
  split at found
  · rename_i spacing
    cases found
    exact Or.inl ⟨rfl, List.forall_mem_append.mpr
      ⟨List.forall_mem_singleton.mpr spacing, fun _ => List.mem_takeWhile_imp⟩⟩
  split at found
  · cases found
    exact Or.inr (Or.inl ⟨rfl, rfl⟩)
  refine Or.inr (Or.inr ?_)
  split at found
  · cases found
    decide
  split at found
  · exact other found (List.mem_singleton.mpr (numeral_kind first rest)) (by decide)
  split at found
  · exact other found (literalLexeme_kind ..) (by decide)
  split at found
  · exact other found (literalLexeme_kind ..) (by decide)
  unfold sign at found
  split at found
  · cases found
    decide
  · obtain ⟨parts, -, same⟩ := Option.map_eq_some_iff.mp found
    cases same
    decide
  · cases found
    decide
  · cases found
    exact punctuation_ne first

/-- **Blanks** before anything else are tokens of their own. -/
theorem exists_spacing_tokens {blanks : Text} (areBlank : ∀ char ∈ blanks, isSpacing char = true)
    (offset : Nat) : ∃ space : Tokens, Layout.IsSpacing space ∧ space.text = blanks ∧
      ∀ rest : Text, Stops isSpacing rest →
        tokensFrom offset (blanks ++ rest) =
          (tokensFrom (offset + blanks.size) rest).map (space ++ ·) := by
  cases blanks with
  | nil =>
    refine ⟨[], fun _ absent => absurd absent List.not_mem_nil, rfl, fun rest _ => ?_⟩
    exact (congrFun Except.map_id _).symm
  | cons first blanks =>
    obtain ⟨blank, others⟩ := List.forall_mem_cons.mp areBlank
    refine ⟨[⟨.whitespace, first :: blanks, offset⟩], List.forall_mem_singleton.mpr rfl,
      List.append_nil _, fun rest ends => ?_⟩
    obtain ⟨takes, drops⟩ := Tag.takeWhile_eq_and_dropWhile_eq_iff.mpr ⟨rfl, others, ends⟩
    have found : lexeme first (blanks ++ rest) = some (.whitespace, first :: blanks, rest) := by
      rw [lexeme_eq, if_pos blank, whileLexeme, takes, drops]
      rfl
    rw [List.cons_append, tokensFrom_cons found]
    rfl

/-- **A comment** takes the rest of its line. -/
theorem tokensFrom_line {text : Text} (noFeed : '\n' ∉ text) (offset : Nat) (rest : Text) :
    ∃ comment feed start, comment.kind = .lineComment ∧ feed.kind = .newline ∧
      tokensFrom offset ("//".toList ++ (text ++ '\n' :: rest)) =
        (tokensFrom start rest).map ([comment, feed] ++ ·) := by
  have others : ∀ char ∈ text, (char != '\n') = true :=
    fun char among => bne_iff_ne.mpr fun same => noFeed (same ▸ among)
  have ends : Stops (· != '\n') ('\n' :: rest) := stops_cons rfl rest
  obtain ⟨takes, drops⟩ := Tag.takeWhile_eq_and_dropWhile_eq_iff.mpr ⟨rfl, others, ends⟩
  have found : lexeme '/' ('/' :: (text ++ '\n' :: rest)) =
      some (.lineComment, '/' :: '/' :: text, '\n' :: rest) := by
    show some (whileLexeme .lineComment ['/', '/'] (· != '\n') (text ++ '\n' :: rest)) = _
    rw [whileLexeme, takes, drops]
    rfl
  refine ⟨⟨.lineComment, '/' :: '/' :: text, offset⟩,
    ⟨.newline, ['\n'], offset + Text.size ('/' :: '/' :: text)⟩,
    offset + Text.size ('/' :: '/' :: text) + Text.size ['\n'], rfl, rfl, ?_⟩
  rw [show "//".toList ++ (text ++ '\n' :: rest) = '/' :: '/' :: (text ++ '\n' :: rest) from rfl,
    tokensFrom_of_feed found]
  rfl

theorem startsIdentifier_of_isDigit {char : Char} (digit : char.isDigit = true) :
    Text.startsIdentifier char = false := by
  have bounds : 48 ≤ char.toNat ∧ char.toNat ≤ 57 := by
    have both := Bool.and_eq_true_iff.mp digit
    exact ⟨of_decide_eq_true both.1, of_decide_eq_true both.2⟩
  refine Bool.eq_false_iff.mpr fun starts => ?_
  rcases Bool.or_eq_true_iff.mp starts with letter | underscore
  · have cased : (char.isUpper || char.isLower) = true := letter
    rcases Bool.or_eq_true_iff.mp cased with upper | lower
    · have : 65 ≤ char.toNat ∧ char.toNat ≤ 90 := of_decide_eq_true upper
      omega
    · have : 97 ≤ char.toNat := of_decide_eq_true (Bool.and_eq_true_iff.mp lower).1
      omega
  · rw [beq_iff_eq.mp underscore] at bounds
    exact absurd bounds (by decide)

theorem continuesIdentifier_of_isHexDigit {char : Char} (digit : isHexDigit char = true) :
    Text.continuesIdentifier char = true := by
  have between {least most : Char}
      (range : (decide (least ≤ char) && decide (char ≤ most)) = true) :
      least.toNat ≤ char.toNat ∧ char.toNat ≤ most.toNat := by
    have both := Bool.and_eq_true_iff.mp range
    exact ⟨of_decide_eq_true both.1, of_decide_eq_true both.2⟩
  unfold isHexDigit at digit
  unfold Text.continuesIdentifier Char.isAlphanum Char.isAlpha
  rcases Bool.or_eq_true_iff.mp digit with digit | upper
  · rcases Bool.or_eq_true_iff.mp digit with decimal | lower
    · simp [decimal]
    · obtain ⟨least, most⟩ := between lower
      have isLower : char.isLower = true := Bool.and_eq_true_iff.mpr
        ⟨decide_eq_true least, decide_eq_true (show char.toNat ≤ 122 from most.trans (by decide))⟩
      simp [isLower]
  · obtain ⟨least, most⟩ := between upper
    have isUpper : char.isUpper = true :=
      decide_eq_true ⟨least, show char.toNat ≤ 90 from most.trans (by decide)⟩
    simp [isUpper]

theorem continuesIdentifier_of_isNumberSuffix {char : Char} (suffix : isNumberSuffix char = true) :
    Text.continuesIdentifier char = true := by
  simp only [isNumberSuffix, Bool.or_eq_true, beq_iff_eq] at suffix
  rcases suffix with ((rfl | rfl) | rfl) | rfl <;> rfl

theorem isSpacing_eq_false {char : Char} (continues : Text.continuesIdentifier char = true) :
    isSpacing char = false := by
  refine Bool.eq_false_iff.mpr fun spacing => ?_
  simp only [isSpacing, Bool.or_eq_true, beq_iff_eq] at spacing
  rcases spacing with ((rfl | rfl) | rfl) | rfl <;> revert continues <;> decide

theorem continuesIdentifier_of_isDigit {char : Char} (digit : char.isDigit = true) :
    Text.continuesIdentifier char = true :=
  continuesIdentifier_of_isHexDigit (Literal.isHexDigit_of_isDigit digit)

/-- A letter starts an identifier, a digit starts a number. -/
theorem lexeme_of_continuesIdentifier (continues : Text.continuesIdentifier first = true)
    (rest : Text) : lexeme first rest = some (if Text.startsIdentifier first then
      whileLexeme .identifier [first] Text.continuesIdentifier rest else numeral first rest) := by
  have feed : first ≠ '\n' := by
    rintro rfl
    revert continues
    decide
  rw [lexeme_eq, if_neg (by simp [isSpacing_eq_false continues]), if_neg feed]
  by_cases starts : Text.startsIdentifier first = true
  · rw [if_pos starts, if_pos starts]
  · have digit : first.isDigit = true := by
      simp only [Text.startsIdentifier, Bool.or_eq_true, not_or, Bool.not_eq_true] at starts
      simpa only [Text.continuesIdentifier, Char.isAlphanum, starts.1, starts.2, Bool.false_or,
        Bool.or_false] using continues
    rw [if_neg starts, if_neg starts, if_pos digit]

theorem lexeme_of_isDigit (digit : first.isDigit = true) (rest : Text) :
    lexeme first rest = some (numeral first rest) := by
  rw [lexeme_of_continuesIdentifier (continuesIdentifier_of_isDigit digit),
    startsIdentifier_of_isDigit digit]
  rfl

/-- Digits and a suffix are a number if no letter and no digit follows. -/
theorem numberLexeme_append_of_stops {digit : Char → Bool} {start digits suffix : Text}
    (isHex : ∀ char, digit char = true → isHexDigit char = true)
    (isDigits : ∀ char ∈ digits, digit char = true)
    (isSuffix : ∀ char ∈ suffix, isNumberSuffix char = true)
    (ends : Stops Text.continuesIdentifier rest) :
    numberLexeme start digit (digits ++ (suffix ++ rest)) =
      (.number, start ++ (digits ++ suffix), rest) := by
  have endsDigits : Stops digit (suffix ++ rest) := by
    refine .append (fun char first => Bool.eq_false_iff.mpr fun holds => ?_)
      (ends.mono fun char holds => continuesIdentifier_of_isHexDigit (isHex char holds))
    have other := Literal.not_isNumberSuffix (isHex char holds)
    rw [isSuffix char (List.mem_of_mem_head? first)] at other
    cases other
  have endsSuffix : Stops isNumberSuffix rest :=
    ends.mono fun char => continuesIdentifier_of_isNumberSuffix
  obtain ⟨takes, drops⟩ := Tag.takeWhile_eq_and_dropWhile_eq_iff.mpr ⟨rfl, isDigits, endsDigits⟩
  obtain ⟨takesSuffix, dropsSuffix⟩ :=
    Tag.takeWhile_eq_and_dropWhile_eq_iff.mpr ⟨rfl, isSuffix, endsSuffix⟩
  simp only [numberLexeme, takes, drops, takesSuffix, dropsSuffix, List.append_assoc]

/-- **A literal** is one token if no letter and no digit follows it. -/
theorem tokensFrom_number {literal : Text} {number : Nat} (denotes : Literal.Denotes literal number)
    (ends : Stops Text.continuesIdentifier rest) (offset : Nat) :
    tokensFrom offset (literal ++ rest) =
      (tokensFrom (offset + literal.size) rest).map (⟨.number, literal, offset⟩ :: ·) := by
  cases denotes with
  | @decimal digits suffix filled isDigits isSuffix =>
    obtain ⟨first, digits, rfl⟩ := List.exists_cons_of_ne_nil filled
    obtain ⟨isFirst, others⟩ := List.forall_mem_cons.mp isDigits
    have unmarked : ¬ IsMarked first (digits ++ (suffix ++ rest)) := by
      refine not_isMarked (.append (fun char among => ?_) (.append (fun char among => ?_) ?_))
      · exact isMark_eq_false (by decide) (others char (List.mem_of_mem_head? among))
      · exact isMark_eq_false (by decide) (isSuffix char (List.mem_of_mem_head? among))
      · refine ends.mono fun char mark => ?_
        rcases (Bool.or_eq_true_iff.mp mark).imp beq_iff_eq.mp beq_iff_eq.mp with rfl | rfl <;> rfl
    have found : lexeme first (digits ++ (suffix ++ rest)) =
        some (.number, first :: digits ++ suffix, rest) := by
      rw [lexeme_of_isDigit isFirst, numeral_of_not_isMarked unmarked,
        numberLexeme_append_of_stops (fun _ => Literal.isHexDigit_of_isDigit) others isSuffix ends]
      rfl
    rw [List.append_assoc, List.cons_append, tokensFrom_cons found]
  | @hexadecimal mark digits suffix marked filled isDigits isSuffix =>
    obtain ⟨first, digits, rfl⟩ := List.exists_cons_of_ne_nil filled
    obtain ⟨isFirst, others⟩ := List.forall_mem_cons.mp isDigits
    have found : lexeme '0' (mark :: first :: (digits ++ (suffix ++ rest))) =
        some (.number, '0' :: mark :: (first :: digits ++ suffix), rest) := by
      rw [lexeme_of_isDigit (by decide), numeral, if_pos ⟨rfl, marked, isFirst⟩,
        numberLexeme_append_of_stops (fun _ => id) others isSuffix ends]
      rfl
    have split : '0' :: mark :: (first :: digits ++ suffix) ++ rest =
        '0' :: mark :: first :: (digits ++ (suffix ++ rest)) := by simp
    rw [split, tokensFrom_cons found]

end Token

end Scaffold
