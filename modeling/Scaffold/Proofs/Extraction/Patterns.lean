/-
**What tokens look like.**

Each kind of token has a pattern (`Token.Spells`), and of all texts at a place that match one the
longest is the token there; a text matches no two patterns. Where nothing matches, the token is one
character, or a literal without an end, as far as it goes (`Token.IsStray`). A token that is cut off
is what these rules say (`Token.isLongest_of_lexeme`), and they leave no choice
(`Token.IsLongest.unique`).
-/

import Scaffold.Proofs.Extraction.Cutting

namespace Scaffold.Token

/-! ### Patterns -/

/-- What may stand between the quotes of a literal: no line feed, and no quote and no backslash
unless there is a backslash before it. -/
inductive IsQuoted (quote : Char) : Text → Prop
  | nil : IsQuoted quote []
  | plain {char : Char} {rest : Text} (ordinary : char ≠ quote ∧ char ≠ '\\' ∧ char ≠ '\n')
      (more : IsQuoted quote rest) : IsQuoted quote (char :: rest)
  | escaped {char : Char} {rest : Text} (noFeed : char ≠ '\n') (more : IsQuoted quote rest) :
      IsQuoted quote ('\\' :: char :: rest)

/-- The texts that match the pattern of a kind. -/
inductive Spells : TokenKind → Text → Prop
  | whitespace {text : Text} (filled : text ≠ [])
      (blank : ∀ char ∈ text, isSpacing char = true) : Spells .whitespace text
  | newline : Spells .newline ['\n']
  | lineComment {body : Text} (noFeed : '\n' ∉ body) : Spells .lineComment ('/' :: '/' :: body)
  | blockComment {body : Text} (first : ¬ ['*', '/'] <:+: body ++ ['*']) :
      Spells .blockComment ('/' :: '*' :: (body ++ ['*', '/']))
  | identifier {text : Text} (isWord : Text.isIdentifier text = true) : Spells .identifier text
  | number {literal : Text} {number : Nat} (denotes : Literal.Denotes literal number) :
      Spells .number literal
  | stringLiteral {body : Text} (quoted : IsQuoted '"' body) :
      Spells .stringLiteral ('"' :: (body ++ ['"']))
  | charLiteral {body : Text} (quoted : IsQuoted '\'' body) :
      Spells .charLiteral ('\'' :: (body ++ ['\'']))
  | doubleColon : Spells .doubleColon [':', ':']
  | sign {char : Char} (isSign : punctuation char ≠ .other) : Spells (punctuation char) [char]

variable {first : Char} {rest text after body lead : Text} {kind : TokenKind}

/-! ### Block comments -/

/-- A block comment goes on to the first end of one. -/
theorem commentBody_eq_some (found : commentBody text = some (body, after)) :
    ∃ inner, body = inner ++ ['*', '/'] ∧ ¬ ['*', '/'] <:+: inner ++ ['*'] := by
  fun_induction commentBody text generalizing body with
  | case1 => cases found
  | case2 =>
    cases found
    exact ⟨[], rfl, by decide⟩
  | case3 char rest noEnd ih =>
    obtain ⟨⟨body, later⟩, read, same⟩ := Option.map_eq_some_iff.mp found
    cases same
    obtain ⟨inner, rfl, absent⟩ := ih read
    refine ⟨char :: inner, rfl, fun occurs => ?_⟩
    rcases List.infix_cons_iff.mp occurs with ⟨more, here⟩ | later
    · obtain ⟨rfl, next⟩ := List.cons.inj here
      cases inner with
      | nil => simp at next
      | cons slash inner =>
        obtain ⟨rfl, -⟩ := List.cons.inj next
        exact noEnd _ rfl (commentBody_append read).symm
    · exact absent later

/-- A block comment does not end if there is no end of one. -/
theorem commentBody_eq_none (found : commentBody text = none) : ¬ ['*', '/'] <:+: text := by
  fun_induction commentBody text with
  | case1 => decide
  | case2 => cases found
  | case3 char rest noEnd ih =>
    intro occurs
    rcases List.infix_cons_iff.mp occurs with ⟨more, here⟩ | later
    · obtain ⟨rfl, next⟩ := List.cons.inj here
      exact noEnd more rfl next.symm
    · exact ih (Option.map_eq_none_iff.mp found) later

/-- The first end of a block comment is where it ends. -/
theorem commentBody_of_first (absent : ¬ ['*', '/'] <:+: body ++ ['*']) (rest : Text) :
    commentBody (body ++ '*' :: '/' :: rest) = some (body ++ ['*', '/'], rest) := by
  induction body with
  | nil => rfl
  | cons char body ih =>
    have later := ih fun occurs => absent (List.infix_cons occurs)
    rw [List.cons_append, commentBody, later]
    · rfl
    · rintro more rfl next
      refine absent ?_
      cases body with
      | nil => simp at next
      | cons slash body =>
        obtain ⟨rfl, -⟩ := List.cons.inj next
        exact (List.prefix_append ['*', '/'] (body ++ ['*'])).isInfix

/-! ### Literals -/

/-- What may stand in a literal is taken with it. -/
theorem literalBody_append_of_isQuoted {quote : Char} (solid : quote ≠ '\\')
    (quoted : IsQuoted quote body) (rest : Text) : literalBody quote (body ++ rest) =
      (body ++ (literalBody quote rest).1, (literalBody quote rest).2) := by
  induction quoted with
  | nil => rfl
  | plain ordinary more ih =>
    obtain ⟨noQuote, noEscape, noFeed⟩ := ordinary
    rw [List.cons_append, literalBody_cons, if_neg noQuote, if_neg noFeed, if_neg noEscape, ih]
    rfl
  | escaped noFeed more ih =>
    rw [List.cons_append, List.cons_append, literalBody_cons, if_neg (Ne.symm solid),
      if_neg (by decide), if_pos rfl]
    dsimp only
    rw [if_neg noFeed, ih]
    rfl

/-- What is taken of a literal may stand in it, up to the quote at its end. -/
theorem exists_isQuoted {quote : Char} {closed : Bool}
    (found : literalBody quote text = (body, after, closed)) :
    ∃ inner, IsQuoted quote inner ∧ body = inner ++ if closed then [quote] else [] := by
  fun_induction literalBody quote text generalizing body closed with
  | case1 => cases found; exact ⟨[], .nil, rfl⟩
  | case2 => cases found; exact ⟨[], .nil, rfl⟩
  | case3 => cases found; exact ⟨[], .nil, rfl⟩
  | case4 => cases found; exact ⟨[], .nil, rfl⟩
  | case5 => cases found; exact ⟨[], .nil, rfl⟩
  | case6 escaped more noFeed inner later closed read noQuote noOther ih =>
    cases found
    obtain ⟨inner, quoted, rfl⟩ := ih read
    exact ⟨_, .escaped noFeed quoted, rfl⟩
  | case7 char rest noQuote noFeed noEscape inner later closed read ih =>
    cases found
    obtain ⟨inner, quoted, rfl⟩ := ih read
    exact ⟨_, .plain ⟨noQuote, noEscape, noFeed⟩ quoted, rfl⟩

theorem literalLexeme_of_isQuoted {quote : Char} (solid : quote ≠ '\\')
    (quoted : IsQuoted quote body) (kind : TokenKind) (more : Text) :
    literalLexeme kind quote (body ++ [quote] ++ more) =
      (kind, quote :: (body ++ [quote]), more) := by
  have ends : literalBody quote (quote :: more) = ([quote], more, true) := by
    rw [literalBody_cons, if_pos rfl]
  rw [literalLexeme, List.append_assoc, literalBody_append_of_isQuoted solid quoted]
  simp only [List.singleton_append, ends]
  rfl

/-! ### Numbers -/

theorem denotes_numeral (digit : first.isDigit = true) (rest : Text) :
    ∃ number, Literal.Denotes (numeral first rest).2.1 number := by
  have suffix (text : Text) : ∀ char ∈ text.takeWhile isNumberSuffix, isNumberSuffix char = true :=
    fun _ => List.mem_takeWhile_imp
  by_cases marked : IsMarked first rest
  · obtain ⟨mark, next, more, rfl, rfl, isMark, isHex⟩ := marked
    rw [numeral, if_pos ⟨rfl, isMark, isHex⟩]
    exact ⟨_, .hexadecimal isMark (List.cons_ne_nil next _)
      (List.forall_mem_cons.mpr ⟨isHex, fun _ => List.mem_takeWhile_imp⟩) (suffix _)⟩
  · rw [numeral_of_not_isMarked marked]
    exact ⟨_, .decimal (List.cons_ne_nil first _)
      (List.forall_mem_cons.mpr ⟨digit, fun _ => List.mem_takeWhile_imp⟩) (suffix _)⟩

/-- Digits and a suffix are taken with a number. -/
theorem exists_numberLexeme {digit : Char → Bool} {digits suffix : Text}
    (isHex : ∀ char, digit char = true → isHexDigit char = true)
    (isDigits : ∀ char ∈ digits, digit char = true)
    (isSuffix : ∀ char ∈ suffix, isNumberSuffix char = true) (start more : Text) :
    ∃ extra after, numberLexeme start digit (digits ++ (suffix ++ more)) =
      (.number, start ++ (digits ++ suffix) ++ extra, after) := by
  cases suffix with
  | nil =>
    refine ⟨more.takeWhile digit ++ (more.dropWhile digit).takeWhile isNumberSuffix,
      (more.dropWhile digit).dropWhile isNumberSuffix, ?_⟩
    simp only [numberLexeme, List.nil_append, List.append_nil, List.append_assoc,
      List.takeWhile_append_of_pos isDigits, List.dropWhile_append_of_pos isDigits]
  | cons char suffix =>
    have ends : Tag.Stops digit (char :: suffix ++ more) := by
      refine Tag.stops_cons (Bool.eq_false_iff.mpr fun holds => ?_) _
      have other := Literal.not_isNumberSuffix (isHex char holds)
      rw [isSuffix char List.mem_cons_self] at other
      cases other
    obtain ⟨takes, drops⟩ := Tag.takeWhile_eq_and_dropWhile_eq_iff.mpr ⟨rfl, isDigits, ends⟩
    refine ⟨more.takeWhile isNumberSuffix, more.dropWhile isNumberSuffix, ?_⟩
    simp only [numberLexeme, takes, drops, List.takeWhile_append_of_pos isSuffix,
      List.dropWhile_append_of_pos isSuffix, List.append_assoc]

/-- A number is taken as a whole where its literal is. -/
theorem exists_numeral_of_denotes {literal : Text} {number : Nat}
    (denotes : Literal.Denotes literal number) (more : Text) :
    ∃ first taken extra after, literal = first :: taken ∧ first.isDigit = true ∧
      numeral first (taken ++ more) = (.number, literal ++ extra, after) := by
  cases denotes with
  | @decimal digits suffix filled isDigits isSuffix =>
    obtain ⟨first, digits, rfl⟩ := List.exists_cons_of_ne_nil filled
    obtain ⟨isFirst, others⟩ := List.forall_mem_cons.mp isDigits
    by_cases marked : IsMarked first (digits ++ suffix ++ more)
    · obtain ⟨mark, next, rest, split, zero, isMarked, isHex⟩ := marked
      have alone : digits ++ suffix = [] := by
        cases taken : digits ++ suffix with
        | nil => rfl
        | cons char later =>
          rw [taken] at split
          obtain ⟨rfl, -⟩ := List.cons.inj split
          have among : char ∈ digits ++ suffix := taken ▸ List.mem_cons_self
          have noMark : isMark char = false := by
            rcases List.mem_append.mp among with inside | inside
            · exact isMark_eq_false (by decide) (others char inside)
            · exact isMark_eq_false (by decide) (isSuffix char inside)
          rcases isMarked with rfl | rfl <;> cases noMark
      obtain ⟨rfl, rfl⟩ := List.append_eq_nil_iff.mp alone
      obtain rfl : more = mark :: next :: rest := split
      refine ⟨first, [], mark :: next ::
        (rest.takeWhile isHexDigit ++ (rest.dropWhile isHexDigit).takeWhile isNumberSuffix),
        (rest.dropWhile isHexDigit).dropWhile isNumberSuffix, rfl, isFirst, ?_⟩
      rw [List.nil_append, numeral, if_pos ⟨zero, isMarked, isHex⟩, numberLexeme, List.append_assoc]
      rfl
    · obtain ⟨extra, after, read⟩ := exists_numberLexeme
        (fun _ => Literal.isHexDigit_of_isDigit) others isSuffix [first] more
      refine ⟨first, digits ++ suffix, extra, after, rfl, isFirst, ?_⟩
      rw [numeral_of_not_isMarked marked, List.append_assoc, read]
      rfl
  | @hexadecimal mark digits suffix marked filled isDigits isSuffix =>
    obtain ⟨first, digits, rfl⟩ := List.exists_cons_of_ne_nil filled
    obtain ⟨isFirst, others⟩ := List.forall_mem_cons.mp isDigits
    obtain ⟨extra, after, read⟩ :=
      exists_numberLexeme (fun _ => id) others isSuffix ['0', mark, first] more
    refine ⟨'0', mark :: (first :: digits ++ suffix), extra, after, rfl, by decide, ?_⟩
    rw [List.cons_append, List.cons_append, List.cons_append, List.append_assoc, numeral,
      if_pos ⟨rfl, marked, isFirst⟩, read]
    rfl

/-- A sign is taken alone, unless it is the first of two colons. -/
theorem lexeme_of_punctuation (isSign : punctuation first ≠ .other)
    (single : ¬ (first = ':' ∧ rest.head? = some ':')) :
    lexeme first rest = some (punctuation first, [first], rest) := by
  unfold punctuation at isSign ⊢
  split at isSign
  · cases rest with
    | nil => rfl
    | cons next rest =>
      show sign ':' (next :: rest) = _
      rw [sign]
      · rfl
      · exact fun _ slash => absurd slash (by decide)
      · exact fun _ slash => absurd slash (by decide)
      · exact fun _ _ colon => single ⟨rfl, congrArg List.head? colon⟩
  all_goals first | exact absurd rfl isSign | (cases rest <;> rfl)

/-! ### Runs of characters -/

/-- A token that goes on while a condition holds starts with whatever satisfies it. -/
theorem whileLexeme_append_of_forall {more : Char → Bool} {taken : Text}
    (holds : ∀ char ∈ taken, more char = true) (start rest : Text) :
    whileLexeme kind start more (taken ++ rest) =
      (kind, start ++ taken ++ rest.takeWhile more, rest.dropWhile more) := by
  rw [whileLexeme, List.takeWhile_append_of_pos holds, List.dropWhile_append_of_pos holds,
    List.append_assoc]

/-- A name is taken with all that may go on a name. -/
theorem exists_lexeme_of_isIdentifier (isWord : Text.isIdentifier lead = true) (more : Text) :
    ∃ first taken, lead = first :: taken ∧ lexeme first (taken ++ more) =
      some (.identifier, lead ++ more.takeWhile Text.continuesIdentifier,
        more.dropWhile Text.continuesIdentifier) := by
  cases lead with
  | nil => cases isWord
  | cons first taken =>
    rw [Text.isIdentifier, Bool.and_eq_true, List.all_eq_true] at isWord
    obtain ⟨starts, others⟩ := isWord
    have continues : Text.continuesIdentifier first = true := by
      simp only [Text.startsIdentifier, Bool.or_eq_true] at starts
      simp only [Text.continuesIdentifier, Char.isAlphanum, Bool.or_eq_true]
      exact starts.imp_left Or.inl
    refine ⟨first, taken, rfl, ?_⟩
    rw [lexeme_of_continuesIdentifier continues, if_pos starts, whileLexeme_append_of_forall others]
    rfl

/-! ### The longest match -/

/-- **What is cut off** where a text matches a pattern: that text, or a longer one. -/
theorem exists_lexeme_of_spells {lead : Text} (spells : Spells kind lead) (more : Text) :
    ∃ first taken given extra after, lead = first :: taken ∧
      lexeme first (taken ++ more) = some (given, lead ++ extra, after) ∧ given ≠ .other ∧
      (extra = [] → given = kind) := by
  cases spells with
  | whitespace filled blank =>
    obtain ⟨first, taken, rfl⟩ := List.exists_cons_of_ne_nil filled
    obtain ⟨isFirst, others⟩ := List.forall_mem_cons.mp blank
    refine ⟨first, taken, .whitespace, more.takeWhile isSpacing, more.dropWhile isSpacing, rfl, ?_,
      by decide, fun _ => rfl⟩
    rw [lexeme_eq, if_pos isFirst, whileLexeme_append_of_forall others]
    rfl
  | newline => exact ⟨'\n', [], .newline, [], more, rfl, rfl, by decide, fun _ => rfl⟩
  | @lineComment body noFeed =>
    have others : ∀ char ∈ body, (char != '\n') = true :=
      fun char among => bne_iff_ne.mpr fun same => noFeed (same ▸ among)
    refine ⟨'/', '/' :: body, .lineComment, more.takeWhile (· != '\n'),
      more.dropWhile (· != '\n'), rfl, ?_, by decide, fun _ => rfl⟩
    show some (whileLexeme .lineComment ['/', '/'] (· != '\n') (body ++ more)) = _
    rw [whileLexeme_append_of_forall others]
    rfl
  | @blockComment body absent =>
    refine ⟨'/', _, .blockComment, [], more, rfl, ?_, by decide, fun _ => rfl⟩
    show (commentBody (body ++ ['*', '/'] ++ more)).map _ = _
    rw [List.append_assoc, List.cons_append, List.singleton_append, commentBody_of_first absent,
      List.append_nil]
    rfl
  | identifier isWord =>
    obtain ⟨first, taken, same, found⟩ := exists_lexeme_of_isIdentifier isWord more
    exact ⟨first, taken, .identifier, _, _, same, found, by decide, fun _ => rfl⟩
  | number denotes =>
    obtain ⟨first, taken, extra, after, same, digit, read⟩ := exists_numeral_of_denotes denotes more
    refine ⟨first, taken, .number, extra, after, same, ?_, by decide, fun _ => rfl⟩
    rw [lexeme_of_isDigit digit, read]
  | @stringLiteral body quoted =>
    refine ⟨'"', _, .stringLiteral, [], more, rfl, ?_, by decide, fun _ => rfl⟩
    rw [List.append_nil]
    exact congrArg some (literalLexeme_of_isQuoted (by decide) quoted .stringLiteral more)
  | @charLiteral body quoted =>
    refine ⟨'\'', _, .charLiteral, [], more, rfl, ?_, by decide, fun _ => rfl⟩
    rw [List.append_nil]
    exact congrArg some (literalLexeme_of_isQuoted (by decide) quoted .charLiteral more)
  | doubleColon =>
    exact ⟨':', [':'], .doubleColon, [], more, rfl, rfl, by decide, fun _ => rfl⟩
  | @sign char isSign =>
    by_cases colons : char = ':' ∧ more.head? = some ':'
    · obtain ⟨rfl, starts⟩ := colons
      obtain ⟨more, rfl⟩ := List.head?_eq_some_iff.mp starts
      exact ⟨':', [], .doubleColon, [':'], more, rfl, rfl, by decide,
        fun nothing => absurd nothing (List.cons_ne_nil _ _)⟩
    · exact ⟨char, [], punctuation char, [], more, rfl, lexeme_of_punctuation isSign colons, isSign,
        fun _ => rfl⟩

/-- **A token is the longest match** at its place: a text there that matches a pattern is a part of
it, and if it is all of it, the pattern is that of the token's kind. -/
theorem prefix_of_spells {given : TokenKind} {more : Text}
    (found : lexeme first rest = some (kind, text, after)) (spells : Spells given lead)
    (starts : first :: rest = lead ++ more) :
    kind ≠ .other ∧ lead <+: text ∧ (lead = text → given = kind) := by
  obtain ⟨char, taken, made, extra, later, rfl, again, solid, same⟩ :=
    exists_lexeme_of_spells spells more
  obtain ⟨rfl, rfl⟩ := List.cons.inj starts
  cases found.symm.trans again
  refine ⟨solid, List.prefix_append _ _, fun whole => ?_⟩
  exact (same (List.append_right_eq_self.mp whole.symm)).symm

/-! ### What each token is -/

/-- One character, or a literal without an end, as far as it goes. -/
def IsStray (text after : Text) : Prop :=
  ∃ first rest, text = first :: rest ∧
    if first = '"' ∨ first = '\'' then
      IsQuoted first rest ∧ ∀ lead more, rest ++ after = lead ++ more →
        IsQuoted first lead → lead <+: rest
    else rest = []

/-- What a token is. -/
def Fits (kind : TokenKind) (text after : Text) : Prop :=
  if kind = .other then IsStray text after else Spells kind text

theorem fits_of_spells (spells : Spells kind text) (solid : kind ≠ .other) (after : Text) :
    Fits kind text after := by
  rwa [Fits, if_neg solid]

theorem fits_literalLexeme {quote : Char} (isQuote : quote = '"' ∨ quote = '\'')
    (closes : ∀ body, IsQuoted quote body → Spells kind (quote :: (body ++ [quote])))
    (solid : kind ≠ .other) (rest : Text) :
    Fits (literalLexeme kind quote rest).1 (literalLexeme kind quote rest).2.1
      (literalLexeme kind quote rest).2.2 := by
  have escape : quote ≠ '\\' := by rcases isQuote with rfl | rfl <;> decide
  have whole := literalBody_append quote rest
  unfold literalLexeme
  cases read : literalBody quote rest with
  | mk body parts =>
    obtain ⟨after, closed⟩ := parts
    obtain ⟨inner, quoted, same⟩ := exists_isQuoted read
    rw [read] at whole
    dsimp only at whole ⊢
    cases closed with
    | true =>
      rw [same]
      exact fits_of_spells (closes inner quoted) solid after
    | false =>
      obtain rfl : body = inner := same.trans (List.append_nil inner)
      refine ⟨quote, body, rfl, ?_⟩
      rw [if_pos isQuote]
      refine ⟨quoted, fun lead more split other => ?_⟩
      have taken := literalBody_append_of_isQuoted escape other more
      rw [← split, whole, read] at taken
      exact ⟨_, (congrArg Prod.fst taken).symm⟩

/-- **A token is of a kind that its text is of.** -/
theorem fits_of_lexeme (found : lexeme first rest = some (kind, text, after)) :
    Fits kind text after := by
  have literal {made : Lexeme} (same : some made = some (kind, text, after))
      (fits : Fits made.1 made.2.1 made.2.2) : Fits kind text after := by
    cases same
    exact fits
  rw [lexeme_eq] at found
  split at found
  · rename_i spacing
    refine literal found (fits_of_spells (.whitespace (List.cons_ne_nil _ _) ?_) (by decide) _)
    exact List.forall_mem_cons.mpr ⟨spacing, fun _ => List.mem_takeWhile_imp⟩
  split at found
  · exact literal found (fits_of_spells .newline (by decide) _)
  split at found
  · rename_i starts
    refine literal found (fits_of_spells (.identifier ?_) (by decide) _)
    refine Bool.and_eq_true_iff.mpr ⟨starts, List.all_eq_true.mpr ?_⟩
    exact fun _ => List.mem_takeWhile_imp
  split at found
  · rename_i digit
    obtain ⟨number, denotes⟩ := denotes_numeral digit rest
    refine literal found ?_
    rw [numeral_kind]
    exact fits_of_spells (.number denotes) (by decide) _
  split at found
  · exact literal found (fits_literalLexeme (Or.inl rfl) (fun _ => .stringLiteral) (by decide) rest)
  split at found
  · exact literal found (fits_literalLexeme (Or.inr rfl) (fun _ => .charLiteral) (by decide) rest)
  rename_i noString noChar
  unfold sign at found
  split at found
  · refine literal found (fits_of_spells (.lineComment fun among => ?_) (by decide) _)
    exact absurd (List.mem_takeWhile_imp among) (by decide)
  · obtain ⟨⟨body, later⟩, read, same⟩ := Option.map_eq_some_iff.mp found
    obtain ⟨inner, rfl, absent⟩ := commentBody_eq_some read
    exact literal (congrArg some same) (fits_of_spells (.blockComment absent) (by decide) _)
  · exact literal found (fits_of_spells .doubleColon (by decide) _)
  · refine literal found ?_
    by_cases other : punctuation first = .other
    · rw [Fits, if_pos other]
      exact ⟨first, [], rfl, by rw [if_neg (not_or.mpr ⟨noString, noChar⟩)]⟩
    · exact fits_of_spells (.sign other) other _

/-! ### Tokens at a place -/

/-- The token is what the patterns make of a place where `after` follows its text. -/
structure IsLongest (token : Token) (after : Text) : Prop where
  /-- Its text is of its kind. -/
  fits : Fits token.kind token.text after
  /-- A text that matches a pattern is no longer, and matches no other one if it is as long. -/
  longest : ∀ kind lead more, token.text ++ after = lead ++ more → Spells kind lead →
    token.kind ≠ .other ∧ lead <+: token.text ∧ (lead = token.text → kind = token.kind)

theorem isLongest_of_lexeme {token : Token} {taken : Text} (same : token.text = first :: taken)
    (found : lexeme first (taken ++ after) = some (token.kind, first :: taken, after)) :
    IsLongest token after := by
  refine ⟨same ▸ fits_of_lexeme found, ?_⟩
  intro kind lead more starts spells
  rw [same] at starts ⊢
  exact prefix_of_spells found spells starts

theorem IsStray.unique {other later : Text} (isStray : IsStray text after)
    (isOther : IsStray other later) (same : text ++ after = other ++ later) : text = other := by
  obtain ⟨first, rest, rfl, shape⟩ := isStray
  obtain ⟨second, more, rfl, shapeOther⟩ := isOther
  obtain ⟨rfl, behind⟩ := List.cons.inj same
  by_cases quote : first = '"' ∨ first = '\''
  · rw [if_pos quote] at shape shapeOther
    have short : more <+: rest := shape.2 _ _ behind shapeOther.1
    have long : rest <+: more := shapeOther.2 _ _ behind.symm shape.1
    rw [short.eq_of_length_le long.length_le]
  · rw [if_neg quote] at shape shapeOther
    rw [shape, shapeOther]

/-- Each token is the longest one where it stands. -/
theorem isLongest_of_tokensFrom {offset : Nat} {before later : Tokens} {token : Token}
    (cut : tokensFrom offset text = .ok (before ++ token :: later)) :
    IsLongest token (Tokens.text later) := by
  induction before generalizing offset text with
  | nil =>
    obtain ⟨first, taken, after, -, same, -, found, read⟩ := exists_of_tokensFrom cut
    rw [(placed_of_tokensFrom read).text_eq]
    exact isLongest_of_lexeme same found
  | cons head before ih =>
    obtain ⟨first, taken, after, -, -, -, -, read⟩ := exists_of_tokensFrom cut
    exact ih read

/-- **The patterns leave no choice** of the token at a place. -/
theorem IsLongest.unique {first second : Token} {after later : Text}
    (isFirst : IsLongest first after) (isSecond : IsLongest second later)
    (same : first.text ++ after = second.text ++ later) :
    first.kind = second.kind ∧ first.text = second.text := by
  have leads {one two : Token} {behind further : Text} (isOne : IsLongest one behind)
      (isTwo : IsLongest two further) (same : one.text ++ behind = two.text ++ further)
      (solid : two.kind ≠ .other) :
      one.kind ≠ .other ∧ two.text <+: one.text ∧ (two.text = one.text → two.kind = one.kind) := by
    have spells := isTwo.fits
    rw [Fits, if_neg solid] at spells
    exact isOne.longest _ _ _ same spells
  by_cases other : second.kind = .other
  · have otherFirst : first.kind = .other := by
      by_contra solid
      exact (leads isSecond isFirst same.symm solid).1 other
    have fits := isFirst.fits
    have fitsSecond := isSecond.fits
    rw [Fits, if_pos otherFirst] at fits
    rw [Fits, if_pos other] at fitsSecond
    exact ⟨otherFirst.trans other.symm, fits.unique fitsSecond same⟩
  · obtain ⟨solid, short, kinds⟩ := leads isFirst isSecond same other
    obtain ⟨-, long, -⟩ := leads isSecond isFirst same.symm solid
    have texts := short.eq_of_length_le long.length_le
    exact ⟨(kinds texts).symm, texts.symm⟩

end Scaffold.Token
