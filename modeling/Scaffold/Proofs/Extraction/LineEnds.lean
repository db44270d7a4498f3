/-
**Carriage returns before line feeds.**

A carriage return before each line feed (`Text.withReturns`) is seen by the token whose line ends
there, and by no other. A blank, a line comment and a literal without an end take it along, and such
a literal takes an escape before it along too; behind any other token it is a blank of its own
(`Token.lexeme_withReturns`). All of that is hidden when blanks are left out of the tokens, with
several other tokens in a row counted as one, and when comments lose the blanks at their ends
(`Token.returnsHidden`). Neither has a meaning, so a source with returns has the classes of
the source (`Extractor.parse_withReturns`).
-/

import Scaffold.Proofs.Extraction.BlankEnds
import Scaffold.Proofs.Extraction.Cutting
import Scaffold.Proofs.Extraction.Described
import Scaffold.Proofs.Extraction.Squeezed

namespace Scaffold

namespace Text

/-- The text with a carriage return before each line feed. -/
def withReturns (text : Text) : Text :=
  text.flatMap fun char => if char = '\n' then ['\r', '\n'] else [char]

theorem withReturns_feed (rest : Text) :
    withReturns ('\n' :: rest) = '\r' :: '\n' :: rest.withReturns := rfl

theorem withReturns_cons {char : Char} (ordinary : char ≠ '\n') (rest : Text) :
    withReturns (char :: rest) = char :: rest.withReturns := by
  rw [withReturns, List.flatMap_cons, if_neg ordinary]
  rfl

/-- Nothing but a return is new at the front of the text. -/
theorem exists_of_withReturns {text rest : Text} {char : Char} (ordinary : char ≠ '\r')
    (starts : text.withReturns = char :: rest) :
    char ≠ '\n' ∧ ∃ more, text = char :: more ∧ withReturns more = rest := by
  cases text with
  | nil => cases starts
  | cons first more =>
    by_cases feed : first = '\n'
    · subst feed
      exact absurd (List.cons.inj starts).1.symm ordinary
    · rw [withReturns_cons feed] at starts
      obtain ⟨rfl, same⟩ := List.cons.inj starts
      exact ⟨feed, more, rfl, same⟩

end Text

/-! ### Single tokens -/

namespace Token

variable {first : Char} {rest : Text} {kind : TokenKind}

/-- A token of this kind and text takes a return behind it along. -/
def TakesReturn (kind : TokenKind) (text : Text) : Prop :=
  kind = .whitespace ∨ kind = .other ∨ kind = .lineComment ∧ "//".toList <+: text

theorem TakesReturn.append {start : Text} (takes : TakesReturn kind start) (more : Text) :
    TakesReturn kind (start ++ more) :=
  takes.imp_right (Or.imp_right (And.imp_right fun marked =>
    marked.trans (List.prefix_append start more)))

/-- What becomes of a token, and of the text after it. -/
inductive Returned : Lexeme → Lexeme → Prop
  | same (kind : TokenKind) (text after : Text) :
    Returned (kind, text, after) (kind, text, after.withReturns)
  /-- The line ends behind the token, which takes the return along. -/
  | taken {kind : TokenKind} {text : Text} (takes : TakesReturn kind text) (rest : Text) :
    Returned (kind, text, '\n' :: rest) (kind, text ++ ['\r'], '\n' :: rest.withReturns)
  /-- The return stands where an escaped line feed ended a literal. -/
  | escaped (text rest : Text) :
    Returned (.other, text, '\\' :: '\n' :: rest)
      (.other, text ++ ['\\', '\r'], '\n' :: rest.withReturns)

/-- Characters that are taken while a condition holds, if no line feed is among them: the return at
the end of the line is one of them if the condition holds of it. -/
theorem span_withReturns {more : Char → Bool} (noFeed : more '\n' = false) (rest : Text) :
    (rest.withReturns.takeWhile more = rest.takeWhile more ∧
      rest.withReturns.dropWhile more = Text.withReturns (rest.dropWhile more)) ∨
    (more '\r' = true ∧ ∃ later, rest.dropWhile more = '\n' :: later ∧
      rest.withReturns.takeWhile more = rest.takeWhile more ++ ['\r'] ∧
      rest.withReturns.dropWhile more = '\n' :: Text.withReturns later) := by
  induction rest with
  | nil => exact Or.inl ⟨rfl, rfl⟩
  | cons char rest ih =>
    by_cases feed : char = '\n'
    · subst feed
      rw [Text.withReturns_feed]
      by_cases holds : more '\r' = true
      · exact Or.inr ⟨holds, rest, by simp [noFeed], by simp [noFeed, holds],
          by simp [noFeed, holds]⟩
      · exact Or.inl ⟨by simp [noFeed, holds], by simp [noFeed, holds, Text.withReturns_feed]⟩
    · rw [Text.withReturns_cons feed]
      by_cases holds : more char = true
      · simp only [List.takeWhile_cons_of_pos holds, List.dropWhile_cons_of_pos holds]
        rcases ih with ⟨takes, drops⟩ | ⟨returns, later, left, takes, drops⟩
        · exact Or.inl ⟨by rw [takes], drops⟩
        · exact Or.inr ⟨returns, later, left, by rw [takes, List.cons_append], drops⟩
      · exact Or.inl ⟨by simp [holds], by simp [holds, Text.withReturns_cons feed]⟩

/-- Characters that are taken are the same if neither a return nor a line feed is among them. -/
theorem span_withReturns_of_stops {more : Char → Bool} (noFeed : more '\n' = false)
    (noReturn : more '\r' = false) (rest : Text) :
    rest.withReturns.takeWhile more = rest.takeWhile more ∧
      rest.withReturns.dropWhile more = Text.withReturns (rest.dropWhile more) :=
  (span_withReturns noFeed rest).resolve_right fun ⟨holds, _⟩ =>
    Bool.false_ne_true (noReturn.symm.trans holds)

theorem whileLexeme_withReturns {more : Char → Bool} {start : Text} (noFeed : more '\n' = false)
    (takes : more '\r' = true → TakesReturn kind start) (rest : Text) :
    Returned (whileLexeme kind start more rest) (whileLexeme kind start more rest.withReturns) := by
  unfold whileLexeme
  rcases span_withReturns noFeed rest with ⟨taken, dropped⟩ | ⟨holds, later, left, taken, dropped⟩
  · rw [taken, dropped]
    exact .same _ _ _
  · rw [taken, dropped, left, ← List.append_assoc]
    exact .taken ((takes holds).append _) _

theorem numberLexeme_withReturns {digit : Char → Bool} (noFeed : digit '\n' = false)
    (noReturn : digit '\r' = false) (start rest : Text) :
    Returned (numberLexeme start digit rest) (numberLexeme start digit rest.withReturns) := by
  obtain ⟨takes, drops⟩ := span_withReturns_of_stops noFeed noReturn rest
  obtain ⟨takesSuffix, dropsSuffix⟩ :=
    @span_withReturns_of_stops isNumberSuffix rfl rfl (rest.dropWhile digit)
  simp only [numberLexeme, takes, drops, takesSuffix, dropsSuffix]
  exact .same _ _ _

/-- A number has the same mark with returns after it. -/
theorem numeral_withReturns (first : Char) (rest : Text) :
    Returned (numeral first rest) (numeral first rest.withReturns) := by
  by_cases marked : IsMarked first rest
  · obtain ⟨mark, digit, more, rfl, isMarked⟩ := marked
    have noFeed : mark ≠ '\n' ∧ digit ≠ '\n' := by
      constructor
      · rcases isMarked.2.1 with rfl | rfl <;> decide
      · rintro rfl
        exact absurd isMarked.2.2 (by decide)
    rw [Text.withReturns_cons noFeed.1, Text.withReturns_cons noFeed.2, numeral, numeral,
      if_pos isMarked, if_pos isMarked]
    exact numberLexeme_withReturns rfl rfl _ _
  · have decimal : ¬ IsMarked first rest.withReturns := by
      rintro ⟨mark, digit, more, starts, zero, isMark, isHex⟩
      have noReturn : mark ≠ '\r' ∧ digit ≠ '\r' := by
        constructor
        · rcases isMark with rfl | rfl <;> decide
        · rintro rfl
          exact absurd isHex (by decide)
      obtain ⟨-, later, rfl, next⟩ := Text.exists_of_withReturns noReturn.1 starts
      obtain ⟨-, last, rfl, -⟩ := Text.exists_of_withReturns noReturn.2 next
      exact marked ⟨mark, digit, last, rfl, zero, isMark, isHex⟩
    rw [numeral_of_not_isMarked marked, numeral_of_not_isMarked decimal]
    exact numberLexeme_withReturns rfl rfl _ _

theorem Returned.prepend {read again : Lexeme} (returned : Returned read again)
    (noComment : read.1 ≠ .lineComment) (lead : Text) :
    Returned (read.1, lead ++ read.2.1, read.2.2) (again.1, lead ++ again.2.1, again.2.2) := by
  cases returned with
  | same kind text after => exact .same kind _ after
  | @taken kind text takes rest =>
    dsimp only
    rw [← List.append_assoc]
    refine .taken ?_ rest
    exact takes.imp_right (Or.imp_right fun comment => absurd comment.1 noComment)
  | escaped text rest =>
    dsimp only
    rw [← List.append_assoc]
    exact .escaped _ rest

/-- What is read of a literal, as a token. -/
def literal (kind : TokenKind) (read : Text × Text × Bool) : Lexeme :=
  (if read.2.2 then kind else .other, read.1, read.2.1)

theorem literal_ne_lineComment (noComment : kind ≠ .lineComment) (read : Text × Text × Bool) :
    (literal kind read).1 ≠ .lineComment := by
  unfold literal
  dsimp only
  split
  · exact noComment
  · decide

/-- A literal that ends is the same. One that does not takes the return along, after the escape
before it. -/
theorem literalBody_withReturns {quote : Char} (quoted : quote ≠ '\n' ∧ quote ≠ '\r')
    (noComment : kind ≠ .lineComment) (text : Text) :
    Returned (literal kind (literalBody quote text))
      (literal kind (literalBody quote text.withReturns)) := by
  have stops (rest : Text) : literalBody quote ('\n' :: rest) = ([], '\n' :: rest, false) := by
    rw [literalBody_cons, if_neg quoted.1.symm, if_pos rfl]
  fun_induction literalBody quote text with
  | case1 => exact .same _ _ _
  | case2 rest =>
    rw [Text.withReturns_cons quoted.1, literalBody_cons, if_pos rfl]
    exact .same _ _ _
  | case3 rest noQuote =>
    rw [Text.withReturns_feed, literalBody_cons, if_neg quoted.2.symm, if_neg (by decide),
      if_neg (by decide), stops]
    exact .taken (.inr (.inl rfl)) rest
  | case4 noQuote noFeed =>
    rw [Text.withReturns_cons noFeed, literalBody_cons, if_neg noQuote, if_neg noFeed, if_pos rfl]
    exact .same _ _ _
  | case5 more noQuote noFeed =>
    rw [Text.withReturns_cons noFeed, Text.withReturns_feed, literalBody_cons, if_neg noQuote,
      if_neg noFeed, if_pos rfl]
    dsimp only
    rw [if_neg (by decide), stops]
    exact .escaped _ _
  | case6 escaped more noFeed inner later closed read noQuote noOther ih =>
    rw [Text.withReturns_cons noOther, Text.withReturns_cons noFeed, literalBody_cons,
      if_neg noQuote, if_neg noOther, if_pos rfl]
    dsimp only
    rw [if_neg noFeed]
    rw [read] at ih
    exact ih.prepend (literal_ne_lineComment noComment _) ['\\', escaped]
  | case7 char rest noQuote noFeed noEscape inner later closed read ih =>
    rw [Text.withReturns_cons noFeed, literalBody_cons, if_neg noQuote, if_neg noFeed,
      if_neg noEscape]
    rw [read] at ih
    exact ih.prepend (literal_ne_lineComment noComment _) [char]

/-- A token that is none of the others is the same unless it is a block comment. -/
theorem sign_withReturns {read : Lexeme} (found : sign first rest = some read)
    (noBlock : read.1 ≠ .blockComment) :
    ∃ again, sign first rest.withReturns = some again ∧ Returned read again := by
  unfold sign at found
  split at found
  · cases found
    exact ⟨_, rfl, whileLexeme_withReturns rfl (fun _ => Or.inr (Or.inr ⟨rfl, List.prefix_rfl⟩)) _⟩
  · obtain ⟨parts, -, same⟩ := Option.map_eq_some_iff.mp found
    cases same
    exact absurd rfl noBlock
  · cases found
    exact ⟨_, rfl, .same _ _ _⟩
  · rename_i noLine noOpening noColon
    cases found
    refine ⟨_, ?_, .same _ _ _⟩
    have back {char : Char} {more : Text} (ordinary : char ≠ '\r')
        (starts : rest.withReturns = char :: more) : ∃ later, rest = char :: later := by
      obtain ⟨-, later, same, -⟩ := Text.exists_of_withReturns ordinary starts
      exact ⟨later, same⟩
    rw [sign]
    · intro more slash starts
      obtain ⟨later, same⟩ := back (by decide) starts
      exact noLine later slash same
    · intro more slash starts
      obtain ⟨later, same⟩ := back (by decide) starts
      exact noOpening later slash same
    · intro more colon starts
      obtain ⟨later, same⟩ := back (by decide) starts
      exact noColon later colon same

/-- **A token** with returns after it, unless it is a line feed or a block comment. -/
theorem lexeme_withReturns {read : Lexeme} (found : lexeme first rest = some read)
    (noFeed : first ≠ '\n') (noBlock : read.1 ≠ .blockComment) :
    ∃ again, lexeme first rest.withReturns = some again ∧ Returned read again := by
  rw [lexeme_eq] at found ⊢
  by_cases spacing : isSpacing first = true
  · rw [if_pos spacing] at found ⊢
    cases found
    exact ⟨_, rfl, whileLexeme_withReturns rfl (fun _ => Or.inl rfl) _⟩
  rw [if_neg spacing, if_neg noFeed] at found ⊢
  by_cases name : Text.startsIdentifier first = true
  · rw [if_pos name] at found ⊢
    cases found
    exact ⟨_, rfl, whileLexeme_withReturns rfl (fun holds => absurd holds (by decide)) _⟩
  rw [if_neg name] at found ⊢
  by_cases digit : first.isDigit = true
  · rw [if_pos digit] at found ⊢
    cases found
    exact ⟨_, rfl, numeral_withReturns first rest⟩
  rw [if_neg digit] at found ⊢
  by_cases string : first = '"'
  · rw [if_pos string] at found ⊢
    cases found
    have read := @literalBody_withReturns .stringLiteral '"' (by decide) (by decide) rest
    exact ⟨_, rfl, read.prepend (literal_ne_lineComment (by decide) _) ['"']⟩
  rw [if_neg string] at found ⊢
  by_cases char : first = '\''
  · rw [if_pos char] at found ⊢
    cases found
    have read := @literalBody_withReturns .charLiteral '\'' (by decide) (by decide) rest
    exact ⟨_, rfl, read.prepend (literal_ne_lineComment (by decide) _) ['\'']⟩
  rw [if_neg char] at found ⊢
  exact sign_withReturns found noBlock

end Token

/-! ### Comments without the blanks at their ends -/

/-- A redaction that hides places, the blanks at the ends of comments, and the texts that readers do
not look at. -/
def Redaction.trimmed : Redaction where
  text token :=
    if token.kind.isComment then "// ".toList ++ (Tokens.comment token).text.trimEnd
    else if token.kind = .identifier ∨ token.kind = .number then token.text
    else []
  excerpt excerpt := ⟨' ' :: excerpt.text.trimEnd, 2⟩
  text_eq {token} isWord := by
    have noComment : ¬ token.kind.isComment = true := by
      rcases isWord with kind | kind <;> rw [kind] <;> decide
    rw [if_neg noComment, if_pos isWord]
  ofComment_eq isComment := by rw [if_pos isComment, Excerpt.ofComment_spaced]

theorem Redaction.trimmed_keepsMeaning : Redaction.trimmed.KeepsMeaning where
  annotate_agree extractor first second property same := by
    have texts : first.trimEnd.text = second.trimEnd.text :=
      List.tail_eq_of_cons_eq (congrArg Excerpt.text same)
    rw [← Extractor.annotate_trimEnd first, ← Extractor.annotate_trimEnd second]
    exact .of_moved (fun comment => (extractor.annotate comment property).result)
      (fun _ _ => Extractor.annotate_moved _ _) texts
  applyComment_agree {first second} state same := by
    have texts : first.trimEnd.text = second.trimEnd.text :=
      List.tail_eq_of_cons_eq (congrArg Excerpt.text same)
    rw [← Extractor.applyComment_trimEnd state first, ← Extractor.applyComment_trimEnd state second]
    exact .of_moved (fun comment => (Extractor.applyComment state comment).result)
      (fun _ _ => Extractor.applyComment_moved _ _) texts

/-! ### Tokens of a text -/

namespace Token

variable {kind : TokenKind} {text : Text}

/-- A return that a token takes along is hidden. -/
theorem trimmed_of_takesReturn (takes : TakesReturn kind text) (offset start : Nat) :
    Redaction.trimmed.token ⟨kind, text ++ ['\r'], start⟩ =
      Redaction.trimmed.token ⟨kind, text, offset⟩ := by
  rcases takes with rfl | rfl | ⟨rfl, body, rfl⟩
  · rfl
  · rfl
  · have stops : Tag.Stops (· == '/') ['\r'] := Tag.stops_cons (by decide) []
    have bodies : (Excerpt.commentBody ("//".toList ++ body ++ ['\r'])).2 =
        (Excerpt.commentBody ("//".toList ++ body)).2 ++ ['\r'] := by
      rw [List.append_assoc, Excerpt.commentBody, Excerpt.commentBody, Text.after?_append,
        Text.after?_append]
      exact (Text.takeWhile_append_of_stops stops body).2
    have trimmed : Text.trimEnd (Excerpt.commentBody ("//".toList ++ body ++ ['\r'])).2 =
        Text.trimEnd (Excerpt.commentBody ("//".toList ++ body)).2 := by
      rw [bodies]
      exact Text.dropEndWhile_append_of_dropped (List.forall_mem_singleton.mpr rfl) _
    exact congrArg (fun text => (⟨.lineComment, "// ".toList ++ text, 0⟩ : Token)) trimmed

/-- The tokens of the text with returns are its tokens, up to what is hidden. -/
def ReturnsHidden (text : Text) : Prop :=
  ∀ (offset : Nat) (tokens : Tokens), tokensFrom offset text = .ok tokens →
    (∀ token ∈ tokens, token.kind ≠ .blockComment) → ∀ start, ∃ others,
      tokensFrom start text.withReturns = .ok others ∧
        (Redaction.trimmed.tokens others).squeezed = (Redaction.trimmed.tokens tokens).squeezed

namespace ReturnsHidden

variable {first : Char} {rest after : Text}

theorem nil : ReturnsHidden [] := by
  intro offset tokens cut _ start
  rw [tokensFrom] at cut
  cases cut
  refine ⟨[], ?_, rfl⟩
  rw [show Text.withReturns [] = [] from rfl, tokensFrom]

/-- In front of a line feed that no token before it goes up to, the return is a blank. -/
theorem feed (hidden : ReturnsHidden rest) : ReturnsHidden ('\n' :: rest) := by
  intro offset tokens cut plain start
  rw [tokensFrom_cons (lexeme_feed rest)] at cut
  obtain ⟨later, read, rfl⟩ := map_eq_ok_iff.mp cut
  obtain ⟨others, again, same⟩ := hidden _ _ read (List.forall_mem_cons.mp plain).2
    (start + Text.size ['\r'] + Text.size ['\n'])
  have blank : lexeme '\r' ('\n' :: Text.withReturns rest) =
      some (.whitespace, ['\r'], '\n' :: Text.withReturns rest) := rfl
  refine ⟨_, by rw [Text.withReturns_feed, tokensFrom_of_feed blank, again]; rfl, ?_⟩
  exact (Tokens.squeezed_of_blank rfl _).trans (Tokens.squeezed_cons_congr same _)

/-- A token that is the same. -/
theorem same (hidden : ReturnsHidden after) (noFeed : first ≠ '\n')
    (found : lexeme first rest = some (kind, text, after))
    (foundOther : lexeme first rest.withReturns = some (kind, text, after.withReturns)) :
    ReturnsHidden (first :: rest) := by
  intro offset tokens cut plain start
  rw [tokensFrom_cons found] at cut
  obtain ⟨behind, read, rfl⟩ := map_eq_ok_iff.mp cut
  obtain ⟨others, again, same⟩ := hidden _ _ read (List.forall_mem_cons.mp plain).2
    (start + text.size)
  rw [Text.withReturns_cons noFeed]
  refine ⟨_, by rw [tokensFrom_cons foundOther, again]; rfl, ?_⟩
  exact Tokens.squeezed_cons_congr same _

/-- A token that takes the return along. -/
theorem taken (hidden : ReturnsHidden after) (noFeed : first ≠ '\n')
    (takes : TakesReturn kind text) (found : lexeme first rest = some (kind, text, '\n' :: after))
    (foundOther : lexeme first rest.withReturns =
      some (kind, text ++ ['\r'], '\n' :: after.withReturns)) :
    ReturnsHidden (first :: rest) := by
  intro offset tokens cut plain start
  rw [tokensFrom_of_feed found] at cut
  obtain ⟨behind, read, rfl⟩ := map_eq_ok_iff.mp cut
  obtain ⟨others, again, same⟩ := hidden _ _ read
    (List.forall_mem_cons.mp (List.forall_mem_cons.mp plain).2).2 _
  rw [Text.withReturns_cons noFeed]
  refine ⟨_, by rw [tokensFrom_of_feed foundOther, again]; rfl, ?_⟩
  rw [Redaction.tokens_cons, trimmed_of_takesReturn takes offset]
  exact Tokens.squeezed_cons_congr (Tokens.squeezed_cons_congr same _) _

/-- A literal that takes the escape along with the return. The escape is a token of its own only
where no return follows it. -/
theorem escaped (hidden : ReturnsHidden after) (noFeed : first ≠ '\n')
    (found : lexeme first rest = some (.other, text, '\\' :: '\n' :: after))
    (foundOther : lexeme first rest.withReturns =
      some (.other, text ++ ['\\', '\r'], '\n' :: after.withReturns)) :
    ReturnsHidden (first :: rest) := by
  intro offset tokens cut plain start
  have escape : lexeme '\\' ('\n' :: after) = some (.other, ['\\'], '\n' :: after) := rfl
  rw [tokensFrom_cons found, tokensFrom_of_feed escape] at cut
  obtain ⟨_, cutBehind, rfl⟩ := map_eq_ok_iff.mp cut
  obtain ⟨behind, read, rfl⟩ := map_eq_ok_iff.mp cutBehind
  obtain ⟨others, again, same⟩ := hidden _ _ read
    (List.forall_mem_cons.mp (List.forall_mem_cons.mp (List.forall_mem_cons.mp plain).2).2).2 _
  rw [Text.withReturns_cons noFeed]
  refine ⟨_, by rw [tokensFrom_of_feed foundOther, again]; rfl, ?_⟩
  exact (Tokens.squeezed_cons_congr (Tokens.squeezed_cons_congr same _) _).trans
    (Tokens.squeezed_of_others rfl rfl _).symm

end ReturnsHidden

/-- **The returns of a text are hidden**, one token at a time, or two where a token is the last of
its line and takes the return along. -/
theorem returnsHidden (text : Text) : ReturnsHidden text := by
  induction size : text.length using Nat.strong_induction_on generalizing text with
  | _ size ih =>
    cases text with
    | nil => exact .nil
    | cons first rest =>
      by_cases feed : first = '\n'
      · subst feed
        exact (ih rest.length (size ▸ Nat.lt_succ_self _) rest rfl).feed
      intro offset tokens cut plain start
      have read := cut
      rw [tokensFrom] at read
      split at read
      · cases read
      rename_i kind text after found
      obtain ⟨behind, -, rfl⟩ := map_eq_ok_iff.mp read
      have noBlock := (List.forall_mem_cons.mp plain).1
      obtain ⟨other, foundOther, returned⟩ := lexeme_withReturns found feed noBlock
      have shorter := lexeme_shorter found
      rw [size] at shorter
      cases returned with
      | same kind text after =>
        exact (ih _ shorter after rfl).same feed found foundOther _ _ cut plain start
      | @taken _ _ takes rest =>
        have hidden := ih rest.length (by simp at shorter; omega) rest rfl
        exact hidden.taken feed takes found foundOther _ _ cut plain start
      | escaped text rest =>
        have hidden := ih rest.length (by simp at shorter; omega) rest rfl
        exact hidden.escaped feed found foundOther _ _ cut plain start

end Token

namespace Extractor

variable {extractor : Extractor} {source : Text} {tokens : Tokens} {classes : List Class}

/-- **Carriage returns before the line feeds** of a source without block comments change nothing: it
is extracted exactly if it was, and to the same classes. -/
theorem parse_withReturns (cut : Token.tokenize source = .ok tokens)
    (plain : ∀ token ∈ tokens, token.kind ≠ .blockComment) :
    extractor.parse source.withReturns = .ok classes ↔ extractor.parse source = .ok classes := by
  obtain ⟨others, again, same⟩ := Token.returnsHidden source 0 tokens cut plain 0
  refine parse_ok_iff_of_redacted Redaction.trimmed_keepsMeaning again cut ?_
  rw [Outline.ofSource, Outline.ofSource, ← Outline.ofTokens_redacted,
    ← Outline.ofTokens_redacted, ← Outline.ofTokens_squeezed, same, Outline.ofTokens_squeezed]

/-- Lines that end behind an escape in a literal, behind comments and behind a blank. -/
theorem parse_withReturns_lines : ∃ (source : Text) (classes : List Class),
    source = ("'a\\\nenum E // x @@Json\n\x7b \n" ++
      "A // GETSET(int, A) @@NoJson\n\x7d;\n").toList ∧
    source.withReturns = ("'a\\\r\nenum E // x @@Json\r\n\x7b \r\n" ++
      "A // GETSET(int, A) @@NoJson\r\n\x7d;\r\n").toList ∧
    standard.parse source = .ok classes ∧
    classes.map (fun cls => (cls.rawCommand, cls.properties.flatMap Property.rawMacro)) =
      [("x".toList, "GETSET(int, A)".toList)] ∧
    standard.parse source.withReturns = .ok classes := by
  let source : Text := ("'a\\\nenum E // x @@Json\n\x7b \n" ++
    "A // GETSET(int, A) @@NoJson\n\x7d;\n").toList
  obtain ⟨classes, parsed, said⟩ := Option.map_eq_some_iff.mp
    (show (standard.parse source).toOption.map
        (List.map fun cls => (cls.rawCommand, cls.properties.flatMap Property.rawMacro)) =
      some [("x".toList, "GETSET(int, A)".toList)] by decide +kernel)
  obtain ⟨tokens, cut, plain⟩ := Option.map_eq_some_iff.mp
    (show (Token.tokenize source).toOption.map (List.all · (·.kind != .blockComment)) =
      some true by decide +kernel)
  have ran := ok_of_toOption parsed
  refine ⟨source, classes, rfl, by decide, ran, said, ?_⟩
  refine (parse_withReturns (ok_of_toOption cut) fun token member => ?_).mpr ran
  exact bne_iff_ne.mp (List.all_eq_true.mp plain token member)

end Extractor

end Scaffold
