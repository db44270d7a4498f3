/-
**Comments on lines of their own.**

Inside of the braces of an enum, behind a line feed, a line that is nothing but a comment may be
added: readers of a body skip it wherever they are (`Outline.ofTokens_of_trivia`), and what stands
before the line and behind it is cut into the same tokens (`Token.exists_of_ownLine`). So the
source is extracted as before (`Extractor.parse_of_ownLine`).
-/

import Scaffold.Proofs.Extraction.Arrival
import Scaffold.Proofs.Extraction.Cutting
import Scaffold.Proofs.Extraction.Described

namespace Scaffold

/-! ### Trivia in a body -/

namespace Outline

theorem Entered.outline_of_body {entered : Entered} {sourceEnd : Nat} {first second : Tokens}
    (same : body sourceEnd entered.name entered.seen entered.due first =
      body sourceEnd entered.name entered.seen entered.due second) :
    entered.outline sourceEnd first = entered.outline sourceEnd second := by
  unfold outline
  rw [same]

/-- **Trivia behind a line feed** in a body change nothing. -/
theorem ofTokens_of_trivia {sourceEnd count depth : Nat} {scopes : List Scope} {feed : Token}
    {before space after : Tokens} (place : Layout.InBody count (before ++ [feed]))
    (isFeed : feed.kind = .newline) (trivial : ∀ token ∈ space, token.kind.isTrivia = true)
    (complete : (ofTokens sourceEnd scopes depth (before ++ feed :: after)).defect = none) :
    ofTokens sourceEnd scopes depth (before ++ feed :: (space ++ after)) =
      ofTokens sourceEnd scopes depth (before ++ feed :: after) := by
  rcases place.of_concat isFeed with within | ⟨before, hash, line, rfl, within, isHash, others⟩
  · obtain ⟨front, entered, -, arrives⟩ := exists_of_inBody within (Or.inl isFeed) complete
    have isTrivia : feed.kind.isTrivia = true := by rw [isFeed]; rfl
    rw [arrives, arrives, Entered.outline_of_body]
    rw [body_of_trivia isTrivia, body_of_trivia isTrivia, body_of_space trivial]
  · rw [List.append_assoc, List.cons_append] at complete
    obtain ⟨front, entered, -, arrives⟩ :=
      exists_of_inBody within (Or.inr (Or.inr (Or.inr isHash))) complete
    rw [List.append_assoc, List.cons_append, List.append_assoc, List.cons_append, arrives, arrives,
      Entered.outline_of_body]
    rw [body_of_line isHash others isFeed, body_of_line isHash others isFeed, body_of_space trivial]

end Outline

/-! ### The tokens of the line -/

/-- **A comment on a line of its own** is cut into trivia; the other tokens stay. -/
theorem Token.exists_of_ownLine {first second blanks text : Text} {before after : Tokens}
    {feed : Token} (cut : tokenize (first ++ second) = .ok (before ++ feed :: after))
    (whole : Tokens.text (before ++ [feed]) = first) (isFeed : feed.kind = .newline)
    (areBlank : ∀ char ∈ blanks, isSpacing char = true) (noFeed : '\n' ∉ text) :
    ∃ line others, (∀ token ∈ line, token.kind.isTrivia = true) ∧
      tokenize (first ++ (blanks ++ ("//".toList ++ (text ++ '\n' :: second)))) =
        .ok (before ++ feed :: (line ++ others)) ∧
      List.Forall₂ (fun token other => token.kind = other.kind ∧ token.text = other.text)
        after others := by
  obtain ⟨kind, text', offset⟩ := feed
  obtain rfl : Tokens.text before ++ text' = first := by
    rw [← whole, Tokens.text_append, Tokens.text_cons]
    exact congrArg _ (List.append_nil text').symm
  obtain rfl : kind = .newline := isFeed
  rw [tokenize, List.append_assoc] at cut
  obtain ⟨char, taken, rest, split, rfl, rfl, found, read⟩ :=
    exists_of_tokensFrom (tokensFrom_of_append cut rfl)
  obtain ⟨rfl, rfl⟩ : char = '\n' ∧ taken = [] := by
    rcases cases_of_lexeme found with ⟨blank, -⟩ | ⟨-, single⟩ | other
    · cases blank
    · exact List.cons.inj single
    · exact (other (by simp)).elim
  obtain rfl := List.append_cancel_left split
  obtain ⟨space, spacing, -, blankTokens⟩ :=
    exists_spacing_tokens areBlank (0 + Text.size (Tokens.text before) + Text.size ['\n'])
  obtain ⟨comment, end', start, isComment, isEnd, lineTokens⟩ := tokensFrom_line noFeed
    (0 + Text.size (Tokens.text before) + Text.size ['\n'] + blanks.size) second
  obtain ⟨others, again, same⟩ := exists_tokensFrom read start
  refine ⟨space ++ [comment, end'], others, ?_, ?_, same⟩
  · simp only [List.forall_mem_append, List.forall_mem_cons]
    exact ⟨spacing.isTrivia, by rw [isComment]; rfl, by rw [isEnd]; rfl, List.forall_mem_nil _⟩
  · have next : ∀ rest, lexeme '\n' rest = some (.newline, ['\n'], rest) := fun _ => rfl
    have ahead : ∀ other, SameAhead (['\n'] ++ second) ('\n' :: other) :=
      fun other => ⟨List.prefix_rfl, fun marks => by simp at marks⟩
    have slash : Tag.Stops isSpacing ("//".toList ++ (text ++ '\n' :: second)) :=
      Tag.stops_cons rfl _
    rw [tokenize, List.append_assoc, List.cons_append, List.nil_append,
      tokensFrom_append cut rfl (ahead _), tokensFrom_cons (next _),
      blankTokens _ slash, lineTokens, again]
    simp only [Except.map, List.append_assoc]

namespace Extractor

/-- **A comment on a line of its own** inside of the braces of an enum changes nothing. -/
theorem parse_of_ownLine {extractor : Extractor} {first second blanks text : Text}
    {classes : List Class} {count : Nat} {before after : Tokens} {feed : Token}
    (parsed : extractor.parse (first ++ second) = .ok classes)
    (cut : Token.tokenize (first ++ second) = .ok (before ++ feed :: after))
    (whole : Tokens.text (before ++ [feed]) = first) (isFeed : feed.kind = .newline)
    (place : Layout.InBody count (before ++ [feed]))
    (areBlank : ∀ char ∈ blanks, char = ' ' ∨ char = '\t') (noFeed : '\n' ∉ text) :
    extractor.parse (first ++ (blanks ++ ("//".toList ++ (text ++ '\n' :: second)))) =
      .ok classes := by
  have spacing : ∀ char ∈ blanks, Token.isSpacing char = true := by
    intro char among
    rcases areBlank char among with rfl | rfl <;> rfl
  obtain ⟨line, others, trivial, cutOther, same⟩ :=
    Token.exists_of_ownLine cut whole isFeed spacing noFeed
  refine (parse_ok_iff_of_unplaced cutOther cut ?_).mpr parsed
  have complete := ((parse_ok_iff_of_tokenize cut).mp parsed).1
  have texts : Redaction.unplaced.tokens (before ++ feed :: (line ++ others)) =
      Redaction.unplaced.tokens (before ++ feed :: (line ++ after)) := by
    have tail := Tokens.unplaced_eq same
    simp only [Redaction.tokens, List.map_append, List.map_cons] at tail ⊢
    rw [tail]
  rw [Outline.ofSource_unplaced, texts, ← Outline.ofSource_unplaced (first ++ second),
    Outline.ofSource, Outline.ofTokens_of_trivia place isFeed trivial complete]
  rfl

/-- A comment with a brace in it, behind a preprocessor line and before the last member. -/
theorem parse_of_ownLine_directive : ∃ first second before feed after classes,
    first = "enum E\x7bA = 3, // a\n#if X\n".toList ∧ second = "B\x7d;".toList ∧
    standard.parse (first ++ second) = .ok classes ∧
    classes.map (fun cls => cls.properties.map Property.entry) =
      [[("A".toList, 3), ("B".toList, 4)]] ∧
    Token.tokenize (first ++ second) = .ok (before ++ feed :: after) ∧
    Layout.InBody 0 (before ++ [feed]) ∧
    standard.parse (first ++
      (" \t".toList ++ ("//".toList ++ ("\x7d, C = 1".toList ++ '\n' :: second)))) =
      .ok classes := by
  obtain ⟨classes, parsed, entries⟩ := Option.map_eq_some_iff.mp
    (show (standard.parse
        ("enum E\x7bA = 3, // a\n#if X\n".toList ++ "B\x7d;".toList)).toOption.map
        (List.map fun cls => cls.properties.map Property.entry) =
      some [[("A".toList, 3), ("B".toList, 4)]] by decide +kernel)
  have ran := ok_of_toOption parsed
  obtain ⟨before, feed, after, cut, whole, isFeed, place⟩ : ∃ before feed after,
      Token.tokenize ("enum E\x7bA = 3, // a\n#if X\n".toList ++ "B\x7d;".toList) =
        .ok (before ++ feed :: after) ∧
      Tokens.text (before ++ [feed]) = "enum E\x7bA = 3, // a\n#if X\n".toList ∧
      feed.kind = .newline ∧ Layout.InBody 0 (before ++ [feed]) :=
    ⟨[⟨.identifier, "enum".toList, 0⟩, ⟨.whitespace, " ".toList, 4⟩,
        ⟨.identifier, "E".toList, 5⟩, ⟨.openBrace, "\x7b".toList, 6⟩,
        ⟨.identifier, "A".toList, 7⟩, ⟨.whitespace, " ".toList, 8⟩, ⟨.equals, "=".toList, 9⟩,
        ⟨.whitespace, " ".toList, 10⟩, ⟨.number, "3".toList, 11⟩, ⟨.comma, ",".toList, 12⟩,
        ⟨.whitespace, " ".toList, 13⟩, ⟨.lineComment, "// a".toList, 14⟩,
        ⟨.newline, "\n".toList, 18⟩, ⟨.hash, "#".toList, 19⟩, ⟨.identifier, "if".toList, 20⟩,
        ⟨.whitespace, " ".toList, 22⟩, ⟨.identifier, "X".toList, 23⟩],
      ⟨.newline, "\n".toList, 24⟩,
      [⟨.identifier, "B".toList, 25⟩, ⟨.closeBrace, "\x7d".toList, 26⟩,
        ⟨.semicolon, ";".toList, 27⟩],
      by decide +kernel, by decide, rfl,
      .first (by decide) rfl rfl (by decide) (by decide) rfl
        (.append (@Layout.Inside.of_isInner [_, _, _, _, _, _, _, _, _] (by decide))
          (@Layout.Inside.line _ _ [_, _, _] [] rfl (by decide) rfl .nil))⟩
  exact ⟨_, _, before, feed, after, classes, rfl, rfl, ran, entries, cut, place,
    parse_of_ownLine ran cut whole isFeed place
      (List.forall_mem_cons.mpr ⟨Or.inl rfl, List.forall_mem_singleton.mpr (Or.inr rfl)⟩)
      (by decide)⟩

end Extractor

end Scaffold
