/-
**Reading an excerpt from the front.**

What a reader of comments makes of an excerpt that starts with what it looks for, and what it leaves
of it:

* `identifier?_append`: an identifier, up to a character that does not continue it;
* `skipBlanks_append`: blanks, up to a character that is none;
* `takeUntilAttribute_of_parts`: free text, up to a marker that does not start with its end;
* `leading_append`: a keyword with an opening parenthesis after it;
* `Nesting.IsClosing.step`: a group, which ends with a closer;
* `attributeAfter_eq_ok_iff`: an attribute, by its name, its payload and its text.
-/

import Scaffold.Proofs.Extraction.Closed
import Scaffold.Proofs.Extraction.Description
import Scaffold.Proofs.Tag.Grammar

namespace Scaffold

open Tag (Stops stops_cons)

namespace Text

/-- A character that starts an identifier is no blank. -/
theorem isBlank_of_startsIdentifier {char : Char} (starts : startsIdentifier char = true) :
    isBlank char = false := by
  rw [startsIdentifier, Bool.or_eq_true, beq_iff_eq] at starts
  rcases starts with letter | rfl
  · rcases Bool.or_eq_true_iff.mp (letter : (char.isUpper || char.isLower) = true) with upper | lower
    · have bounds : 65 ≤ char.toNat ∧ char.toNat ≤ 90 := of_decide_eq_true upper
      simp only [isBlank]
      grind
    · have bounds : 97 ≤ char.toNat ∧ char.toNat ≤ 122 := by
        have both := Bool.and_eq_true_iff.mp lower
        exact ⟨of_decide_eq_true both.1, of_decide_eq_true both.2⟩
      simp only [isBlank]
      grind
  · decide

/-- A blank does not continue an identifier. -/
theorem continuesIdentifier_of_isBlank {char : Char} (blank : isBlank char = true) :
    continuesIdentifier char = false := by
  have noStart : startsIdentifier char = false := Bool.eq_false_iff.mpr fun starts =>
    Bool.false_ne_true ((isBlank_of_startsIdentifier starts).symm.trans blank)
  have noDigit : char.isDigit = false := by
    refine Bool.eq_false_iff.mpr fun digit => ?_
    have bounds : 48 ≤ char.toNat ∧ char.toNat ≤ 57 := by
      have both := Bool.and_eq_true_iff.mp digit
      exact ⟨of_decide_eq_true both.1, of_decide_eq_true both.2⟩
    simp only [isBlank] at blank
    grind
  obtain ⟨noLetter, noUnderscore⟩ := Bool.or_eq_false_iff.mp noStart
  rw [continuesIdentifier, Char.isAlphanum, noLetter, noDigit, noUnderscore]
  rfl

/-- An identifier is read up to a character that does not continue it. -/
theorem identifier_append_of_stops {word rest : Text} (isWord : isIdentifier word = true)
    (stops : Stops continuesIdentifier rest) : identifier (word ++ rest) = (word, rest) := by
  cases word with
  | nil => cases isWord
  | cons first more =>
    rw [isIdentifier, Bool.and_eq_true, List.all_eq_true] at isWord
    obtain ⟨taken, dropped⟩ :=
      Tag.takeWhile_eq_and_dropWhile_eq_iff.mpr ⟨(rfl : more ++ rest = _), isWord.2, stops⟩
    rw [List.cons_append, identifier, if_pos isWord.1, taken, dropped]

/-- An identifier starts with its first character. -/
theorem exists_cons_of_isIdentifier {word : Text} (isWord : isIdentifier word = true) :
    ∃ first more, word = first :: more ∧ startsIdentifier first = true := by
  cases word with
  | nil => cases isWord
  | cons first more =>
    rw [isIdentifier, Bool.and_eq_true] at isWord
    exact ⟨first, more, rfl, isWord.1⟩

/-- An identifier does not start with a blank. -/
theorem stops_of_isIdentifier {word : Text} (isWord : isIdentifier word = true) (rest : Text) :
    Stops isBlank (word ++ rest) := by
  obtain ⟨first, more, rfl, starts⟩ := exists_cons_of_isIdentifier isWord
  exact stops_cons (isBlank_of_startsIdentifier starts) _

/-- A word ends before a character that it does not have. -/
theorem prefix_of_prefix_append {word text rest : Text} {char : Char} (apart : char ∉ word)
    (leads : word <+: text ++ char :: rest) : word <+: text := by
  rcases List.prefix_or_prefix_of_prefix leads (List.prefix_append text _) with inside | beyond
  · exact inside
  · obtain ⟨more, rfl⟩ := beyond
    rw [List.prefix_append_right_inj] at leads
    cases more with
    | nil => rw [List.append_nil]
    | cons first others =>
      obtain ⟨rfl, -⟩ := List.cons_prefix_cons.mp leads
      exact absurd (List.mem_append_right text List.mem_cons_self) apart

/-- The first occurrence of a word is the one after a text without it, with a character between them
that the word does not have. -/
theorem splitAtFirst_append_of_absent {text needle : Text} {char : Char} (apart : char ∉ needle)
    (absent : ¬ needle <:+: text) (rest : Text) :
    splitAtFirst (text ++ char :: (needle ++ rest)) needle =
      (text ++ [char], needle ++ rest) := by
  have filled : needle ≠ [] := by
    rintro rfl
    exact absent List.nil_infix
  induction text with
  | nil =>
    have noPrefix : ¬ needle.isPrefixOf (char :: (needle ++ rest)) = true := fun leads =>
      absent (prefix_of_prefix_append apart (List.isPrefixOf_iff_prefix.mp leads)).isInfix
    have here : splitAtFirst (needle ++ rest) needle = ([], needle ++ rest) := by
      have leads : needle.isPrefixOf (needle ++ rest) = true :=
        List.isPrefixOf_iff_prefix.mpr (List.prefix_append needle rest)
      obtain ⟨first, others, split⟩ := List.exists_cons_of_ne_nil filled
      rw [split] at leads ⊢
      exact if_pos leads
    rw [List.nil_append, splitAtFirst, if_neg noPrefix, here]
    rfl
  | cons first more ih =>
    have noPrefix : ¬ needle.isPrefixOf (first :: (more ++ char :: (needle ++ rest))) = true :=
      fun leads => absent
        (prefix_of_prefix_append apart (List.isPrefixOf_iff_prefix.mp leads)).isInfix
    have later := ih fun inside => absent (List.infix_cons inside)
    rw [List.cons_append, splitAtFirst, if_neg noPrefix, later]
    rfl

end Text

namespace Excerpt

variable {word rest : Text}

theorem identifier?_append (isWord : Text.isIdentifier word = true)
    (stops : Stops Text.continuesIdentifier rest) (offset : Nat) :
    identifier? ⟨word ++ rest, offset⟩ = some (word, ⟨rest, offset + word.size⟩) := by
  obtain ⟨first, more, rfl, -⟩ := Text.exists_cons_of_isIdentifier isWord
  rw [identifier?]
  dsimp only
  rw [Text.identifier_append_of_stops isWord stops, if_neg (List.cons_ne_nil _ _)]
  rfl

theorem skipBlanks_append {blanks : Text} (blank : ∀ char ∈ blanks, Text.isBlank char = true)
    (stops : Stops Text.isBlank rest) (offset : Nat) :
    skipBlanks ⟨blanks ++ rest, offset⟩ = ⟨rest, offset + blanks.size⟩ := by
  obtain ⟨taken, dropped⟩ :=
    Tag.takeWhile_eq_and_dropWhile_eq_iff.mpr ⟨(rfl : blanks ++ rest = _), blank, stops⟩
  rw [skipBlanks, skip, Text.trimStart]
  dsimp only
  rw [taken, dropped]

/-- The free text ends where the next marker starts, or at the end of the comment. -/
structure Parts (text rest : Text) : Prop where
  unmarked : ¬ attributeMarker <:+: text
  /-- No marker starts with the end of the text. -/
  apart : rest ≠ [] → ∀ char ∈ text.getLast?, char ∉ attributeMarker
  marked : rest ≠ [] → attributeMarker <+: rest

namespace Parts

variable {text rest : Text}

theorem of_suffix {trail : Text} (parts : Parts text rest) (suffix : trail <:+ text) :
    Parts trail rest where
  unmarked inside := parts.unmarked (inside.trans suffix.isInfix)
  apart filled char last := by
    obtain ⟨before, rfl⟩ := suffix
    refine parts.apart filled char ?_
    rw [List.getLast?_append, Option.mem_def.mp last]
    rfl
  marked := parts.marked

/-- Characters that no marker has may stand before the text. -/
theorem prepend {lead : Text} (parts : Parts text rest)
    (other : ∀ char ∈ lead, char ∉ attributeMarker) : Parts (lead ++ text) rest where
  unmarked inside := by
    induction lead with
    | nil => exact parts.unmarked inside
    | cons char lead ih =>
      obtain ⟨noMarker, others⟩ := List.forall_mem_cons.mp other
      rcases List.infix_cons_iff.mp inside with starts | later
      · obtain ⟨rfl, -⟩ := List.cons_prefix_cons.mp starts
        exact noMarker List.mem_cons_self
      · exact ih others later
  apart filled char last := by
    rw [List.getLast?_append] at last
    cases ends : text.getLast? with
    | some found =>
      rw [ends] at last
      cases last
      exact parts.apart filled char ends
    | none =>
      rw [ends] at last
      exact other char (List.mem_of_getLast? last)
  marked := parts.marked

/-- What follows the text starts with a marker. -/
theorem head?_eq {char : Char} (parts : Parts text rest) (starts : rest.head? = some char) :
    char = '@' := by
  have filled : rest ≠ [] := by
    rintro rfl
    cases starts
  obtain ⟨more, rfl⟩ := parts.marked filled
  cases starts
  rfl

/-- What follows the text does not start with a blank. -/
theorem stops (parts : Parts text rest) : Stops Text.isBlank rest := by
  intro char starts
  rw [parts.head?_eq starts]
  decide

end Parts

/-- **Free text ends** where the next marker starts. -/
theorem takeUntilAttribute_of_parts {text rest : Text} (parts : Parts text rest) (offset : Nat) :
    takeUntilAttribute ⟨text ++ rest, offset⟩ = (text, ⟨rest, offset + text.size⟩) := by
  have split : (text ++ rest).splitAtFirst attributeMarker = (text, rest) := by
    by_cases ended : rest = []
    · rw [ended, List.append_nil]
      exact Text.splitAtFirst_of_absent parts.unmarked
    · obtain ⟨more, rfl⟩ := parts.marked ended
      rcases List.eq_nil_or_concat' text with rfl | ⟨before, last, rfl⟩
      · rfl
      · have noMarker : last ∉ attributeMarker := parts.apart ended last (by simp)
        have absent : ¬ attributeMarker <:+: before := fun inside =>
          parts.unmarked (inside.trans (List.prefix_append before [last]).isInfix)
        have found := Text.splitAtFirst_append_of_absent noMarker absent more
        rwa [List.append_cons] at found
  rw [takeUntilAttribute]
  dsimp only
  rw [split]
  rfl

/-- **An invocation** is a keyword with a parenthesis right after it. -/
theorem leading_append (isWord : Text.isIdentifier word = true) (offset : Nat) :
    leading ⟨word ++ '(' :: rest, offset⟩ = .invocation word := by
  have identified : Text.identifier (word ++ '(' :: rest) = (word, '(' :: rest) :=
    Text.identifier_append_of_stops isWord (stops_cons (by decide) rest)
  obtain ⟨first, more, rfl, starts⟩ := Text.exists_cons_of_isIdentifier isWord
  have unmarked : ¬ attributeMarker.isPrefixOf (first :: more ++ '(' :: rest) = true := by
    rw [List.isPrefixOf_iff_prefix]
    intro leads
    obtain ⟨rfl, -⟩ := List.cons_prefix_cons.mp leads
    exact absurd starts (by decide)
  have filled : first :: more ++ '(' :: rest ≠ [] := List.cons_ne_nil _ _
  rw [leading]
  dsimp only
  rw [if_neg filled, if_neg unmarked, identified, if_pos ⟨List.cons_ne_nil _ _, rfl⟩]

/-- A keyword that starts an excerpt has its parenthesis right after it. -/
theorem exists_of_leading {excerpt : Excerpt} (leads : excerpt.leading = .invocation word) :
    ∃ rest, excerpt.text = word ++ '(' :: rest := by
  unfold leading at leads
  split at leads
  · cases leads
  split at leads
  · cases leads
  dsimp only at leads
  split at leads
  · rename_i isInvocation
    cases leads
    have whole := Text.identifier_append excerpt.text
    rw [List.eq_cons_of_mem_head? isInvocation.2] at whole
    exact ⟨_, whole.symm⟩
  · cases leads

/-! ### Groups -/

namespace Nesting

variable {quotes : List Char} {state next : Nesting} {char : Char}

/-- The scan waits for closers. -/
def IsClosing (state : Nesting) : Prop := ∀ closer ∈ state.closers, closer ∈ [')', '\x7d', ']']

theorem isClosing_outside : outside.IsClosing := List.forall_mem_nil _

theorem mem_of_closerOf? {opener closer : Char} (found : closerOf? opener = some closer) :
    closer ∈ [')', '\x7d', ']'] := by
  unfold closerOf? at found
  split at found <;> cases found <;> decide

theorem closers_stepLiteral (state : Nesting) (quote char : Char) :
    (state.stepLiteral quote char).closers = state.closers := by
  rw [stepLiteral]
  split
  · rfl
  split
  · rfl
  split <;> rfl

/-- A scan that goes on waits for closers, too. -/
theorem IsClosing.step (isClosing : state.IsClosing)
    (goesOn : state.step quotes char = .inside next) : next.IsClosing := by
  unfold Nesting.step at goesOn
  split at goesOn
  · cases goesOn
    rw [IsClosing, closers_stepLiteral]
    exact isClosing
  split at goesOn
  · cases goesOn
    exact isClosing
  split at goesOn
  · rename_i opens
    cases goesOn
    exact List.forall_mem_cons.mpr ⟨mem_of_closerOf? opens, isClosing⟩
  split at goesOn
  · cases goesOn
  · rename_i expected outer waits
    rw [IsClosing, waits] at isClosing
    split at goesOn
    · split at goesOn
      · cases goesOn
      · cases goesOn
        exact (List.forall_mem_cons.mp isClosing).2
    · cases goesOn
      rw [IsClosing, waits]
      exact isClosing

/-- A scan ends with a closer that it waits for. -/
theorem mem_closers_of_ended (ends : state.step quotes char = .ended) : char ∈ state.closers := by
  rw [(eq_of_ended ends).2]
  exact List.mem_singleton_self char

end Nesting

end Excerpt

theorem Extractor.exists_of_invoked? {extractor : Extractor} {comment : Excerpt} {keyword : Text}
    {type : MacroType} (invoked : extractor.invoked? comment = some (keyword, type)) :
    ∃ rest, comment.text = keyword ++ '(' :: rest := by
  unfold invoked? at invoked
  split at invoked
  · rename_i found leads
    obtain ⟨_, -, same⟩ := Option.map_eq_some_iff.mp invoked
    cases same
    exact Excerpt.exists_of_leading leads
  · cases invoked

namespace Remark

variable {excerpt later : Excerpt} {name : Text}

/-- A payload is a group that is an object. -/
theorem payload_eq_ok_iff {object : Json.Members} :
    payload name excerpt = .ok (object, later) ↔
      ∃ literal rest, Excerpt.groupFrom payloadQuotes .outside excerpt.text = some (literal, rest) ∧
        Json.parse literal = .ok (.object object) ∧ later = excerpt.skip literal rest := by
  unfold payload Excerpt.balanced?
  constructor
  · intro read
    split at read
    · cases read
    · rename_i balanced
      obtain ⟨⟨literal, rest⟩, grouped, same⟩ := Option.map_eq_some_iff.mp balanced
      cases same
      split at read
      · rename_i parsed
        cases read
        exact ⟨literal, rest, grouped, parsed, rfl⟩
      · cases read
      · cases read
  · rintro ⟨literal, rest, grouped, parsed, rfl⟩
    rw [grouped, Option.map_some]
    dsimp only
    rw [parsed]

/-- A payload is read where a brace is. -/
theorem payload?_eq_ok_iff {members : Option Json.Members} :
    payload? name excerpt = .ok (members, later) ↔
      (excerpt.text.head? = some '\x7b' ∧
        ∃ object, payload name excerpt = .ok (object, later) ∧ some object = members) ∨
      excerpt.text.head? ≠ some '\x7b' ∧ members = none ∧ later = excerpt := by
  unfold payload?
  split
  · rename_i brace
    rw [map_eq_ok_iff]
    constructor
    · rintro ⟨⟨object, after⟩, read, same⟩
      cases same
      exact Or.inl ⟨brace, object, read, rfl⟩
    · rintro (⟨-, object, read, rfl⟩ | ⟨noBrace, -⟩)
      · exact ⟨_, read, rfl⟩
      · exact absurd brace noBrace
  · rename_i noBrace
    constructor
    · intro same
      cases same
      exact Or.inr ⟨noBrace, rfl, rfl⟩
    · rintro (⟨brace, -⟩ | ⟨-, rfl, rfl⟩)
      · exact absurd brace noBrace
      · rfl

/-- **An attribute** is a name, then a payload if there is one, and then free text. -/
theorem attributeAfter_eq_ok_iff {marker : Nat} {item : Attribute} :
    attributeAfter marker excerpt = .ok (item, later) ↔
      ∃ name named members after, excerpt.identifier? = some (name, named) ∧
        payload? name named.skipBlanks = .ok (members, after) ∧
        item = ⟨name, marker, members, after.takeUntilAttribute.1.trim⟩ ∧
        later = after.takeUntilAttribute.2 := by
  unfold attributeAfter
  constructor
  · intro read
    split at read
    · cases read
    · rename_i name named identified
      obtain ⟨⟨members, after⟩, readPayload, same⟩ := map_eq_ok_iff.mp read
      cases same
      exact ⟨name, named, members, after, identified, readPayload, rfl, rfl⟩
  · rintro ⟨name, named, members, after, identified, readPayload, rfl, rfl⟩
    rw [identified]
    exact map_eq_ok_iff.mpr ⟨_, readPayload, rfl⟩

end Remark

end Scaffold
