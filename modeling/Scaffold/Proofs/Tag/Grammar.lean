/-
**The grammar of tags.**

Tags are read from left to right, each part as far as it goes. For every part this says what a text
looks like that it was read from, and that such a text is read in the same way whatever comes after
it, as long as that does not continue it (`Stops`):

* `readWord?_eq_some_iff`, `readName?_of_isQualified`: words and names;
* `readPair?_eq_some_iff`, `readPairs_eq_iff`: attributes (`WritesPair`, `WritesPairs`);
* `readOpening?_eq_some_iff`, `readClosing?_eq_some_iff`: tags, up to the end of the line.
-/

import Mathlib.Data.List.TakeWhile
import Scaffold.Proofs.Tag.Reading

namespace Scaffold.Tag

/-! ### Blanks and stops -/

theorem isInlineBlank_iff {char : Char} :
    Text.isInlineBlank char = true ↔ char = ' ' ∨ char = '\t' := by
  rw [Text.isInlineBlank, Bool.or_eq_true, beq_iff_eq, beq_iff_eq]

/-- The text is made of spaces and tabs. -/
def IsInline (text : Text) : Prop := ∀ char ∈ text, Text.isInlineBlank char = true

/-- A text does not start with a character that satisfies `more`. -/
def Stops (more : Char → Bool) (text : Text) : Prop := ∀ char ∈ text.head?, more char = false

theorem Stops.dropWhile_eq {more : Char → Bool} {text : Text} (stops : Stops more text) :
    text.dropWhile more = text := by
  cases text with
  | nil => rfl
  | cons char rest => exact List.dropWhile_cons_of_neg (by simp [stops char rfl])

theorem Stops.takeWhile_eq {more : Char → Bool} {text : Text} (stops : Stops more text) :
    text.takeWhile more = [] := by
  cases text with
  | nil => rfl
  | cons char rest => exact List.takeWhile_cons_of_neg (by simp [stops char rfl])

theorem stops_dropWhile (more : Char → Bool) (text : Text) : Stops more (text.dropWhile more) := by
  intro char member
  exact Bool.eq_false_iff.mpr fun holds => by
    have := List.head?_dropWhile_not more text
    rw [Option.mem_def.mp member] at this
    simp [holds] at this

/-- A first part that satisfies `more` throughout, and a rest that stops there. -/
theorem takeWhile_eq_and_dropWhile_eq_iff {more : Char → Bool} {text first rest : Text} :
    text.takeWhile more = first ∧ text.dropWhile more = rest ↔
      text = first ++ rest ∧ (∀ char ∈ first, more char = true) ∧ Stops more rest := by
  constructor
  · rintro ⟨rfl, rfl⟩
    exact ⟨List.takeWhile_append_dropWhile.symm, fun _ member => List.mem_takeWhile_imp member,
      stops_dropWhile more text⟩
  · rintro ⟨rfl, holds, stops⟩
    rw [List.takeWhile_append_of_pos holds, List.dropWhile_append_of_pos holds,
      stops.takeWhile_eq, stops.dropWhile_eq, List.append_nil]
    exact ⟨rfl, rfl⟩

theorem skipInline_append {blanks : Text} (inline : IsInline blanks) (rest : Text) :
    skipInline (blanks ++ rest) = skipInline rest :=
  List.dropWhile_append_of_pos inline

theorem skipInline_eq_self {text : Text} (stops : Stops Text.isInlineBlank text) :
    skipInline text = text :=
  stops.dropWhile_eq

/-- A text is blanks and what is left once they are skipped. -/
theorem skipInline_eq_iff {text rest : Text} :
    skipInline text = rest ↔
      ∃ blanks, text = blanks ++ rest ∧ IsInline blanks ∧ Stops Text.isInlineBlank rest := by
  constructor
  · rintro same
    exact ⟨_, takeWhile_eq_and_dropWhile_eq_iff.mp ⟨rfl, same⟩⟩
  · rintro ⟨blanks, rfl, inline, stops⟩
    rw [skipInline_append inline, skipInline_eq_self stops]

theorem stops_cons {more : Char → Bool} {char : Char} (apart : more char = false) (rest : Text) :
    Stops more (char :: rest) := by
  intro other member
  cases member
  exact apart

theorem Stops.append {more : Char → Bool} {first second : Text} (stopsFirst : Stops more first)
    (stopsSecond : Stops more second) : Stops more (first ++ second) := by
  cases first with
  | nil => exact stopsSecond
  | cons char rest => exact stops_cons (stopsFirst char rfl) _

theorem Stops.append_of_ne_nil {more : Char → Bool} {first : Text} (stops : Stops more first)
    (filled : first ≠ []) (rest : Text) : Stops more (first ++ rest) := by
  obtain ⟨char, after, rfl⟩ := List.exists_cons_of_ne_nil filled
  exact stops_cons (stops char rfl) _

theorem Stops.of_append {more : Char → Bool} {first second : Text}
    (stops : Stops more (first ++ second)) : Stops more first := by
  intro char member
  refine stops char ?_
  rw [List.head?_append, Option.mem_def.mp member]
  rfl

/-- Blanks do not continue anything that neither kind of blank continues. -/
theorem IsInline.stops {more : Char → Bool} {blanks : Text} (inline : IsInline blanks)
    (filled : blanks ≠ []) (space : more ' ' = false) (tab : more '\t' = false) (rest : Text) :
    Stops more (blanks ++ rest) := by
  obtain ⟨char, after, rfl⟩ := List.exists_cons_of_ne_nil filled
  rcases isInlineBlank_iff.mp (inline char List.mem_cons_self) with rfl | rfl
  · exact stops_cons space _
  · exact stops_cons tab _

/-- The same where there may be no blanks. -/
theorem IsInline.stops_append {more : Char → Bool} {blanks rest : Text} (inline : IsInline blanks)
    (space : more ' ' = false) (tab : more '\t' = false) (stops : Stops more rest) :
    Stops more (blanks ++ rest) := by
  by_cases none : blanks = []
  · rw [none, List.nil_append]
    exact stops
  · exact inline.stops none space tab rest

theorem expect?_eq_some_iff {char : Char} {text rest : Text} :
    expect? char text = some rest ↔ text = char :: rest := by
  cases text with
  | nil => simp [expect?]
  | cons first after =>
    rw [expect?, List.cons.injEq]
    split
    · rename_i same
      rw [Option.some.injEq]
      exact (and_iff_right same).symm
    · rename_i different
      exact iff_of_false (Option.some_ne_none rest).symm fun both => different both.1

theorem expect?_cons (char : Char) (rest : Text) : expect? char (char :: rest) = some rest :=
  expect?_eq_some_iff.mpr rfl

/-! ### Words and names -/

/-- A first character of an identifier, and after it characters that satisfy `more`. -/
def IsWord (more : Char → Bool) : Text → Prop
  | [] => False
  | first :: rest => Text.startsIdentifier first = true ∧ ∀ char ∈ rest, more char = true

/-- A character that starts an identifier is no blank. -/
theorem isInlineBlank_of_startsIdentifier {char : Char}
    (starts : Text.startsIdentifier char = true) : Text.isInlineBlank char = false := by
  refine Bool.eq_false_iff.mpr fun blank => ?_
  rcases isInlineBlank_iff.mp blank with rfl | rfl <;> exact absurd starts (by decide)

theorem IsWord.stops_append {more : Char → Bool} {word : Text} (isWord : IsWord more word)
    (rest : Text) : Stops Text.isInlineBlank (word ++ rest) := by
  cases word with
  | nil => exact isWord.elim
  | cons first after => exact stops_cons (isInlineBlank_of_startsIdentifier isWord.1) _

/-- **A word is read as far as it goes.** -/
theorem readWord?_eq_some_iff {more : Char → Bool} {text word rest : Text} :
    readWord? more text = some (word, rest) ↔
      text = word ++ rest ∧ IsWord more word ∧ Stops more rest := by
  cases text with
  | nil =>
    refine ⟨nofun, ?_⟩
    rintro ⟨none, isWord, _⟩
    rw [(List.append_eq_nil_iff.mp none.symm).1] at isWord
    exact isWord.elim
  | cons first after =>
    rw [readWord?]
    constructor
    · intro read
      split at read
      · rename_i starts
        cases read
        obtain ⟨split, holds, stops⟩ := takeWhile_eq_and_dropWhile_eq_iff.mp
          ⟨(rfl : after.takeWhile more = _), (rfl : after.dropWhile more = _)⟩
        exact ⟨congrArg (first :: ·) split, ⟨starts, holds⟩, stops⟩
      · cases read
    · rintro ⟨split, isWord, stops⟩
      cases word with
      | nil => exact isWord.elim
      | cons start continued =>
        obtain ⟨rfl, same⟩ := List.cons.inj split
        obtain ⟨taken, dropped⟩ :=
          takeWhile_eq_and_dropWhile_eq_iff.mpr ⟨same, isWord.2, stops⟩
        rw [if_pos isWord.1, taken, dropped]

/-- One word, or two with a colon between them. -/
def IsQualified (name : Text) : Prop :=
  IsWord continuesName name ∨ ∃ space item, name = space ++ ':' :: item ∧
    IsWord continuesName space ∧ IsWord continuesName item

/-- What does not continue a key does not continue a name, and no second word follows. -/
theorem Stops.endsName {rest : Text} (stops : Stops continuesKey rest) :
    Stops continuesName rest ∧ rest.head? ≠ some ':' := by
  constructor
  · intro char member
    exact (Bool.or_eq_false_iff.mp (stops char member)).1
  · intro colon
    exact absurd (stops ':' colon) (by decide)

/-- A name of one word is read in front of a text that does not continue it. -/
theorem readName?_word {word rest : Text} (isWord : IsWord continuesName word)
    (stops : Stops continuesKey rest) : readName? (word ++ rest) = some (word, rest) := by
  obtain ⟨stopsWord, apart⟩ := stops.endsName
  rw [readName?, readWord?_eq_some_iff.mpr ⟨rfl, isWord, stopsWord⟩, Option.map_some]
  split
  · rename_i later same
    change rest = ':' :: later at same
    rw [same] at apart
    exact absurd rfl apart
  · rfl

/-- A name of two words is read in front of a text that does not continue it. -/
theorem readName?_two_words {space item rest : Text} (isSpace : IsWord continuesName space)
    (isItem : IsWord continuesName item) (stops : Stops continuesKey rest) :
    readName? (space ++ ':' :: item ++ rest) = some (space ++ ':' :: item, rest) := by
  have colon : Stops continuesName (':' :: (item ++ rest)) := stops_cons (by decide) _
  rw [List.append_assoc, List.cons_append, readName?,
    readWord?_eq_some_iff.mpr ⟨rfl, isSpace, colon⟩, Option.map_some]
  simp only [readWord?_eq_some_iff.mpr ⟨rfl, isItem, stops.endsName.1⟩]

/-- What is read as a name is one. -/
theorem isQualified_of_readName? {text name rest : Text}
    (read : readName? text = some (name, rest)) : IsQualified name := by
  rw [readName?, Option.map_eq_some_iff] at read
  obtain ⟨⟨first, after⟩, readFirst, same⟩ := read
  obtain ⟨_, isFirst, _⟩ := readWord?_eq_some_iff.mp readFirst
  simp only at same
  split at same
  · split at same
    · rename_i second readSecond
      cases same
      obtain ⟨_, isSecond, _⟩ :=
        readWord?_eq_some_iff.mp (readSecond : _ = some (second.1, second.2))
      exact Or.inr ⟨first, second.1, rfl, isFirst, isSecond⟩
    · cases same
      exact Or.inl isFirst
  · cases same
    exact Or.inl isFirst

/-- **A name is read in front of any text** that does not continue it. -/
theorem readName?_of_isQualified {name rest : Text} (qualified : IsQualified name)
    (stops : Stops continuesKey rest) : readName? (name ++ rest) = some (name, rest) := by
  rcases qualified with isWord | ⟨space, item, rfl, isSpace, isItem⟩
  · exact readName?_word isWord stops
  · exact readName?_two_words isSpace isItem stops

theorem isName_iff {name : Text} : isName name = true ↔ IsQualified name := by
  rw [isName]
  constructor
  · intro named
    split at named
    · rename_i found read
      have whole := readName?_append read
      rw [List.append_nil] at whole
      exact whole ▸ isQualified_of_readName? read
    · cases named
  · intro qualified
    have read : readName? (name ++ []) = some (name, []) :=
      readName?_of_isQualified qualified nofun
    rw [List.append_nil] at read
    rw [read]

/-- No line feed stands in a word. -/
theorem IsWord.newline_not_mem {more : Char → Bool} {word : Text} (isWord : IsWord more word)
    (apart : more '\n' = false) : '\n' ∉ word := by
  cases word with
  | nil => exact isWord.elim
  | cons first rest =>
    rw [List.mem_cons, not_or]
    refine ⟨fun same => ?_, fun member => ?_⟩
    · have starts := isWord.1
      rw [← same] at starts
      exact absurd starts (by decide)
    · rw [isWord.2 _ member] at apart
      cases apart

theorem IsQualified.newline_not_mem {name : Text} (qualified : IsQualified name) :
    '\n' ∉ name := by
  rcases qualified with isWord | ⟨space, item, rfl, isSpace, isItem⟩
  · exact isWord.newline_not_mem (by decide)
  · have absentSpace := isSpace.newline_not_mem (by decide)
    have absentItem := isItem.newline_not_mem (by decide)
    simp [absentSpace, absentItem]

/-! ### Attributes -/

/-- The text of an attribute, after blanks that stand before it. -/
inductive WritesPair (blanks key value : Text) : Text → Prop
  | mk {left right : Text} (filled : blanks ≠ []) (inline : IsInline blanks)
      (isKey : IsWord continuesKey key) (inlineLeft : IsInline left) (inlineRight : IsInline right)
      (isValue : ∀ char ∈ value, isValueChar char = true) :
      WritesPair blanks key value
        (blanks ++ (key ++ (left ++ '=' :: (right ++ '"' :: (value ++ ['"'])))))

/-- An attribute is read in front of any text. -/
theorem WritesPair.readPair? {blanks key value written : Text}
    (writes : WritesPair blanks key value written) (offset : Nat) (rest : Text) :
    readPair? offset (written ++ rest) = some (⟨key, value, offset + blanks.size⟩, rest) := by
  obtain @⟨left, right, filled, inline, isKey, inlineLeft, inlineRight, isValue⟩ := writes
  have equals : Stops Text.isInlineBlank ('=' :: (right ++ '"' :: (value ++ '"' :: rest))) :=
    stops_cons (by decide) _
  have quotes : Stops Text.isInlineBlank ('"' :: (value ++ '"' :: rest)) :=
    stops_cons (by decide) _
  have stopsKey : Stops continuesKey (left ++ '=' :: (right ++ '"' :: (value ++ '"' :: rest))) :=
    inlineLeft.stops_append (by decide) (by decide) (stops_cons (by decide) _)
  have stopsValue : Stops isValueChar ('"' :: rest) := stops_cons (by decide) _
  obtain ⟨taken, dropped⟩ :=
    takeWhile_eq_and_dropWhile_eq_iff.mpr ⟨rfl, inline, isKey.stops_append _⟩
  obtain ⟨takenValue, droppedValue⟩ :=
    takeWhile_eq_and_dropWhile_eq_iff.mpr ⟨rfl, isValue, stopsValue⟩
  simp only [List.append_assoc, List.cons_append, List.nil_append]
  rw [Tag.readPair?, taken, if_neg filled, skipInline, dropped,
    readWord?_eq_some_iff.mpr ⟨rfl, isKey, stopsKey⟩]
  simp only [bind, Option.bind_some, skipInline_append inlineLeft, skipInline_append inlineRight,
    skipInline_eq_self equals, skipInline_eq_self quotes, expect?_cons, droppedValue, takenValue]
  rfl

/-- **An attribute is read from its text**, and from no other one. -/
theorem readPair?_eq_some_iff {offset : Nat} {text rest : Text} {pair : Pair} :
    readPair? offset text = some (pair, rest) ↔
      ∃ blanks written, WritesPair blanks pair.key pair.value written ∧
        pair.offset = offset + blanks.size ∧ text = written ++ rest := by
  constructor
  · intro read
    rw [readPair?] at read
    simp only at read
    split at read
    · cases read
    · rename_i filled
      simp only [bind, Option.bind_eq_some_iff, expect?_eq_some_iff] at read
      obtain ⟨⟨key, keyed⟩, readKey, assigned, equals, quoted, opened, after, closed, same⟩ := read
      cases same
      obtain ⟨splitKey, isKey, _⟩ := readWord?_eq_some_iff.mp readKey
      obtain ⟨left, rfl, inlineLeft, _⟩ := skipInline_eq_iff.mp equals
      obtain ⟨right, rfl, inlineRight, _⟩ := skipInline_eq_iff.mp opened
      obtain ⟨splitValue, isValue, _⟩ := takeWhile_eq_and_dropWhile_eq_iff.mp
        ⟨(rfl : quoted.takeWhile isValueChar = _), closed⟩
      obtain ⟨split, inline, _⟩ := takeWhile_eq_and_dropWhile_eq_iff.mp
        ⟨(rfl : text.takeWhile Text.isInlineBlank = _), splitKey⟩
      refine ⟨_, _, .mk filled inline isKey inlineLeft inlineRight isValue, rfl, ?_⟩
      refine split.trans ?_
      conv_lhs => rw [splitValue]
      simp only [List.append_assoc, List.cons_append, List.nil_append]
  · rintro ⟨blanks, written, writes, place, rfl⟩
    rw [writes.readPair?, ← place]

/-- The texts of attributes, one after the other, the first one at `offset`. -/
inductive WritesPairs : (offset : Nat) → List Pair → Text → Prop
  | nil {offset : Nat} : WritesPairs offset [] []
  | cons {offset : Nat} {blanks key value written more : Text} {pairs : List Pair}
      (writes : WritesPair blanks key value written)
      (writesMore : WritesPairs (offset + written.size) pairs more) :
      WritesPairs offset (⟨key, value, offset + blanks.size⟩ :: pairs) (written ++ more)

/-- No attribute is left at the front of a text. -/
def EndsPairs (text : Text) : Prop := readPair? 0 text = none

theorem readPair?_eq_none_iff {offset : Nat} {text : Text} :
    readPair? offset text = none ↔ EndsPairs text := by
  rw [EndsPairs, ← Nat.add_zero offset, readPair?_moved, Option.map_eq_none_iff]

theorem readPairs_of_none {offset : Nat} {text : Text} (none : readPair? offset text = none) :
    readPairs offset text = ([], text) := by
  rw [readPairs]
  split
  · rfl
  · rename_i found
    rw [none] at found
    cases found

theorem readPairs_of_some {offset : Nat} {text rest : Text} {pair : Pair}
    (found : readPair? offset text = some (pair, rest)) :
    readPairs offset text =
      (pair :: (readPairs (offset + (text.size - rest.size)) rest).1,
        (readPairs (offset + (text.size - rest.size)) rest).2) := by
  rw [readPairs]
  split
  · rename_i none
    rw [none] at found
    cases found
  · rename_i pair' rest' again
    rw [found] at again
    cases again
    rfl

theorem exists_writesPairs (offset : Nat) (text : Text) :
    ∃ written, WritesPairs offset (readPairs offset text).1 written ∧
      EndsPairs (readPairs offset text).2 ∧ text = written ++ (readPairs offset text).2 := by
  fun_induction readPairs offset text with
  | case1 offset text none => exact ⟨[], .nil, readPair?_eq_none_iff.mp none, rfl⟩
  | case2 offset text pair after found shorter more ih =>
    obtain ⟨blanks, written, writes, place, rfl⟩ := readPair?_eq_some_iff.mp found
    obtain ⟨others, writesOthers, ends, same⟩ := ih
    obtain ⟨key, value, start⟩ := pair
    cases place
    have next : offset + ((written ++ after).size - after.size) = offset + written.size := by
      rw [Text.size_append, Nat.add_sub_cancel]
    refine ⟨written ++ others, .cons writes ?_, ends, ?_⟩
    · rw [next] at writesOthers
      exact next ▸ writesOthers
    · rw [List.append_assoc]
      exact congrArg (written ++ ·) same

/-- **Attributes are read up to a place where none is left.** -/
theorem readPairs_eq_iff {offset : Nat} {text rest : Text} {pairs : List Pair} :
    readPairs offset text = (pairs, rest) ↔
      ∃ written, WritesPairs offset pairs written ∧ EndsPairs rest ∧ text = written ++ rest := by
  constructor
  · intro read
    have sound := exists_writesPairs offset text
    rw [read] at sound
    exact sound
  · rintro ⟨written, writes, ends, rfl⟩
    induction writes with
    | nil => exact readPairs_of_none (readPair?_eq_none_iff.mpr ends)
    | @cons offset blanks key value written more pairs writes writesMore ih =>
      rw [List.append_assoc, readPairs_of_some (writes.readPair? offset (more ++ rest)),
        Text.size_append, Nat.add_sub_cancel, ih]

/-- Attributes do not continue the name before them. -/
theorem WritesPair.stops {more : Char → Bool} {blanks key value written : Text}
    (writes : WritesPair blanks key value written) (space : more ' ' = false)
    (tab : more '\t' = false) (rest : Text) : Stops more (written ++ rest) := by
  obtain ⟨filled, inline, isKey, inlineLeft, inlineRight, isValue⟩ := writes
  rw [List.append_assoc]
  exact inline.stops filled space tab _

theorem WritesPairs.stops {more : Char → Bool} {offset : Nat} {pairs : List Pair} {written : Text}
    (writes : WritesPairs offset pairs written) (filled : pairs ≠ []) (space : more ' ' = false)
    (tab : more '\t' = false) (rest : Text) : Stops more (written ++ rest) := by
  cases writes with
  | nil => exact absurd rfl filled
  | cons writes writesMore =>
    rw [List.append_assoc]
    exact writes.stops space tab _

/-- An attribute ends with its quote. -/
theorem WritesPairs.getLast? {offset : Nat} {pairs : List Pair} {written : Text}
    (writes : WritesPairs offset pairs written) (filled : pairs ≠ []) :
    written.getLast? = some '"' := by
  induction writes with
  | nil => exact absurd rfl filled
  | @cons offset blanks key value written more pairs writes writesMore ih =>
    cases writesMore with
    | nil =>
      obtain @⟨left, right, _, _, _, _, _, _⟩ := writes
      have split : blanks ++ (key ++ (left ++ '=' :: (right ++ '"' :: (value ++ ['"'])))) ++ [] =
          blanks ++ (key ++ (left ++ '=' :: (right ++ '"' :: value))) ++ ['"'] := by
        simp
      rw [split, List.getLast?_concat]
    | cons writesSecond writesLater =>
      rw [List.getLast?_append, ih (List.cons_ne_nil _ _)]
      rfl

/-! ### The ends of tags and lines -/

/-- What can stand at the end of a line after the blanks. -/
def lineEnds : List Text := [[], ['\n'], ['\r'], ['\r', '\n']]

theorem isLineEnd_iff {text : Text} : isLineEnd text = true ↔ skipInline text ∈ lineEnds := by
  unfold isLineEnd
  split <;> simp_all [lineEnds]

/-- The end of a tag. -/
def tagEnd (selfClosing : Bool) : Text := if selfClosing then ['/', '>'] else ['>']

/-- The text is `lead` with the end of a tag and of the line after it. -/
inductive Ended (lead : Text) (selfClosing : Bool) : Text → Prop
  | mk {gap ending : Text} (inline : IsInline gap) (isEnd : isLineEnd ending = true) :
      Ended lead selfClosing (lead ++ (gap ++ (tagEnd selfClosing ++ ending)))

theorem Ended.of_skipInline {lead rest ending : Text} {selfClosing : Bool}
    (closed : skipInline rest = tagEnd selfClosing ++ ending) (isEnd : isLineEnd ending = true) :
    Ended lead selfClosing (lead ++ rest) := by
  obtain ⟨gap, rfl, inline, _⟩ := skipInline_eq_iff.mp closed
  exact .mk inline isEnd

theorem skipInline_tagEnd {gap : Text} (inline : IsInline gap) (selfClosing : Bool) (rest : Text) :
    skipInline (gap ++ (tagEnd selfClosing ++ rest)) = tagEnd selfClosing ++ rest := by
  refine skipInline_eq_iff.mpr ⟨gap, rfl, inline, ?_⟩
  cases selfClosing <;> exact stops_cons (by decide) _

/-- No attribute is left at the end of a tag. -/
theorem endsPairs_tagEnd {gap : Text} (inline : IsInline gap) (selfClosing : Bool) (rest : Text) :
    EndsPairs (gap ++ (tagEnd selfClosing ++ rest)) := by
  have noKey : readWord? continuesKey (tagEnd selfClosing ++ rest) = none := by
    cases selfClosing <;> rfl
  rw [EndsPairs, readPair?, skipInline_tagEnd inline, noKey]
  exact ite_self _

/-! ### Tags -/

/-- The text of an open tag up to its last attribute, at `offset`. -/
inductive LeadsOpening (offset : Nat) (name : Text) (pairs : List Pair) : Text → Prop
  | mk {blanks written : Text} (inline : IsInline blanks) (qualified : IsQualified name)
      (writes : WritesPairs (offset + Text.size (blanks ++ '<' :: name)) pairs written)
      (filled : pairs ≠ []) : LeadsOpening offset name pairs (blanks ++ '<' :: (name ++ written))

/-- The text of a close tag up to its name. -/
inductive LeadsClosing (name : Text) : Text → Prop
  | mk {blanks : Text} (inline : IsInline blanks) (qualified : IsQualified name) :
      LeadsClosing name (blanks ++ '<' :: '/' :: name)

theorem LeadsOpening.filled {offset : Nat} {name lead : Text} {pairs : List Pair}
    (leads : LeadsOpening offset name pairs lead) : pairs ≠ [] := by
  cases leads
  assumption

theorem LeadsOpening.getLast? {offset : Nat} {name lead : Text} {pairs : List Pair}
    (leads : LeadsOpening offset name pairs lead) : lead.getLast? = some '"' := by
  obtain ⟨_, _, writes, filled⟩ := leads
  rw [List.getLast?_append, List.getLast?_cons, List.getLast?_append, writes.getLast? filled]
  rfl

theorem LeadsOpening.ne_nil {offset : Nat} {name lead : Text} {pairs : List Pair}
    (leads : LeadsOpening offset name pairs lead) : lead ≠ [] := by
  rintro rfl
  cases leads.getLast?

theorem LeadsOpening.qualified {offset : Nat} {name lead : Text} {pairs : List Pair}
    (leads : LeadsOpening offset name pairs lead) : IsQualified name := by
  cases leads
  assumption

/-- An open tag is read up to its last attribute in front of any text without another one. -/
theorem LeadsOpening.read {offset : Nat} {name lead rest : Text} {pairs : List Pair}
    (leads : LeadsOpening offset name pairs lead) (ends : EndsPairs rest) :
    ∃ tagged named, skipInline (lead ++ rest) = '<' :: tagged ∧
      readName? tagged = some (name, named) ∧
      readPairs (offset + ((lead ++ rest).size - named.size)) named = (pairs, rest) := by
  obtain @⟨blanks, written, inline, qualified, writes, filled⟩ := leads
  have split : (blanks ++ '<' :: (name ++ written)) ++ rest =
      (blanks ++ '<' :: name) ++ (written ++ rest) := by
    simp only [List.append_assoc, List.cons_append]
  refine ⟨name ++ (written ++ rest), written ++ rest, ?_,
    readName?_of_isQualified qualified (writes.stops filled (by decide) (by decide) rest), ?_⟩
  · rw [split, List.append_assoc, List.cons_append]
    exact skipInline_eq_iff.mpr ⟨blanks, rfl, inline, stops_cons (by decide) _⟩
  · rw [split, Text.size_append, Nat.add_sub_cancel]
    exact readPairs_eq_iff.mpr ⟨written, writes, ends, rfl⟩

/-- What was read of an open tag up to its last attribute is the text of it. -/
theorem exists_leadsOpening {offset : Nat} {text tagged name named rest : Text} {pairs : List Pair}
    (opened : skipInline text = '<' :: tagged) (read : readName? tagged = some (name, named))
    (listed : readPairs (offset + (text.size - named.size)) named = (pairs, rest))
    (filled : pairs ≠ []) : ∃ lead, text = lead ++ rest ∧ LeadsOpening offset name pairs lead := by
  obtain ⟨blanks, rfl, inline, _⟩ := skipInline_eq_iff.mp opened
  have qualified := isQualified_of_readName? read
  obtain rfl := readName?_append read
  have place : Text.size (blanks ++ '<' :: (name ++ named)) - named.size =
      Text.size (blanks ++ '<' :: name) := by
    rw [← List.cons_append, ← List.append_assoc, Text.size_append, Nat.add_sub_cancel]
  rw [place] at listed
  obtain ⟨written, writes, _, rfl⟩ := readPairs_eq_iff.mp listed
  refine ⟨_, ?_, .mk inline qualified writes filled⟩
  simp only [List.append_assoc, List.cons_append]

/-- **An open tag is read from its text**, and from no other one. -/
theorem readOpening?_eq_some_iff {offset : Nat} {text : Text} {tag : Opening} :
    readOpening? offset text = some tag ↔
      ∃ lead, LeadsOpening offset tag.name tag.pairs lead ∧ Ended lead tag.selfClosing text := by
  constructor
  · intro read
    simp only [readOpening?, bind, Option.bind_eq_some_iff, expect?_eq_some_iff] at read
    obtain ⟨tagged, opened, ⟨name, named⟩, read, ended⟩ := read
    split at ended
    · cases ended
    · rename_i filled
      obtain ⟨lead, whole, leads⟩ := exists_leadsOpening opened read rfl filled
      split at ended
      · rename_i after closed
        split at ended
        · rename_i isEnd
          cases ended
          exact ⟨lead, leads, whole ▸ .of_skipInline closed isEnd⟩
        · cases ended
      · rename_i after closed
        split at ended
        · rename_i isEnd
          cases ended
          exact ⟨lead, leads, whole ▸ .of_skipInline closed isEnd⟩
        · cases ended
      · cases ended
  · rintro ⟨lead, leads, ⟨inline, isEnd⟩⟩
    obtain ⟨name, pairs, selfClosing⟩ := tag
    rename_i gap ending
    obtain ⟨tagged, named, opened, readName, readPairs⟩ :=
      leads.read (endsPairs_tagEnd inline selfClosing ending)
    simp only [readOpening?, bind, opened, expect?_cons, Option.bind_some, readName, readPairs,
      if_neg leads.filled, skipInline_tagEnd inline]
    cases selfClosing <;> simp [tagEnd, isEnd]

/-- **A close tag is read from its text**, and from no other one. -/
theorem readClosing?_eq_some_iff {text name : Text} :
    readClosing? text = some name ↔ ∃ lead, LeadsClosing name lead ∧ Ended lead false text := by
  constructor
  · intro read
    simp only [readClosing?, bind, Option.bind_eq_some_iff, expect?_eq_some_iff] at read
    obtain ⟨tagged, opened, slashed, rfl, ⟨found, named⟩, read, ending, closed, ended⟩ := read
    obtain ⟨blanks, rfl, inline, _⟩ := skipInline_eq_iff.mp opened
    have qualified := isQualified_of_readName? read
    obtain rfl := readName?_append read
    split at ended
    · rename_i isEnd
      cases ended
      have split : blanks ++ '<' :: '/' :: (found ++ named) =
          (blanks ++ '<' :: '/' :: found) ++ named := by
        simp only [List.append_assoc, List.cons_append]
      exact ⟨_, .mk inline qualified, split ▸ .of_skipInline closed isEnd⟩
    · cases ended
  · rintro ⟨_, ⟨inline, qualified⟩, ⟨inlineGap, isEnd⟩⟩
    rename_i blanks gap ending
    have split : (blanks ++ '<' :: '/' :: name) ++ (gap ++ (tagEnd false ++ ending)) =
        blanks ++ '<' :: '/' :: (name ++ (gap ++ (tagEnd false ++ ending))) := by
      simp only [List.append_assoc, List.cons_append]
    have opened : skipInline (blanks ++ '<' :: '/' :: (name ++ (gap ++ (tagEnd false ++ ending)))) =
        '<' :: '/' :: (name ++ (gap ++ (tagEnd false ++ ending))) :=
      skipInline_eq_iff.mpr ⟨blanks, rfl, inline, stops_cons (by decide) _⟩
    have stops : Stops continuesKey (gap ++ (tagEnd false ++ ending)) :=
      inlineGap.stops_append (by decide) (by decide) (stops_cons (by decide) _)
    rw [split]
    simp only [readClosing?, bind, opened, expect?_cons, Option.bind_some,
      readName?_of_isQualified qualified stops, skipInline_tagEnd inlineGap]
    exact if_pos isEnd

end Scaffold.Tag
