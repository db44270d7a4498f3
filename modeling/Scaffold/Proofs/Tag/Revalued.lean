/-
**Values of one attribute, rewritten.**

A rewriting (`Revaluation`) changes the values of one attribute on the open markers of a text and
nothing else. What a line is stays the same, up to these values:

* `tag_append`: the rewriting of a tag does not depend on what comes after its last attribute;
* `LeadsOpening.revalue`: a rewritten tag is the tag with the new values;
* `reads_line_iff`: **a rewritten line is the same marker**, with the new values;
* `lines_text`: the lines of a rewritten text are the rewritten lines;
* `firstValue?_text`: the first known value of another attribute is what it was.
-/

import Scaffold.Proofs.Tag.Declared
import Scaffold.Proofs.Tag.Written

namespace Scaffold

namespace Tag

/-- A rewriting of the values of an attribute into texts that can stand in its quotes. -/
structure Revaluation where
  key : Text
  change : Text → Text
  isValue : ∀ value, ∀ char ∈ change value, isValueChar char = true

namespace Revaluation

/-- The new value of an attribute; another one keeps its value. -/
def value (revaluation : Revaluation) (entry : Text × Text) : Text :=
  if entry.1 = revaluation.key then revaluation.change entry.2 else entry.2

/-- The text with new values in the attributes at its front. Each of them ends with its value in
quotes, and no quote stands before. -/
def pairs (revaluation : Revaluation) (text : Text) : Text :=
  match found : readPair? 0 text with
  | none => text
  | some (pair, rest) =>
    have := readPair?_shorter found
    text.takeWhile (· != '"') ++
      '"' :: (revaluation.value (pair.key, pair.value) ++ '"' :: revaluation.pairs rest)
  termination_by text.length

/-- The text of an open tag with new values. -/
def tag (revaluation : Revaluation) (text : Text) : Text :=
  match (expect? '<' (skipInline text)).bind readName? with
  | some (_, named) => text.take (text.length - named.length) ++ revaluation.pairs named
  | none => text

/-- The line with new values, if it is an open marker. -/
def line (revaluation : Revaluation) (delimiter line : Text) : Text :=
  match (skipInline line).after? delimiter with
  | some rest =>
    if (readOpening? 0 rest).isSome then
      line.take (line.length - rest.length) ++ revaluation.tag rest
    else line
  | none => line

/-- The text with new values on all its open markers. -/
def text (revaluation : Revaluation) (delimiter text : Text) : Text :=
  (text.lines.map (revaluation.line delimiter)).flatten

variable {revaluation : Revaluation} {delimiter : Text}

/-! ### Attributes -/

theorem pairs_of_ends {text : Text} (ends : EndsPairs text) : revaluation.pairs text = text := by
  rw [pairs]
  split
  · rfl
  · rename_i found
    rw [EndsPairs] at ends
    rw [ends] at found
    cases found

theorem quote_not_mem_of_isWord {word : Text} (isWord : IsWord continuesKey word) :
    '"' ∉ word := by
  cases word with
  | nil => exact isWord.elim
  | cons first rest =>
    rw [List.mem_cons, not_or]
    refine ⟨fun same => ?_, fun member => ?_⟩
    · have starts := isWord.1
      rw [← same] at starts
      exact absurd starts (by decide)
    · exact absurd (isWord.2 _ member) (by decide)

theorem quote_not_mem_of_isInline {blanks : Text} (inline : IsInline blanks) : '"' ∉ blanks :=
  fun member => absurd (inline _ member) (by decide)

theorem isValue_value {entry : Text × Text} (isValue : ∀ char ∈ entry.2, isValueChar char = true) :
    ∀ char ∈ revaluation.value entry, isValueChar char = true := by
  rw [value]
  split
  · exact revaluation.isValue entry.2
  · exact isValue

/-- **An attribute gets its new value** where it stands. -/
theorem exists_pairs_of_writesPair (revaluation : Revaluation) {blanks key value written : Text}
    (writes : WritesPair blanks key value written) :
    ∃ renewed, WritesPair blanks key (revaluation.value (key, value)) renewed ∧
      (key ≠ revaluation.key → renewed = written) ∧
      ∀ rest, revaluation.pairs (written ++ rest) = renewed ++ revaluation.pairs rest := by
  have read := writes.readPair? 0
  obtain @⟨left, right, filled, inline, isKey, inlineLeft, inlineRight, isValue⟩ := writes
  refine ⟨_, .mk filled inline isKey inlineLeft inlineRight (isValue_value isValue),
    fun different => ?_, fun rest => ?_⟩
  · rw [Revaluation.value, if_neg different]
  have front : (blanks ++ (key ++ (left ++ '=' :: (right ++ '"' :: (value ++ ['"'])))) ++
      rest).takeWhile (· != '"') = blanks ++ (key ++ (left ++ '=' :: right)) := by
    have split : blanks ++ (key ++ (left ++ '=' :: (right ++ '"' :: (value ++ ['"'])))) ++ rest =
        (blanks ++ (key ++ (left ++ '=' :: right))) ++ '"' :: (value ++ '"' :: rest) := by
      simp
    have absent : '"' ∉ blanks ++ (key ++ (left ++ '=' :: right)) := by
      simp only [List.mem_append, List.mem_cons, not_or]
      exact ⟨quote_not_mem_of_isInline inline, quote_not_mem_of_isWord isKey,
        quote_not_mem_of_isInline inlineLeft, by decide, quote_not_mem_of_isInline inlineRight⟩
    rw [split]
    refine (takeWhile_eq_and_dropWhile_eq_iff.mpr ⟨rfl, fun char member => ?_, ?_⟩).1
    · exact bne_iff_ne.mpr fun same => absent (same ▸ member)
    · exact stops_cons (by decide) _
  rw [pairs]
  split
  · rename_i none
    rw [read] at none
    cases none
  · rename_i pair after found
    rw [read] at found
    cases found
    rw [front]
    simp

/-- An attribute with its new value. -/
def entry (revaluation : Revaluation) (entry : Text × Text) : Text × Text :=
  (entry.1, revaluation.value entry)

/-- **Attributes get their new values**, whatever comes after them. -/
theorem exists_pairs_of_writesPairs (revaluation : Revaluation) {offset : Nat} {listed : List Pair} {written : Text}
    (writes : WritesPairs offset listed written) (place : Nat) :
    ∃ more renewed, WritesPairs place more renewed ∧
      (more.map fun pair => (pair.key, pair.value)) =
        (listed.map fun pair => (pair.key, pair.value)).map revaluation.entry ∧
      ((∀ pair ∈ listed, pair.key ≠ revaluation.key) → renewed = written) ∧
      ∀ rest, revaluation.pairs (written ++ rest) = renewed ++ revaluation.pairs rest := by
  induction writes generalizing place with
  | nil => exact ⟨[], [], .nil, rfl, fun _ => rfl, fun rest => rfl⟩
  | @cons offset blanks key value written after listed writes writesMore ih =>
    obtain ⟨renewed, writesRenewed, absentHere, here⟩ :=
      exists_pairs_of_writesPair revaluation writes
    obtain ⟨more, renewedMore, writesRenewedMore, same, absentLater, later⟩ :=
      ih (place + renewed.size)
    refine ⟨_, _, .cons writesRenewed writesRenewedMore, ?_, fun absent => ?_, fun rest => ?_⟩
    · rw [List.map_cons, List.map_cons, List.map_cons, same]
      rfl
    · obtain ⟨first, others⟩ := List.forall_mem_cons.mp absent
      rw [absentHere first, absentLater others]
    · rw [List.append_assoc, here, later, List.append_assoc]

/-! ### Tags -/

theorem take_front (front rest : Text) :
    (front ++ rest).take ((front ++ rest).length - rest.length) = front := by
  rw [List.length_append, Nat.add_sub_cancel, List.take_left]

/-- A tag gets its new values, whatever comes after its last attribute. -/
theorem exists_tag_of_leads (revaluation : Revaluation) {offset : Nat} {name lead : Text} {listed : List Pair}
    (leads : LeadsOpening offset name listed lead) (place : Nat) :
    ∃ more renewed, LeadsOpening place name more renewed ∧
      (more.map fun pair => (pair.key, pair.value)) =
        (listed.map fun pair => (pair.key, pair.value)).map revaluation.entry ∧
      ((∀ pair ∈ listed, pair.key ≠ revaluation.key) → renewed = lead) ∧
      (∀ rest, EndsPairs rest → revaluation.tag (lead ++ rest) = renewed ++ rest) ∧
      ∀ before : Text, Stops Text.isInlineBlank (before ++ lead) →
        Stops Text.isInlineBlank (before ++ renewed) := by
  obtain @⟨blanks, written, inline, qualified, writes, filled⟩ := leads
  obtain ⟨more, renewed, writesRenewed, same, unchanged, all⟩ :=
    exists_pairs_of_writesPairs revaluation writes (place + Text.size (blanks ++ '<' :: name))
  have filledMore : more ≠ [] := by
    rintro rfl
    exact filled (List.map_eq_nil_iff.mp (List.map_eq_nil_iff.mp same.symm))
  refine ⟨more, _, .mk inline qualified writesRenewed filledMore, same,
    fun absent => by rw [unchanged absent], fun rest ends => ?_, fun before stops => ?_⟩
  · have opened : skipInline (blanks ++ '<' :: (name ++ written) ++ rest) =
        '<' :: (name ++ (written ++ rest)) := by
      refine skipInline_eq_iff.mpr ⟨blanks, ?_, inline, stops_cons (by decide) _⟩
      simp only [List.append_assoc, List.cons_append]
    have read : (expect? '<' ('<' :: (name ++ (written ++ rest)))).bind readName? =
        some (name, written ++ rest) := by
      rw [expect?_cons]
      exact readName?_of_isQualified qualified (writes.stops filled (by decide) (by decide) rest)
    have split : blanks ++ '<' :: (name ++ written) ++ rest =
        (blanks ++ '<' :: name) ++ (written ++ rest) := by
      simp only [List.append_assoc, List.cons_append]
    rw [tag, opened, read]
    show List.take _ _ ++ revaluation.pairs (written ++ rest) = _
    rw [split, take_front, all, pairs_of_ends ends]
    simp only [List.append_assoc, List.cons_append]
  · have split : ∀ after : Text, before ++ (blanks ++ '<' :: after) =
        (before ++ (blanks ++ ['<'])) ++ after := by
      simp only [List.append_assoc, List.cons_append, List.nil_append, implies_true]
    rw [split] at stops ⊢
    exact stops.of_append.append_of_ne_nil (by simp) _

theorem endsPairs_nil : EndsPairs [] := rfl

/-- **What comes after the last attribute** of a tag stays as it is. -/
theorem tag_append {offset : Nat} {name lead rest : Text} {listed : List Pair}
    (leads : LeadsOpening offset name listed lead) (ends : EndsPairs rest) :
    revaluation.tag (lead ++ rest) = revaluation.tag lead ++ rest := by
  obtain ⟨more, renewed, _, _, _, all, _⟩ := exists_tag_of_leads revaluation leads offset
  have alone := all [] endsPairs_nil
  rw [List.append_nil, List.append_nil] at alone
  rw [all rest ends, alone]

/-- **A tag with new values** has the same name, and the new values. -/
theorem leads_tag (revaluation : Revaluation) {offset : Nat} {name lead : Text} {listed : List Pair}
    (leads : LeadsOpening offset name listed lead) (place : Nat) :
    (∃ more, LeadsOpening place name more (revaluation.tag lead) ∧
      (more.map fun pair => (pair.key, pair.value)) =
        (listed.map fun pair => (pair.key, pair.value)).map revaluation.entry) ∧
      ((∀ pair ∈ listed, pair.key ≠ revaluation.key) → revaluation.tag lead = lead) ∧
      ∀ before : Text, Stops Text.isInlineBlank (before ++ lead) →
        Stops Text.isInlineBlank (before ++ revaluation.tag lead) := by
  obtain ⟨more, renewed, leadsRenewed, same, unchanged, all, stops⟩ :=
    exists_tag_of_leads revaluation leads place
  have alone := all [] endsPairs_nil
  rw [List.append_nil, List.append_nil] at alone
  rw [alone]
  exact ⟨⟨more, leadsRenewed, same⟩, unchanged, stops⟩

/-- What ends a tag ends another one just as well, and has no attribute in front. -/
theorem exists_rest_of_ended {lead text : Text} {selfClosing : Bool}
    (ended : Ended lead selfClosing text) :
    ∃ rest, text = lead ++ rest ∧ rest ≠ [] ∧ EndsPairs rest ∧
      ∀ other, Ended other selfClosing (other ++ rest) := by
  obtain @⟨gap, ending, inline, isEnd⟩ := ended
  refine ⟨_, rfl, ?_, endsPairs_tagEnd inline selfClosing ending, fun other => .mk inline isEnd⟩
  cases selfClosing <;> simp [tagEnd]

/-! ### Lines -/

/-- Attributes with new values. -/
def attributes (revaluation : Revaluation) (attributes : Attributes) : Attributes :=
  ⟨attributes.entries.map revaluation.entry, by
    have keys : (attributes.entries.map revaluation.entry).map Prod.fst =
        attributes.entries.map Prod.fst := by
      rw [List.map_map]
      rfl
    rw [keys]
    exact attributes.distinct⟩

/-- A marker with new values. -/
def marker (revaluation : Revaluation) : Marker → Marker
  | .opening name attributes selfClosing =>
    .opening name (revaluation.attributes attributes) selfClosing
  | .closing name => .closing name

/-- Pairs with new values can be collected if the pairs can, since only the keys decide. -/
theorem collect_entry_iff {more listed : List Pair} {found : Attributes}
    (same : (more.map fun pair => (pair.key, pair.value)) =
      (listed.map fun pair => (pair.key, pair.value)).map revaluation.entry) :
    collect .empty more = .ok found ↔
      ∃ before, collect .empty listed = .ok before ∧ found = revaluation.attributes before := by
  simp only [collect_eq_ok_iff, Attributes.empty, List.nil_append, same]
  constructor
  · intro entries
    have distinct := found.distinct
    rw [entries, List.map_map] at distinct
    exact ⟨⟨_, distinct⟩, rfl, Attributes.eq_of_entries entries⟩
  · rintro ⟨before, entries, rfl⟩
    show before.entries.map revaluation.entry = _
    rw [entries]

theorem line_of_delimits {indent rest content : Text}
    (delimits : Delimits delimiter indent rest content) :
    revaluation.line delimiter content =
      if (readOpening? 0 rest).isSome then indent ++ (delimiter ++ revaluation.tag rest)
      else content := by
  have front : content.take (content.length - rest.length) = indent ++ delimiter := by
    rw [delimits.split, ← List.append_assoc, take_front]
  rw [line, after?_skipInline_eq_some_iff.mpr ⟨indent, delimits⟩]
  simp only [front, List.append_assoc]

theorem line_of_not_delimits {content : Text}
    (absent : ∀ indent rest, ¬ Delimits delimiter indent rest content) :
    revaluation.line delimiter content = content := by
  unfold line
  split
  · rename_i rest found
    obtain ⟨indent, delimits⟩ := after?_skipInline_eq_some_iff.mp found
    exact absurd delimits (absent indent rest)
  · rfl

theorem isSome_readOpening? (offset : Nat) (text : Text) :
    (readOpening? offset text).isSome = (readOpening? 0 text).isSome := by
  have moved := readOpening?_moved offset 0 text
  rw [Nat.add_zero] at moved
  rw [moved, Option.isSome_map]

/-- **A line that is an open marker** gets new values in its tag. -/
theorem line_of_leads (revaluation : Revaluation) {indent lead rest content name : Text} {listed : List Pair}
    {selfClosing : Bool} {offset : Nat}
    (delimits : Delimits delimiter indent (lead ++ rest) content)
    (leads : LeadsOpening offset name listed lead) (ends : EndsPairs rest)
    (ended : Ended lead selfClosing (lead ++ rest)) :
    revaluation.line delimiter content = indent ++ (delimiter ++ (revaluation.tag lead ++ rest)) ∧
      Delimits delimiter indent (revaluation.tag lead ++ rest)
        (revaluation.line delimiter content) := by
  have read : readOpening? offset (lead ++ rest) = some ⟨name, listed, selfClosing⟩ :=
    readOpening?_eq_some_iff.mpr ⟨lead, leads, ended⟩
  have opens : (readOpening? 0 (lead ++ rest)).isSome = true := by
    rw [← isSome_readOpening? offset, read]
    rfl
  have line : revaluation.line delimiter content =
      indent ++ (delimiter ++ (revaluation.tag lead ++ rest)) := by
    rw [line_of_delimits delimits, if_pos opens, tag_append leads ends]
  obtain ⟨⟨more, leadsMore, _⟩, _, stops⟩ := leads_tag revaluation leads 0
  have before : Stops Text.isInlineBlank (delimiter ++ lead) := by
    have whole := delimits.stops
    rw [← List.append_assoc] at whole
    exact whole.of_append
  refine ⟨line, line, delimits.inline, ?_⟩
  rw [← List.append_assoc]
  exact (stops delimiter before).append_of_ne_nil
    (List.append_ne_nil_of_right_ne_nil _ leadsMore.ne_nil) _

/-- What an open tag is read as, if its attributes can be collected. -/
theorem ofRest?_eq_ok_iff {offset : Nat} {rest : Text} {tag : Opening} {found : Option Marker}
    (read : readOpening? offset rest = some tag) :
    Marker.ofRest? offset rest = .ok found ↔
      ∃ attributes, collect .empty tag.pairs = .ok attributes ∧
        found = some (.opening tag.name attributes tag.selfClosing) := by
  rw [Marker.ofRest?_of_readOpening? read, map_eq_ok_iff]
  simp only [eq_comm]

/-- **A rewritten line is the same marker**, with the new values. -/
theorem reads_line_iff {content : Text} {found : Option Marker} :
    Marker.Reads delimiter (revaluation.line delimiter content) found ↔
      ∃ before, Marker.Reads delimiter content before ∧
        found = before.map revaluation.marker := by
  by_cases present : ∃ indent rest, Delimits delimiter indent rest content
  · obtain ⟨indent, rest, delimits⟩ := present
    simp only [Marker.Reads, Marker.ofLine?_of_delimits delimits]
    cases read : readOpening? (indent.size + delimiter.size) rest with
    | none =>
      have closed : (readOpening? 0 rest).isSome ≠ true := by
        rw [← isSome_readOpening? (indent.size + delimiter.size), read]
        exact Bool.false_ne_true
      have same : ((readClosing? rest).map Marker.closing).map revaluation.marker =
          (readClosing? rest).map Marker.closing := by
        cases readClosing? rest <;> rfl
      rw [line_of_delimits delimits, if_neg closed, Marker.ofLine?_of_delimits delimits,
        Marker.ofRest?, read]
      constructor
      · intro reads
        exact ⟨_, rfl, (Except.ok.inj reads).symm.trans same.symm⟩
      · rintro ⟨before, reads, rfl⟩
        rw [← Except.ok.inj reads, same]
    | some tag =>
      obtain ⟨lead, leads, ended⟩ := readOpening?_eq_some_iff.mp read
      obtain ⟨after, rfl, filled, ends, again⟩ := exists_rest_of_ended ended
      obtain ⟨_, delimitsNew⟩ := line_of_leads revaluation delimits leads ends ended
      obtain ⟨⟨more, leadsNew, same⟩, _⟩ :=
        leads_tag revaluation leads (indent.size + delimiter.size)
      have readNew : readOpening? (indent.size + delimiter.size)
          (revaluation.tag lead ++ after) = some ⟨tag.name, more, tag.selfClosing⟩ :=
        readOpening?_eq_some_iff.mpr ⟨_, leadsNew, again _⟩
      rw [Marker.ofLine?_of_delimits delimitsNew, ofRest?_eq_ok_iff readNew]
      simp only [ofRest?_eq_ok_iff read, collect_entry_iff same]
      constructor
      · rintro ⟨_, ⟨before, collected, rfl⟩, rfl⟩
        exact ⟨_, ⟨before, collected, rfl⟩, rfl⟩
      · rintro ⟨_, ⟨before, collected, rfl⟩, rfl⟩
        exact ⟨_, ⟨before, collected, rfl⟩, rfl⟩
  · have nothing : ∀ indent rest, ¬ Delimits delimiter indent rest content :=
      fun indent rest delimits => present ⟨indent, rest, delimits⟩
    have plain : Marker.Reads delimiter content none := Marker.ofLine?_of_not_delimits nothing
    rw [line_of_not_delimits nothing]
    constructor
    · intro reads
      exact ⟨none, plain, reads.unique plain⟩
    · rintro ⟨before, reads, rfl⟩
      rw [reads.unique plain]
      exact plain

/-- The name and the attributes of a rewritten open marker. -/
theorem opening?_line (content : Text) :
    Marker.opening? delimiter (revaluation.line delimiter content) =
      (Marker.opening? delimiter content).map fun marker =>
        (marker.1, revaluation.attributes marker.2) := by
  cases read : Marker.ofLine? delimiter ⟨content, 0⟩ with
  | ok found =>
    have reads : Marker.Reads delimiter (revaluation.line delimiter content) _ :=
      reads_line_iff.mpr ⟨found, read, rfl⟩
    rw [Marker.opening?, Marker.opening?, read, reads]
    rcases found with _ | ⟨_⟩ | ⟨_⟩ <;> rfl
  | error defect =>
    cases readNew : Marker.ofLine? delimiter ⟨revaluation.line delimiter content, 0⟩ with
    | ok found =>
      obtain ⟨before, reads, _⟩ := reads_line_iff.mp readNew
      rw [Marker.Reads, read] at reads
      cases reads
    | error other =>
      rw [Marker.opening?, Marker.opening?, read, readNew]
      rfl

/-- A line that is no open marker stays as it is. -/
theorem line_of_reads {content : Text} {found : Option Marker}
    (reads : Marker.Reads delimiter content found)
    (closed : ∀ name attributes selfClosing, found ≠ some (.opening name attributes selfClosing)) :
    revaluation.line delimiter content = content := by
  by_cases present : ∃ indent rest, Delimits delimiter indent rest content
  · obtain ⟨indent, rest, delimits⟩ := present
    rw [Marker.Reads, Marker.ofLine?_of_delimits delimits] at reads
    rw [line_of_delimits delimits, ← isSome_readOpening? (indent.size + delimiter.size)]
    cases read : readOpening? (indent.size + delimiter.size) rest with
    | none => rfl
    | some tag =>
      obtain ⟨attributes, _, same⟩ := (ofRest?_eq_ok_iff read).mp reads
      exact absurd same (closed _ _ _)
  · exact line_of_not_delimits fun indent rest delimits => present ⟨indent, rest, delimits⟩

/-- A line without the attribute stays as it is. -/
theorem line_of_absent {content name : Text} {attributes : Attributes} {selfClosing : Bool}
    (reads : Marker.Reads delimiter content (some (.opening name attributes selfClosing)))
    (absent : attributes.hasKey revaluation.key = false) :
    revaluation.line delimiter content = content := by
  obtain ⟨indent, rest, listed, delimits, read, collected⟩ := Marker.reads_opening_iff.mp reads
  obtain ⟨lead, leads, ended⟩ := readOpening?_eq_some_iff.mp read
  obtain ⟨after, rfl, _, ends, _⟩ := exists_rest_of_ended ended
  have keys : ∀ pair ∈ listed, pair.key ≠ revaluation.key := by
    intro pair member same
    have entries := collect_eq_ok_iff.mp collected
    refine Bool.eq_false_iff.mp absent (Attributes.hasKey_iff.mpr ?_)
    rw [entries, Attributes.empty, List.nil_append, List.map_map, ← same]
    exact List.mem_map_of_mem (f := Prod.fst ∘ fun pair : Pair => (pair.key, pair.value)) member
  obtain ⟨_, unchanged, _⟩ := leads_tag revaluation leads 0
  rw [(line_of_leads revaluation delimits leads ends ended).1, unchanged keys, ← delimits.split]

/-- And its attributes stay. -/
theorem attributes_of_absent {attributes : Attributes}
    (absent : attributes.hasKey revaluation.key = false) :
    revaluation.attributes attributes = attributes := by
  refine Attributes.eq_of_entries ?_
  have same : ∀ entry ∈ attributes.entries, revaluation.entry entry = entry := by
    intro entry member
    have different : entry.1 ≠ revaluation.key := fun taken =>
      Bool.eq_false_iff.mp absent (Attributes.hasKey_iff.mpr (taken ▸ List.mem_map_of_mem member))
    exact congrArg (Prod.mk entry.1) (if_neg different)
  exact (List.map_congr_left same).trans (List.map_id _)

/-! ### Line ends -/

theorem newline_not_mem_of_isInline {blanks : Text} (inline : IsInline blanks) :
    '\n' ∉ blanks :=
  fun member => absurd (inline _ member) (by decide)

theorem newline_not_mem_of_writesPairs {offset : Nat} {listed : List Pair} {written : Text}
    (writes : WritesPairs offset listed written) : '\n' ∉ written := by
  induction writes with
  | nil => exact List.not_mem_nil
  | cons writes _ ih =>
    obtain @⟨left, right, _, inline, isKey, inlineLeft, inlineRight, isValue⟩ := writes
    simp only [List.mem_append, List.mem_cons, List.not_mem_nil, or_false, not_or]
    exact ⟨⟨newline_not_mem_of_isInline inline, isKey.newline_not_mem (by decide),
      newline_not_mem_of_isInline inlineLeft, by decide, newline_not_mem_of_isInline inlineRight,
      by decide, fun member => absurd (isValue _ member) (by decide), by decide⟩, ih⟩

theorem newline_not_mem_of_leads {offset : Nat} {name lead : Text} {listed : List Pair}
    (leads : LeadsOpening offset name listed lead) : '\n' ∉ lead := by
  obtain @⟨blanks, written, inline, qualified, writes, _⟩ := leads
  simp only [List.mem_append, List.mem_cons, not_or]
  exact ⟨newline_not_mem_of_isInline inline, by decide, qualified.newline_not_mem,
    newline_not_mem_of_writesPairs writes⟩

/-- **A rewritten line is a line**, and ends as it did. -/
theorem isLine_line (revaluation : Revaluation) (delimiter : Text) {content : Text} (isLine : content.IsLine) :
    (revaluation.line delimiter content).IsLine ∧
      (revaluation.line delimiter content).getLast? = content.getLast? := by
  by_cases present : ∃ indent rest, Delimits delimiter indent rest content
  · obtain ⟨indent, rest, delimits⟩ := present
    cases read : readOpening? 0 rest with
    | none =>
      rw [line_of_delimits delimits, read]
      exact ⟨isLine, rfl⟩
    | some tag =>
      obtain ⟨lead, leads, ended⟩ := readOpening?_eq_some_iff.mp read
      obtain ⟨after, rfl, filled, ends, _⟩ := exists_rest_of_ended ended
      obtain ⟨⟨more, leadsMore, _⟩, _⟩ := leads_tag revaluation leads 0
      have absentNew := newline_not_mem_of_leads leadsMore
      have whole := delimits.split
      rw [← List.append_assoc, ← List.append_assoc] at whole
      have absent := (Text.isLine_iff.mp isLine).2
      rw [whole, List.dropLast_append_of_ne_nil filled] at absent
      simp only [List.mem_append, not_or] at absent
      obtain ⟨⟨⟨absentIndent, absentDelimiter⟩, _⟩, absentAfter⟩ := absent
      rw [(line_of_leads revaluation delimits leads ends ended).1, ← List.append_assoc,
        ← List.append_assoc]
      refine ⟨Text.isLine_iff.mpr ⟨List.append_ne_nil_of_right_ne_nil _ filled, ?_⟩, ?_⟩
      · rw [List.dropLast_append_of_ne_nil filled]
        simp only [List.mem_append, not_or]
        exact ⟨⟨⟨absentIndent, absentDelimiter⟩, absentNew⟩, absentAfter⟩
      · rw [whole, List.getLast?_append_of_ne_nil _ filled,
          List.getLast?_append_of_ne_nil _ filled]
  · have same : revaluation.line delimiter content = content :=
      line_of_not_delimits fun indent rest delimits => present ⟨indent, rest, delimits⟩
    rw [same]
    exact ⟨isLine, rfl⟩

/-! ### Texts -/

/-- **Rewritten rows are rows** of a text, and can be followed by what the rows could. -/
theorem sealed_map {followed : Prop} {rows : List Text} (isSealed : Text.Sealed followed rows) :
    Text.Sealed followed (rows.map (revaluation.line delimiter)) := by
  obtain ⟨lined, closed⟩ := isSealed
  obtain ⟨areLines, complete⟩ := Text.lined_iff.mp lined
  refine ⟨Text.lined_iff.mpr ⟨fun row member => ?_, fun row member => ?_⟩, fun holds => ?_⟩
  · obtain ⟨before, inside, rfl⟩ := List.mem_map.mp member
    exact (isLine_line revaluation delimiter (areLines before inside)).1
  · rw [← List.map_dropLast] at member
    obtain ⟨before, inside, rfl⟩ := List.mem_map.mp member
    rw [(isLine_line revaluation delimiter (areLines before (List.dropLast_subset _ inside))).2]
    exact complete before inside
  · rcases List.eq_nil_or_concat' rows with rfl | ⟨early, last, rfl⟩
    · exact Text.isClosed_nil
    · have isLine := areLines last (List.mem_append_right _ List.mem_cons_self)
      obtain ⟨isLineNew, ended⟩ := isLine_line revaluation delimiter isLine
      have closedAll := closed holds
      rw [List.flatten_append, List.flatten_singleton] at closedAll
      have feed := closedAll.of_append.resolve_left isLine.ne_nil
      rw [List.map_append, List.flatten_append, List.map_singleton, List.flatten_singleton]
      refine Or.inr ?_
      rw [List.getLast?_append_of_ne_nil _ isLineNew.ne_nil, ended, feed]

/-- **The lines of a rewritten text** are the rewritten lines. -/
theorem lines_text (content : Text) :
    (revaluation.text delimiter content).lines =
      content.lines.map (revaluation.line delimiter) := by
  have isSealed : Text.Sealed False content.lines := ⟨Text.lined_lines content, False.elim⟩
  exact (sealed_map isSealed).1

theorem get?_attributes {key : Text} (different : key ≠ revaluation.key)
    (attributes : Attributes) :
    (revaluation.attributes attributes).get? key = attributes.get? key := by
  have found : (attributes.entries.map revaluation.entry).find? (fun entry => entry.1 == key) =
      (attributes.entries.find? fun entry => entry.1 == key).map revaluation.entry :=
    List.find?_map
  rw [Attributes.get?, Attributes.get?, Revaluation.attributes, found]
  cases first : attributes.entries.find? fun entry => entry.1 == key with
  | none => rfl
  | some entry =>
    have named : entry.1 = key :=
      beq_iff_eq.mp (List.find?_some (p := fun entry : Text × Text => entry.1 == key) first)
    have same : revaluation.value entry = entry.2 := if_neg fun taken => different (named ▸ taken)
    exact congrArg some same

/-- **Another attribute has the first known value that it had**, whether the text can be read or
not. -/
theorem firstValue?_text {α : Type} [Named α] {key : Text} (different : key ≠ revaluation.key)
    (content : Text) :
    firstValue? α key delimiter (revaluation.text delimiter content) =
      firstValue? α key delimiter content := by
  have markers : openMarkers delimiter (revaluation.text delimiter content) =
      (openMarkers delimiter content).map fun marker =>
        (marker.1, revaluation.attributes marker.2) := by
    rw [openMarkers_eq, openMarkers_eq, lines_text, List.filterMap_map, List.map_filterMap]
    exact List.filterMap_congr fun content _ => opening?_line content
  rw [firstValue?, firstValue?, markers, List.findSome?_map]
  refine congrArg (fun known => List.findSome? known _) (funext fun marker => ?_)
  rw [Function.comp, get?_attributes different]

end Revaluation

end Tag

end Scaffold
