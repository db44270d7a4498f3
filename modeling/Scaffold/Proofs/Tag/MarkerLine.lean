/-
**Marker lines.**

A line is a marker if it is blanks, the delimiter, and a tag that ends where the line does. What a
line is then follows from what is written on it:

* `reads_opening_iff`, `reads_closing_iff`: the lines that are markers;
* `isUsable_of_reads`: a delimiter that stands on some marker line has no line feed and does not
  start with a blank;
* `ofLine?_newline`: completing a line does not change what it is.
-/

import Mathlib.Data.List.Basic
import Scaffold.Proofs.Tag.Grammar
import Scaffold.Proofs.Text.Lines

namespace Scaffold

namespace Tag

variable {delimiter : Text}

/-! ### Blanks, the delimiter and the rest -/

/-- The line is the blanks `indent`, the delimiter and `rest`. -/
structure Delimits (delimiter indent rest line : Text) : Prop where
  split : line = indent ++ (delimiter ++ rest)
  inline : IsInline indent
  stops : Stops Text.isInlineBlank (delimiter ++ rest)

theorem Delimits.takeWhile_eq {indent rest line : Text}
    (delimits : Delimits delimiter indent rest line) :
    line.takeWhile Text.isInlineBlank = indent :=
  (takeWhile_eq_and_dropWhile_eq_iff.mpr
    ⟨delimits.split, delimits.inline, delimits.stops⟩).1

theorem after?_skipInline_eq_some_iff {line rest : Text} :
    (skipInline line).after? delimiter = some rest ↔
      ∃ indent, Delimits delimiter indent rest line := by
  rw [Text.after?_eq_some, skipInline_eq_iff]
  constructor
  · rintro ⟨indent, split, inline, stops⟩
    exact ⟨indent, split, inline, stops⟩
  · rintro ⟨indent, split, inline, stops⟩
    exact ⟨indent, split, inline, stops⟩

namespace Marker

/-- The marker that is written after the delimiter, if there is one. -/
def ofRest? (offset : Nat) (rest : Text) : Except Defect (Option Marker) :=
  match readOpening? offset rest with
  | some tag =>
    (collect .empty tag.pairs).map fun attributes =>
      some (.opening tag.name attributes tag.selfClosing)
  | none => .ok ((readClosing? rest).map closing)

theorem ofLine?_of_delimits_at {indent rest line : Text} (start : Nat)
    (delimits : Delimits delimiter indent rest line) :
    ofLine? delimiter ⟨line, start⟩ = ofRest? (start + (indent.size + delimiter.size)) rest := by
  rw [ofLine?, after?_skipInline_eq_some_iff.mpr ⟨indent, delimits⟩, delimits.takeWhile_eq,
    Nat.add_assoc]
  rfl

theorem ofLine?_of_delimits {indent rest line : Text}
    (delimits : Delimits delimiter indent rest line) :
    ofLine? delimiter ⟨line, 0⟩ = ofRest? (indent.size + delimiter.size) rest := by
  rw [ofLine?_of_delimits_at 0 delimits, Nat.zero_add]

/-- A line without the delimiter in its place is text. -/
theorem ofLine?_of_not_delimits {line : Text}
    (absent : ∀ indent rest, ¬ Delimits delimiter indent rest line) :
    ofLine? delimiter ⟨line, 0⟩ = .ok none := by
  have nothing : (skipInline line).after? delimiter = none := by
    rw [Option.eq_none_iff_forall_ne_some]
    intro rest found
    obtain ⟨indent, delimits⟩ := after?_skipInline_eq_some_iff.mp found
    exact absent indent rest delimits
  rw [ofLine?, nothing]

/-- A line that is a marker has the delimiter in its place. -/
theorem exists_delimits_of_reads {line : Text} {marker : Marker}
    (reads : Reads delimiter line (some marker)) :
    ∃ indent rest, Delimits delimiter indent rest line ∧
      ofRest? (indent.size + delimiter.size) rest = .ok (some marker) := by
  by_cases present : ∃ indent rest, Delimits delimiter indent rest line
  · obtain ⟨indent, rest, delimits⟩ := present
    rw [Reads, ofLine?_of_delimits delimits] at reads
    exact ⟨indent, rest, delimits, reads⟩
  · have absent : Reads delimiter line none := ofLine?_of_not_delimits fun indent rest delimits =>
      present ⟨indent, rest, delimits⟩
    cases reads.unique absent

/-- A close tag is not read as an open one. -/
theorem readOpening?_of_readClosing? {offset : Nat} {text name : Text}
    (read : readClosing? text = some name) : readOpening? offset text = none := by
  simp only [readClosing?, bind, Option.bind_eq_some_iff, expect?_eq_some_iff] at read
  obtain ⟨tagged, opened, slashed, rfl, _⟩ := read
  simp only [readOpening?, bind, opened, expect?_cons, Option.bind_some]
  rfl

/-- An open tag after the delimiter is a marker if its attributes can be collected. -/
theorem ofRest?_of_readOpening? {offset : Nat} {rest : Text} {tag : Opening}
    (read : readOpening? offset rest = some tag) :
    ofRest? offset rest = (collect .empty tag.pairs).map fun attributes =>
      some (.opening tag.name attributes tag.selfClosing) := by
  rw [ofRest?, read]

/-- The two kinds of tags that can be written after the delimiter. -/
theorem ofRest?_eq_ok_some_iff {offset : Nat} {rest : Text} {marker : Marker} :
    ofRest? offset rest = .ok (some marker) ↔
      (∃ tag attributes, readOpening? offset rest = some tag ∧
        collect .empty tag.pairs = .ok attributes ∧
        marker = .opening tag.name attributes tag.selfClosing) ∨
      ∃ name, readClosing? rest = some name ∧ marker = .closing name := by
  constructor
  · intro found
    cases read : readOpening? offset rest with
    | some tag =>
      rw [ofRest?_of_readOpening? read] at found
      obtain ⟨attributes, collected, same⟩ := map_eq_ok_iff.mp found
      exact Or.inl ⟨tag, attributes, rfl, collected, (Option.some.inj same).symm⟩
    | none =>
      rw [ofRest?, read] at found
      obtain ⟨name, closed, same⟩ := Option.map_eq_some_iff.mp (Except.ok.inj found)
      exact Or.inr ⟨name, closed, same.symm⟩
  · rintro (⟨tag, attributes, read, collected, rfl⟩ | ⟨name, read, rfl⟩)
    · rw [ofRest?_of_readOpening? read, collected]
      rfl
    · rw [ofRest?, readOpening?_of_readClosing? read]
      simp only [read]
      rfl

/-- **The lines that are open markers.** -/
theorem reads_opening_iff {line name : Text} {attributes : Attributes} {selfClosing : Bool} :
    Reads delimiter line (some (.opening name attributes selfClosing)) ↔
      ∃ indent rest pairs, Delimits delimiter indent rest line ∧
        readOpening? (indent.size + delimiter.size) rest = some ⟨name, pairs, selfClosing⟩ ∧
        collect .empty pairs = .ok attributes := by
  constructor
  · intro reads
    obtain ⟨indent, rest, delimits, found⟩ := exists_delimits_of_reads reads
    rcases ofRest?_eq_ok_some_iff.mp found with ⟨tag, known, read, collected, same⟩ | ⟨_, _, same⟩
    · cases same
      exact ⟨indent, rest, tag.pairs, delimits, read, collected⟩
    · cases same
  · rintro ⟨indent, rest, pairs, delimits, read, collected⟩
    rw [Reads, ofLine?_of_delimits delimits]
    exact ofRest?_eq_ok_some_iff.mpr (Or.inl ⟨_, attributes, read, collected, rfl⟩)

/-- **The lines that are close markers.** -/
theorem reads_closing_iff {line name : Text} :
    Reads delimiter line (some (.closing name)) ↔
      ∃ indent rest, Delimits delimiter indent rest line ∧ readClosing? rest = some name := by
  constructor
  · intro reads
    obtain ⟨indent, rest, delimits, found⟩ := exists_delimits_of_reads reads
    rcases ofRest?_eq_ok_some_iff.mp found with ⟨_, _, _, _, same⟩ | ⟨_, read, same⟩
    · cases same
    · cases same
      exact ⟨indent, rest, delimits, read⟩
  · rintro ⟨indent, rest, delimits, read⟩
    rw [Reads, ofLine?_of_delimits delimits]
    exact ofRest?_eq_ok_some_iff.mpr (Or.inr ⟨name, read, rfl⟩)

/-- The name on an open marker is the name of a tag. -/
theorem isName_of_reads_opening {line name : Text} {attributes : Attributes} {selfClosing : Bool}
    (reads : Reads delimiter line (some (.opening name attributes selfClosing))) :
    isName name = true := by
  obtain ⟨_, _, _, _, read, _⟩ := reads_opening_iff.mp reads
  obtain ⟨_, leads, _⟩ := readOpening?_eq_some_iff.mp read
  exact isName_iff.mpr leads.qualified

/-- So is the name on a close marker. -/
theorem isName_of_reads_closing {line name : Text}
    (reads : Reads delimiter line (some (.closing name))) : isName name = true := by
  obtain ⟨_, _, _, read⟩ := reads_closing_iff.mp reads
  obtain ⟨_, ⟨_, qualified⟩, _⟩ := readClosing?_eq_some_iff.mp read
  exact isName_iff.mpr qualified

/-! ### Delimiters that markers use -/

/-- A delimiter that can stand on a marker line: it has no line feed and does not start with a
blank. -/
structure IsUsable (delimiter : Text) : Prop where
  oneLine : '\n' ∉ delimiter
  stops : Stops Text.isInlineBlank delimiter

/-- A usable delimiter is in its place in front of anything but a blank. -/
theorem IsUsable.delimits (usable : IsUsable delimiter) {indent rest : Text}
    (inline : IsInline indent) (stops : Stops Text.isInlineBlank rest) :
    Delimits delimiter indent rest (indent ++ (delimiter ++ rest)) :=
  ⟨rfl, inline, usable.stops.append stops⟩

/-- **A delimiter that stands on some line that is not text** is usable. -/
theorem isUsable_of_not_reads_none {line : Text} (isLine : line.IsLine)
    (marked : ¬ Reads delimiter line none) : IsUsable delimiter := by
  by_cases present : ∃ indent rest, Delimits delimiter indent rest line
  · obtain ⟨indent, rest, delimits⟩ := present
    have filled : rest ≠ [] := by
      rintro rfl
      exact marked (ofLine?_of_delimits delimits)
    obtain ⟨split, _, stops⟩ := delimits
    refine ⟨fun member => (Text.isLine_iff.mp isLine).2 ?_, stops.of_append⟩
    rw [split, ← List.append_assoc, List.dropLast_append_of_ne_nil filled]
    exact List.mem_append_left _ (List.mem_append_right _ member)
  · exact absurd (ofLine?_of_not_delimits fun indent rest delimits =>
      present ⟨indent, rest, delimits⟩) marked

/-- **A delimiter that stands on some marker line** is usable. -/
theorem isUsable_of_reads {line : Text} {marker : Marker} (isLine : line.IsLine)
    (reads : Reads delimiter line (some marker)) : IsUsable delimiter :=
  isUsable_of_not_reads_none isLine fun plain => nomatch reads.unique plain

/-! ### Completed lines -/

/-- A text that a line feed was added to, cut where no line feed is before. -/
theorem append_newline_eq_iff {first text rest : Text} (absent : first.getLast? ≠ some '\n') :
    text ++ ['\n'] = first ++ rest ↔ ∃ more, rest = more ++ ['\n'] ∧ text = first ++ more := by
  constructor
  · intro same
    rcases List.eq_nil_or_concat' rest with rfl | ⟨more, char, rfl⟩
    · rw [List.append_nil] at same
      rw [← same, List.getLast?_concat] at absent
      exact absurd rfl absent
    · rw [← List.append_assoc] at same
      obtain ⟨split, last⟩ := List.append_inj' same rfl
      cases last
      exact ⟨more, rfl, split⟩
  · rintro ⟨more, rfl, rfl⟩
    rw [List.append_assoc]

theorem skipInline_newline (text : Text) :
    skipInline (text ++ ['\n']) = skipInline text ++ ['\n'] := by
  obtain ⟨blanks, split, inline, stops⟩ := skipInline_eq_iff.mp (rfl : skipInline text = _)
  refine skipInline_eq_iff.mpr ⟨blanks, ?_, inline, stops.append (stops_cons (by decide) [])⟩
  rw [← List.append_assoc, ← split]

theorem mem_lineEnds_newline {rest : Text} (absent : '\n' ∉ rest) :
    rest ++ ['\n'] ∈ lineEnds ↔ rest ∈ lineEnds := by
  cases rest with
  | nil => decide
  | cons first later =>
    rw [List.mem_cons, not_or] at absent
    cases later with
    | nil => simp [lineEnds, Ne.symm absent.1]
    | cons second more =>
      rw [List.mem_cons, not_or] at absent
      simp [lineEnds, Ne.symm absent.2.1]

/-- Blanks and the end of a line are that with a line feed added. -/
theorem isLineEnd_newline {text : Text} (absent : '\n' ∉ text) :
    isLineEnd (text ++ ['\n']) = isLineEnd text := by
  have absentRest : '\n' ∉ skipInline text := fun member =>
    absent ((List.dropWhile_sublist _).subset member)
  rw [Bool.eq_iff_iff, isLineEnd_iff, isLineEnd_iff, skipInline_newline,
    mem_lineEnds_newline absentRest]

/-- A tag that ends a line ends the completed line. -/
theorem ended_newline {lead text : Text} {selfClosing : Bool} (absent : '\n' ∉ text) :
    Ended lead selfClosing (text ++ ['\n']) ↔ Ended lead selfClosing text := by
  constructor
  · intro ended
    generalize whole : text ++ ['\n'] = completed at ended
    obtain @⟨gap, ending, inline, isEnd⟩ := ended
    rw [← List.append_assoc, ← List.append_assoc] at whole
    have last : (lead ++ gap ++ tagEnd selfClosing).getLast? ≠ some '\n' := by
      cases selfClosing <;> simp [tagEnd]
    obtain ⟨more, rfl, rfl⟩ := (append_newline_eq_iff last).mp whole
    rw [isLineEnd_newline fun member => absent (List.mem_append_right _ member)] at isEnd
    simp only [List.append_assoc]
    exact .mk inline isEnd
  · rintro ⟨inline, isEnd⟩
    rename_i gap ending
    simp only [List.append_assoc]
    refine .mk inline ?_
    rw [isLineEnd_newline fun member => absent ?_, isEnd]
    simp only [List.mem_append]
    exact Or.inr (Or.inr (Or.inr member))

theorem ofRest?_newline {rest : Text} (absent : '\n' ∉ rest) (offset : Nat) :
    ofRest? offset (rest ++ ['\n']) = ofRest? offset rest := by
  have opening : readOpening? offset (rest ++ ['\n']) = readOpening? offset rest := by
    refine Option.ext fun tag => ?_
    simp only [readOpening?_eq_some_iff, ended_newline absent]
  have closing : readClosing? (rest ++ ['\n']) = readClosing? rest := by
    refine Option.ext fun name => ?_
    simp only [readClosing?_eq_some_iff, ended_newline absent]
  rw [ofRest?, ofRest?, opening, closing]

/-- The delimiter is in its place on a completed line if it was before. -/
theorem delimits_newline (usable : IsUsable delimiter) {indent rest line : Text} :
    Delimits delimiter indent rest (line ++ ['\n']) ↔
      ∃ more, rest = more ++ ['\n'] ∧ Delimits delimiter indent more line := by
  constructor
  · rintro ⟨split, inline, stops⟩
    have last : (indent ++ delimiter).getLast? ≠ some '\n' := by
      intro same
      rcases List.mem_append.mp (List.mem_of_getLast? same) with blank | inDelimiter
      · exact absurd (inline _ blank) (by decide)
      · exact usable.oneLine inDelimiter
    rw [← List.append_assoc] at split
    obtain ⟨more, rfl, rfl⟩ := (append_newline_eq_iff last).mp split
    rw [← List.append_assoc] at stops
    exact ⟨more, rfl, List.append_assoc _ _ _, inline, stops.of_append⟩
  · rintro ⟨more, rfl, split, inline, stops⟩
    refine ⟨?_, inline, ?_⟩
    · rw [split]
      simp only [List.append_assoc]
    · rw [← List.append_assoc]
      exact stops.append (stops_cons (by decide) [])

/-- **Completing a line does not change what it is.** -/
theorem ofLine?_newline (usable : IsUsable delimiter) {line : Text} (absent : '\n' ∉ line) :
    ofLine? delimiter ⟨line ++ ['\n'], 0⟩ = ofLine? delimiter ⟨line, 0⟩ := by
  by_cases present : ∃ indent rest, Delimits delimiter indent rest line
  · obtain ⟨indent, rest, delimits⟩ := present
    have absentRest : '\n' ∉ rest := fun member =>
      absent (delimits.split ▸ List.mem_append_right _ (List.mem_append_right _ member))
    rw [ofLine?_of_delimits delimits,
      ofLine?_of_delimits ((delimits_newline usable).mpr ⟨rest, rfl, delimits⟩),
      ofRest?_newline absentRest]
  · rw [ofLine?_of_not_delimits, ofLine?_of_not_delimits]
    · exact fun indent rest delimits => present ⟨indent, rest, delimits⟩
    · intro indent rest delimits
      obtain ⟨more, _, before⟩ := (delimits_newline usable).mp delimits
      exact present ⟨indent, more, before⟩

theorem ofLine?_closeLine (usable : IsUsable delimiter) {line : Text} (isLine : line.IsLine) :
    ofLine? delimiter ⟨line.closeLine, 0⟩ = ofLine? delimiter ⟨line, 0⟩ := by
  by_cases closed : line.IsClosed
  · rw [Text.closeLine_eq_self closed]
  · obtain ⟨rows, last, split, absent, -⟩ := Text.lines_closeLine closed
    have only : rows ++ [last] = [] ++ [line] := split.symm.trans isLine
    obtain rfl := List.singleton_inj.mp (List.append_inj' only rfl).2
    rw [Text.closeLine_eq_append closed, ofLine?_newline usable absent]

end Marker

end Tag

end Scaffold
