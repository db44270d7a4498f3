/-
**The first line that offends decides.**

What a line is depends on the names that are open before it (`openNames`), and those depend on the
lines before it. A line *offends* if it repeats a key, or closes a tag around the innermost one
(`Offends`). Lines that do not offend are passed (`Passes`), the first one that does gives the
defect, and only a text without one can end inside a tag (`ofLines_eq_error_iff`).

So nothing behind the first offending line takes part in the fault of a text: a text with the same
lines up to that one has the same fault, but for the characters that are shown behind its place
(`Forest.parse_error_decided`). The two may differ in the line feed of that line too, since one of
them may end there (`Piece.ofLine_error_of_closeLine`).
-/

import Scaffold.Proofs.Tag.Completed
import Scaffold.Proofs.Tag.Defects
import Scaffold.Proofs.Text.Positions

namespace Scaffold

namespace Tag

variable {delimiter : Text}

/-! ### Names that are open -/

/-- The names that are open after a line, the innermost first. -/
def namesAfter (delimiter : Text) (names : List Text) (line : Text) : List Text :=
  match Marker.ofLine? delimiter ⟨line, 0⟩ with
  | .ok (some (.opening name _ false)) => name :: names
  | .ok (some (.closing name)) => if names.head? = some name then names.tail else names
  | _ => names

/-- The names that are open after some lines, the innermost first. -/
def openNames (delimiter : Text) (rows : List Text) : List Text :=
  rows.foldl (namesAfter delimiter) []

theorem Piece.Step.map_name {outer still : List Tag} {line : Excerpt} {piece : Piece}
    (step : Step delimiter outer line piece still) :
    still.map Tag.name = namesAfter delimiter (outer.map Tag.name) line.text := by
  cases step with
  | text plain =>
    rcases plain with reads | ⟨name, reads, absent⟩
    · rw [namesAfter, show Marker.ofLine? delimiter ⟨line.text, 0⟩ = _ from reads]
    · rw [namesAfter, show Marker.ofLine? delimiter ⟨line.text, 0⟩ = _ from reads]
      exact (if_neg fun first => absent (List.mem_of_head? first)).symm
  | leaf reads => rw [namesAfter, show Marker.ofLine? delimiter ⟨line.text, 0⟩ = _ from reads]
  | opening reads =>
    rw [namesAfter, show Marker.ofLine? delimiter ⟨line.text, 0⟩ = _ from reads]
    rfl
  | closing reads =>
    rw [namesAfter, show Marker.ofLine? delimiter ⟨line.text, 0⟩ = _ from reads]
    exact (if_pos rfl).symm

/-! ### Lines that offend -/

/-- The line offends where the names are open, with this defect of the line. -/
inductive Offends (delimiter : Text) : (names : List Text) → (line : Text) → Defect → Prop
  | repeatsKey {names : List Text} {line : Text} {tag : Opening} {before after : List Pair}
      {repeated : Pair} (opens : IsOpening delimiter 0 line tag)
      (split : tag.pairs = before ++ repeated :: after) (distinct : (before.map Pair.key).Nodup)
      (again : repeated.key ∈ before.map Pair.key) :
      Offends delimiter names line ⟨.keyRepeated repeated.key, repeated.offset⟩
  | misnested {inner name line : Text} {outer : List Text}
      (reads : Marker.Reads delimiter line (some (.closing name))) (other : name ≠ inner)
      (isOpen : name ∈ outer) :
      Offends delimiter (inner :: outer) line ⟨.tagUnmatched name (.stillOpen inner), 0⟩

/-- What is wrong with a line by itself is a key that is repeated. -/
theorem Marker.ofLine?_eq_error_iff {line : Text} {defect : Defect} :
    ofLine? delimiter ⟨line, 0⟩ = .error defect ↔
      ∃ tag before repeated after, IsOpening delimiter 0 line tag ∧
        tag.pairs = before ++ repeated :: after ∧ (before.map Pair.key).Nodup ∧
        repeated.key ∈ before.map Pair.key ∧
        defect = ⟨.keyRepeated repeated.key, repeated.offset⟩ := by
  constructor
  · intro failed
    by_cases present : ∃ indent rest, Delimits delimiter indent rest line
    · obtain ⟨indent, rest, delimits⟩ := present
      rw [ofLine?_of_delimits delimits, ofRest?] at failed
      cases read : readOpening? (indent.size + delimiter.size) rest with
      | none =>
        rw [read] at failed
        cases failed
      | some tag =>
        rw [read] at failed
        obtain ⟨before, repeated, after, split, distinct, again, same⟩ :=
          collect_eq_error_iff.mp (map_eq_error_iff.mp failed)
        refine ⟨tag, before, repeated, after, ⟨indent, rest, delimits, ?_⟩, split, distinct, again,
          same⟩
        rw [Nat.zero_add, read]
    · rw [ofLine?_of_not_delimits fun indent rest delimits =>
        present ⟨indent, rest, delimits⟩] at failed
      cases failed
  · rintro ⟨tag, before, repeated, after, ⟨indent, rest, delimits, read⟩, split, distinct, again,
      rfl⟩
    rw [Nat.zero_add] at read
    rw [ofLine?_of_delimits delimits, ofRest?_of_readOpening? read, map_eq_error_iff]
    exact collect_eq_error_iff.mpr ⟨before, repeated, after, split, distinct, again, rfl⟩

theorem Offends.ofLine {outer : List Tag} {line : Text} {found : Defect}
    (offends : Offends delimiter (outer.map Tag.name) line found) (start : Nat) :
    Piece.ofLine delimiter outer ⟨line, start⟩ = .error (found.moved start) := by
  generalize names : outer.map Tag.name = isOpen at offends
  cases offends with
  | repeatsKey opens split distinct again =>
    have failed := Marker.ofLine?_eq_error_iff.mpr ⟨_, _, _, _, opens, split, distinct, again, rfl⟩
    rw [Piece.ofLine, Marker.ofLine?_moved, failed]
    rfl
  | misnested reads other isOpen =>
    obtain ⟨innermost, enclosing, rfl, rfl, rfl⟩ := List.map_eq_cons_iff.mp names
    obtain ⟨tag, inside, same⟩ := List.mem_map.mp isOpen
    have among : (enclosing.any fun tag => tag.name == _) = true :=
      List.any_eq_true.mpr ⟨tag, inside, beq_iff_eq.mpr same⟩
    rw [Piece.ofLine, Marker.ofLine?_eq_ok_iff.mpr reads]
    simp only [bind, Except.bind, if_neg (Ne.symm other), if_pos among]
    rfl

/-- **A line fails exactly if it offends**, and its defect is then that of the line, moved to where
the line starts. -/
theorem Piece.ofLine_eq_error_iff {outer : List Tag} {line : Text} {start : Nat}
    {defect : Defect} :
    ofLine delimiter outer ⟨line, start⟩ = .error defect ↔
      ∃ found, Offends delimiter (outer.map Tag.name) line found ∧ found.moved start = defect := by
  constructor
  · intro failed
    unfold ofLine at failed
    rw [Marker.ofLine?_moved] at failed
    cases read : Marker.ofLine? delimiter ⟨line, 0⟩ with
    | error found =>
      rw [read] at failed
      cases failed
      obtain ⟨tag, before, repeated, after, opens, split, distinct, again, rfl⟩ :=
        Marker.ofLine?_eq_error_iff.mp read
      exact ⟨_, .repeatsKey opens split distinct again, rfl⟩
    | ok marker =>
      rw [read] at failed
      simp only [Except.mapError, bind, Except.bind, pure, Except.pure] at failed
      split at failed
      · cases failed
      · cases failed
      · cases failed
      · rename_i name
        split at failed
        · cases failed
        · rename_i innermost enclosing
          split at failed
          · cases failed
          · rename_i other
            split at failed
            · rename_i among
              cases failed
              obtain ⟨tag, inside, same⟩ := List.any_eq_true.mp among
              exact ⟨_, .misnested read (Ne.symm other)
                (List.mem_map.mpr ⟨tag, inside, beq_iff_eq.mp same⟩), rfl⟩
            · cases failed
  · rintro ⟨found, offends, rfl⟩
    exact offends.ofLine start

/-- A line that is passed does not offend. -/
theorem Piece.Step.not_offends {outer still : List Tag} {line : Text} {start : Nat} {piece : Piece}
    (step : Step delimiter outer ⟨line, start⟩ piece still) (defect : Defect) :
    ¬ Offends delimiter (outer.map Tag.name) line defect := by
  intro offends
  cases (ofLine_eq_ok_iff.mpr step).symm.trans (offends.ofLine start)

/-! ### Lines that are passed -/

/-- The lines, the first of them at `offset`, can be read where the tags are open, and leave these
tags open. -/
inductive Passes (delimiter : Text) : (offset : Nat) → List Tag → List Text → List Tag → Prop
  | nil {offset : Nat} {outer : List Tag} : Passes delimiter offset outer [] outer
  | cons {offset : Nat} {outer still final : List Tag} {line : Text} {piece : Piece}
      {rest : List Text} (step : Piece.Step delimiter outer ⟨line, offset⟩ piece still)
      (later : Passes delimiter (offset + line.size) still rest final) :
      Passes delimiter offset outer (line :: rest) final

namespace Passes

variable {offset : Nat} {outer still : List Tag} {front : List Text}

/-- The first line behind them gives the defect if it offends. -/
theorem ofLines_offends (passes : Passes delimiter offset outer front still) {line : Text}
    {found : Defect} (offends : Offends delimiter (still.map Tag.name) line found)
    (rest : List Text) :
    Piece.ofLines delimiter outer (placeLines offset (front ++ line :: rest)) =
      .error (found.moved (offset + Text.size front.flatten)) := by
  induction passes with
  | nil =>
    rw [List.nil_append, placeLines, Piece.ofLines, offends.ofLine]
    rfl
  | cons step later ih =>
    rw [List.cons_append, placeLines, step.ofLines, ih offends, List.flatten_cons,
      Text.size_append, Nat.add_assoc]
    rfl

theorem map_name (passes : Passes delimiter offset outer front still) :
    still.map Tag.name = front.foldl (namesAfter delimiter) (outer.map Tag.name) := by
  induction passes with
  | nil => rfl
  | cons step later ih => rw [ih, step.map_name, List.foldl_cons]

/-- None of them offends. -/
theorem not_offends (passes : Passes delimiter offset outer front still) {before after : List Text}
    {line : Text} (split : front = before ++ line :: after) (defect : Defect) :
    ¬ Offends delimiter (before.foldl (namesAfter delimiter) (outer.map Tag.name)) line defect := by
  induction passes generalizing before with
  | nil => cases (List.append_eq_nil_iff.mp split.symm).2
  | cons step later ih =>
    cases before with
    | nil =>
      cases split
      exact step.not_offends defect
    | cons first before =>
      obtain ⟨rfl, splitRest⟩ := List.cons.inj split
      rw [List.foldl_cons, ← step.map_name]
      exact ih splitRest

end Passes

/-- **Reading fails** at the first line that offends, or at the end inside a tag. -/
theorem Piece.ofLines_error_cases {offset : Nat} {outer : List Tag} {rows : List Text}
    {defect : Defect} (failed : ofLines delimiter outer (placeLines offset rows) = .error defect) :
    (∃ before line after still found, rows = before ++ line :: after ∧
        Passes delimiter offset outer before still ∧
        Offends delimiter (still.map Tag.name) line found ∧
        defect = found.moved (offset + Text.size before.flatten)) ∨
      ∃ tag still, Passes delimiter offset outer rows (tag :: still) ∧
        defect = ⟨.tagUnmatched tag.name .neverClosed, tag.offset⟩ := by
  induction rows generalizing offset outer with
  | nil =>
    cases outer with
    | nil => cases failed
    | cons tag outer =>
      cases failed
      exact Or.inr ⟨tag, outer, .nil, rfl⟩
  | cons line rest ih =>
    rw [placeLines] at failed
    cases first : ofLine delimiter outer ⟨line, offset⟩ with
    | error other =>
      rw [ofLines, first] at failed
      cases failed
      obtain ⟨found, offends, same⟩ := ofLine_eq_error_iff.mp first
      exact Or.inl ⟨[], line, rest, outer, found, rfl, .nil, offends, same.symm⟩
    | ok done =>
      have step := ofLine_eq_ok_iff.mp (first : _ = Except.ok (done.1, done.2))
      rw [step.ofLines] at failed
      rcases ih (map_eq_error_iff.mp failed) with
        ⟨before, later, after, still, found, rfl, passes, offends, same⟩ |
          ⟨tag, still, passes, same⟩
      · refine Or.inl
          ⟨line :: before, later, after, still, found, rfl, passes.cons step, offends, ?_⟩
        rw [same, List.flatten_cons, Text.size_append, Nat.add_assoc]
      · exact Or.inr ⟨tag, still, passes.cons step, same⟩

/-! ### Where a line offends -/

namespace Offends

variable {names : List Text} {line : Text} {defect : Defect}

/-- The place of the defect is on the line, with some of the line behind it. -/
theorem exists_place (offends : Offends delimiter names line defect) (isLine : line.IsLine) :
    ∃ part word, line = part ++ word ∧ word ≠ [] ∧ defect.offset = part.size := by
  cases offends with
  | @repeatsKey _ _ tag before after repeated opens split distinct again =>
    obtain ⟨inner, written, within, writes⟩ := opens.exists_writesPairs
    have member : repeated ∈ tag.pairs := by
      rw [split]
      exact List.mem_append_right _ List.mem_cons_self
    obtain ⟨here, spelled, place⟩ := writes.hasAt repeated member
    obtain ⟨part, rest, same, size⟩ := within.trans spelled
    refine ⟨part, repeated.key ++ rest, same, ?_, by rw [size, ← place, Nat.zero_add]⟩
    exact List.append_ne_nil_of_left_ne_nil (writes.key_ne_nil repeated member) rest
  | misnested reads other isOpen => exact ⟨[], line, rfl, isLine.ne_nil, rfl⟩

theorem cause_ne_neverClosed (offends : Offends delimiter names line defect) (name : Text) :
    defect.cause ≠ .tagUnmatched name .neverClosed := by
  cases offends with
  | repeatsKey => exact nofun
  | misnested => exact nofun

/-- A line offends only where the delimiter can stand on a line. -/
theorem isUsable (offends : Offends delimiter names line defect) (isLine : line.IsLine) :
    Marker.IsUsable delimiter := by
  refine Marker.isUsable_of_not_reads_none isLine fun plain => ?_
  cases offends with
  | repeatsKey opens split distinct again =>
    cases plain.symm.trans
      (Marker.ofLine?_eq_error_iff.mpr ⟨_, _, _, _, opens, split, distinct, again, rfl⟩)
  | misnested reads => cases plain.unique reads

/-- So does the line with its line feed, or without. -/
theorem of_closeLine (offends : Offends delimiter names line defect) (isLine : line.IsLine)
    {other : Text} (isLineOther : other.IsLine) (same : other.closeLine = line.closeLine) :
    Offends delimiter names other defect := by
  have usable := offends.isUsable isLine
  have read : Marker.ofLine? delimiter ⟨other, 0⟩ = Marker.ofLine? delimiter ⟨line, 0⟩ := by
    rw [← Marker.ofLine?_closeLine usable isLineOther, same, Marker.ofLine?_closeLine usable isLine]
  cases offends with
  | repeatsKey opens split distinct again =>
    have failed := Marker.ofLine?_eq_error_iff.mpr ⟨_, _, _, _, opens, split, distinct, again, rfl⟩
    obtain ⟨tag, before, repeated, after, opens, split, distinct, again, same⟩ :=
      Marker.ofLine?_eq_error_iff.mp (read.trans failed)
    rw [same]
    exact .repeatsKey opens split distinct again
  | misnested reads different isOpen => exact .misnested (read.trans reads) different isOpen

end Offends

end Tag

/-! ### Texts with the same lines up to some line -/

namespace Text

/-- The first lines of the texts are the same, so many of them. The last of these lines may have its
line feed in one of the texts alone. -/
def AgreeThrough (count : Nat) (first second : Text) : Prop :=
  (first.lines.take count).map closeLine = (second.lines.take count).map closeLine

/-- Lines with another one behind them are complete. -/
theorem map_closeLine_eq_self {before after : List Text} {line : Text}
    (lined : Lined (before ++ line :: after)) : before.map closeLine = before := by
  have kept : ∀ row ∈ before, row.closeLine = id row := by
    intro row member
    refine closeLine_eq_self (Or.inr ((lined_iff.mp lined).2 row ?_))
    rw [List.dropLast_append_of_ne_nil (List.cons_ne_nil _ _)]
    exact List.mem_append_left _ member
  rw [List.map_congr_left kept, List.map_id]

/-- Parts of one size that a line starts with, with its line feed or without, are the same. -/
theorem eq_of_closeLine {part word other more : Text}
    (same : (part ++ word).closeLine = (other ++ more).closeLine) (size : part.size = other.size) :
    part = other := by
  have starts (first rest : Text) : ∃ after, (first ++ rest).closeLine = first ++ after := by
    by_cases closed : IsClosed (first ++ rest)
    · exact ⟨rest, closeLine_eq_self closed⟩
    · exact ⟨rest ++ ['\n'], by rw [closeLine_eq_append closed, List.append_assoc]⟩
  obtain ⟨after, split⟩ := starts part word
  obtain ⟨behind, splitOther⟩ := starts other more
  calc
    part = ((part ++ after).cut part.size).1 := by rw [cut_size]
    _ = ((other ++ behind).cut other.size).1 := by rw [← split, same, splitOther, size]
    _ = other := by rw [cut_size]

theorem AgreeThrough.exists_lines {first second line : Text} {before after : List Text}
    (agree : AgreeThrough (before.length + 1) first second)
    (split : first.lines = before ++ line :: after) :
    ∃ other behind, second.lines = before ++ other :: behind ∧
      other.closeLine = line.closeLine := by
  have taken : first.lines.take (before.length + 1) = before ++ [line] := by
    rw [split, List.take_append, List.take_of_length_le (Nat.le_succ _), Nat.add_sub_cancel_left]
    rfl
  have closed : before.map closeLine = before := map_closeLine_eq_self (split ▸ lined_lines first)
  rw [AgreeThrough, taken, List.map_append, closed] at agree
  obtain ⟨front, last, same, frontSame, lastSame⟩ := List.map_eq_append_iff.mp agree.symm
  obtain ⟨other, rfl, otherSame⟩ := List.map_eq_singleton_iff.mp lastSame
  have whole : second.lines = front ++ other :: second.lines.drop (before.length + 1) := by
    rw [← List.singleton_append, ← List.append_assoc, ← same, List.take_append_drop]
  have closedFront := map_closeLine_eq_self (whole ▸ lined_lines second)
  rw [closedFront] at frontSame
  exact ⟨other, _, frontSame ▸ whole, otherSame⟩

end Text

/-! ### Faults -/

namespace Forest

open Tag

variable {delimiter text : Text}

/-- **A text fails** at its first line that offends, or at its end inside a tag. -/
theorem parse_error_cases {fault : Fault} (failed : parse delimiter text = .error fault) :
    (∃ before line after still found, text.lines = before ++ line :: after ∧
        Passes delimiter 0 [] before still ∧ Offends delimiter (still.map Tag.name) line found ∧
        fault = (found.moved (Text.size before.flatten)).locate text) ∨
      ∃ tag still, Passes delimiter 0 [] text.lines (tag :: still) ∧
        fault = Defect.locate text ⟨.tagUnmatched tag.name .neverClosed, tag.offset⟩ := by
  unfold parse at failed
  split at failed
  · cases failed
  · rename_i defect found
    cases failed
    rcases Piece.ofLines_error_cases found with
      ⟨before, line, after, still, inLine, split, passes, offends, rfl⟩ | ⟨tag, still, passes, rfl⟩
    · rw [Nat.zero_add]
      exact Or.inl ⟨before, line, after, still, inLine, split, passes, offends, rfl⟩
    · exact Or.inr ⟨tag, still, passes, rfl⟩

theorem parse_of_offends {before after : List Text} {line : Text} {still : List Tag}
    {found : Defect} (split : text.lines = before ++ line :: after)
    (passes : Passes delimiter 0 [] before still)
    (offends : Offends delimiter (still.map Tag.name) line found) :
    parse delimiter text = .error ((found.moved (Text.size before.flatten)).locate text) := by
  have failed := passes.ofLines_offends offends after
  rw [Nat.zero_add, ← split] at failed
  rw [parse, pieces, linesOf, failed]

/-- **What is behind the first line that offends** takes no part in the fault. -/
theorem parse_of_agree {before after : List Text} {line other : Text} {still : List Tag}
    {found : Defect} (split : text.lines = before ++ line :: after)
    (passes : Passes delimiter 0 [] before still)
    (offends : Offends delimiter (still.map Tag.name) line found)
    (agree : text.AgreeThrough (before.length + 1) other) :
    ∃ fault, parse delimiter other = .error fault ∧ fault.cause = found.cause ∧
      fault.location =
        { Location.ofOffset text (Text.size before.flatten + found.offset) with
          trailing := fault.location.trailing } := by
  obtain ⟨again, behind, splitOther, same⟩ := agree.exists_lines split
  have isLine := Text.isLine_of_lines split
  have isLineAgain := Text.isLine_of_lines splitOther
  have offendsAgain := offends.of_closeLine isLine isLineAgain same
  refine ⟨_, parse_of_offends splitOther passes offendsAgain, rfl, ?_⟩
  obtain ⟨part, word, rfl, filled, place⟩ := offends.exists_place isLine
  obtain ⟨partAgain, wordAgain, rfl, filledAgain, placeAgain⟩ :=
    offendsAgain.exists_place isLineAgain
  obtain rfl := Text.eq_of_closeLine same (placeAgain.symm.trans place)
  show Location.ofOffset other (Text.size before.flatten + found.offset) =
    { Location.ofOffset text (Text.size before.flatten + found.offset) with
      trailing := (Location.ofOffset other (Text.size before.flatten + found.offset)).trailing }
  rw [place, Location.ofOffset_of_lines split rfl filled,
    Location.ofOffset_of_lines splitOther rfl filledAgain]

/-- **The first line that offends decides the fault of a text.** The fault of a repeated key, or of
a close marker that comes too early, is that of the first line that offends, and every text with the
same lines up to that one has it, but for what is shown behind its place. A tag counts as never
closed only if no line offends, and then it is the innermost one that is open at the end. -/
theorem parse_error_decided {fault : Fault} (failed : parse delimiter text = .error fault) :
    ((∃ key, fault.cause = .keyRepeated key) ∨
        (∃ name inner, fault.cause = .tagUnmatched name (.stillOpen inner)) →
      (∃ before line after found, text.lines = before ++ line :: after ∧
        fault.location.row = before.length + 1 ∧
        Offends delimiter (openNames delimiter before) line found ∧ fault.cause = found.cause ∧
        fault.location.offset = Text.size before.flatten + found.offset ∧
        ∀ front passed behind, before = front ++ passed :: behind →
          ∀ defect, ¬ Offends delimiter (openNames delimiter front) passed defect) ∧
      ∀ other, text.AgreeThrough fault.location.row other →
        ∃ again, parse delimiter other = .error again ∧ again.cause = fault.cause ∧
          again.location = { fault.location with trailing := again.location.trailing }) ∧
    ∀ name, fault.cause = .tagUnmatched name .neverClosed →
      (∀ before line after, text.lines = before ++ line :: after →
        ∀ defect, ¬ Offends delimiter (openNames delimiter before) line defect) ∧
      (openNames delimiter text.lines).head? = some name := by
  rcases parse_error_cases failed with
    ⟨before, line, after, still, found, split, passes, offends, rfl⟩ | ⟨tag, still, passes, rfl⟩
  · obtain ⟨row, offset⟩ :
        (Location.ofOffset text (Text.size before.flatten + found.offset)).row =
            before.length + 1 ∧
          (Location.ofOffset text (Text.size before.flatten + found.offset)).offset =
            Text.size before.flatten + found.offset := by
      obtain ⟨part, word, inside, filled, here⟩ :=
        offends.exists_place (Text.isLine_of_lines split)
      rw [here, Location.ofOffset_of_lines split inside filled]
      exact ⟨rfl, rfl⟩
    refine ⟨fun _ => ⟨⟨before, line, after, found, split, row, ?_, rfl, offset, ?_⟩, ?_⟩, ?_⟩
    · rw [openNames, ← List.map_nil, ← passes.map_name]
      exact offends
    · intro front passed behind splitBefore
      exact passes.not_offends splitBefore
    · intro other agree
      refine parse_of_agree split passes offends ?_
      rw [← row]
      exact agree
    · intro name cause
      exact absurd cause (offends.cause_ne_neverClosed name)
  · refine ⟨fun offending => ?_, fun name cause => ⟨fun before line after split => ?_, ?_⟩⟩
    · rcases offending with ⟨key, same⟩ | ⟨name, inner, same⟩ <;> cases same
    · exact passes.not_offends split
    · cases cause
      rw [openNames, ← List.map_nil, ← passes.map_name]
      rfl

/-- A close marker that comes too early in the third line, and whatever comes after it. -/
theorem parse_error_decided_third : ∃ fault,
    parse "//".toList "// <a x=\"1\">\n// <b y=\"\">\n// </a>\nx".toList = .error fault ∧
      fault.cause = .tagUnmatched "a".toList (.stillOpen "b".toList) ∧ fault.location.row = 3 ∧
      ∀ other, Text.AgreeThrough 3 "// <a x=\"1\">\n// <b y=\"\">\n// </a>\nx".toList other →
        ∃ again, parse "//".toList other = .error again ∧ again.cause = fault.cause ∧
          again.location = { fault.location with trailing := again.location.trailing } := by
  have failed : (parse "//".toList "// <a x=\"1\">\n// <b y=\"\">\n// </a>\nx".toList).map
      (fun _ => ()) = .error (Defect.locate "// <a x=\"1\">\n// <b y=\"\">\n// </a>\nx".toList
        ⟨.tagUnmatched "a".toList (.stillOpen "b".toList), 25⟩) := by
    decide +kernel
  have row : (Location.ofOffset "// <a x=\"1\">\n// <b y=\"\">\n// </a>\nx".toList 25).row = 3 := by
    decide +kernel
  have run := map_eq_error_iff.mp failed
  refine ⟨_, run, rfl, row, fun other agree => ?_⟩
  exact ((parse_error_decided run).1 (Or.inr ⟨_, _, rfl⟩)).2 other (by rwa [← row] at agree)

end Forest

end Scaffold
