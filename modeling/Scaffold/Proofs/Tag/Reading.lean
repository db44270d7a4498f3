/-
**What a line is, wherever it stands.**

The offset of a line takes part in the offsets of its defects only (`ofLine?_moved`), so a line
*is* a marker or text by its characters alone (`Marker.Reads`). What a line contributes to a forest
then depends on the names that are open before it: `Piece.Step` lists the four ways, and
`ofLine_eq_ok_iff` says that they are what reading a line does.
-/

import Mathlib.Data.List.Basic
import Scaffold.Proofs.Results
import Scaffold.Tag.Piece

namespace Scaffold

/-- A defect of a text, once more text stands in front of it. -/
def Defect.moved (offset : Nat) (defect : Defect) : Defect :=
  { defect with offset := offset + defect.offset }

namespace Tag

/-! ### Offsets of attributes -/

/-- An attribute of a text, once more text stands in front of it. -/
def Pair.moved (offset : Nat) (pair : Pair) : Pair := { pair with offset := offset + pair.offset }

/-- An open tag of a text, once more text stands in front of it. -/
def Opening.moved (offset : Nat) (tag : Opening) : Opening :=
  { tag with pairs := tag.pairs.map (Pair.moved offset) }

theorem readPair?_moved (offset start : Nat) (text : Text) :
    readPair? (offset + start) text =
      (readPair? start text).map fun found => (found.1.moved offset, found.2) := by
  simp only [readPair?]
  split
  · rfl
  · cases readWord? continuesKey (skipInline text) with
    | none => rfl
    | some word =>
      simp only [bind, Option.bind_some]
      cases expect? '=' (skipInline word.2) with
      | none => rfl
      | some assigned =>
        simp only [Option.bind_some]
        cases expect? '"' (skipInline assigned) with
        | none => rfl
        | some quoted =>
          simp only [Option.bind_some]
          cases expect? '"' (quoted.dropWhile isValueChar) with
          | none => rfl
          | some rest =>
            simp only [Option.bind_some, pure, Option.map_some, Pair.moved, Nat.add_assoc]

theorem readPairs_moved (offset start : Nat) (text : Text) :
    readPairs (offset + start) text =
      ((readPairs start text).1.map (Pair.moved offset), (readPairs start text).2) := by
  fun_induction readPairs start text with
  | case1 start text none =>
    have moved := readPair?_moved offset start text
    rw [none] at moved
    rw [readPairs]
    split
    · rfl
    · rename_i found
      rw [moved] at found
      cases found
  | case2 start text pair rest found shorter more ih =>
    have moved := readPair?_moved offset start text
    rw [found] at moved
    rw [readPairs]
    split
    · rename_i none
      rw [moved] at none
      cases none
    · rename_i pair' rest' again
      rw [moved] at again
      cases again
      rw [Nat.add_assoc, ih]
      rfl

theorem readOpening?_moved (offset start : Nat) (text : Text) :
    readOpening? (offset + start) text = (readOpening? start text).map (Opening.moved offset) := by
  unfold readOpening?
  cases expect? '<' (skipInline text) with
  | none => rfl
  | some tagged =>
    simp only [bind, Option.bind_some]
    cases readName? tagged with
    | none => rfl
    | some named =>
      simp only [Option.bind_some, Nat.add_assoc, readPairs_moved, List.map_eq_nil_iff]
      split
      · rfl
      · split <;> (try split) <;> rfl

theorem collect_moved (offset : Nat) (attributes : Attributes) (pairs : List Pair) :
    collect attributes (pairs.map (Pair.moved offset)) =
      (collect attributes pairs).mapError (Defect.moved offset) := by
  induction pairs generalizing attributes with
  | nil => rfl
  | cons pair rest ih =>
    rw [List.map_cons, collect, collect]
    have same : attributes.insert? (pair.moved offset).key (pair.moved offset).value =
        attributes.insert? pair.key pair.value := rfl
    rw [same]
    cases attributes.insert? pair.key pair.value with
    | none => rfl
    | some more => exact ih more

/-! ### Markers -/

namespace Marker

/-- **The offset of a line moves its defects** and does nothing else. -/
theorem ofLine?_moved (delimiter line : Text) (offset : Nat) :
    ofLine? delimiter ⟨line, offset⟩ =
      (ofLine? delimiter ⟨line, 0⟩).mapError (Defect.moved offset) := by
  unfold ofLine?
  cases (skipInline line).after? delimiter with
  | none => rfl
  | some rest =>
    simp only [Nat.zero_add, Nat.add_assoc]
    rw [readOpening?_moved]
    cases readOpening? (Text.size (line.takeWhile Text.isInlineBlank) + delimiter.size) rest with
    | none => rfl
    | some tag =>
      simp only [Option.map_some, Opening.moved, collect_moved]
      cases collect .empty tag.pairs <;> rfl

/-- A line is this marker, or text if there is none. -/
def Reads (delimiter line : Text) (found : Option Marker) : Prop :=
  ofLine? delimiter ⟨line, 0⟩ = .ok found

instance (delimiter line : Text) (found : Option Marker) : Decidable (Reads delimiter line found) :=
  inferInstanceAs (Decidable (_ = _))

theorem ofLine?_eq_ok_iff {delimiter : Text} {line : Excerpt} {found : Option Marker} :
    ofLine? delimiter line = .ok found ↔ Reads delimiter line.text found := by
  rw [show line = ⟨line.text, line.offset⟩ from rfl, ofLine?_moved, Reads]
  cases ofLine? delimiter ⟨line.text, 0⟩ with
  | error defect => exact ⟨nofun, nofun⟩
  | ok read => exact Iff.rfl

theorem Reads.unique {delimiter line : Text} {first second : Option Marker}
    (readsFirst : Reads delimiter line first) (readsSecond : Reads delimiter line second) :
    first = second :=
  Except.ok.inj (readsFirst.symm.trans readsSecond)

/-- The name on a line that is a close marker. -/
def closingName? (delimiter line : Text) : Option Text :=
  match ofLine? delimiter ⟨line, 0⟩ with
  | .ok (some (.closing name)) => some name
  | _ => none

theorem closingName?_eq_some_iff {delimiter line name : Text} :
    closingName? delimiter line = some name ↔ Reads delimiter line (some (.closing name)) := by
  unfold closingName? Reads
  split
  · rename_i found read
    rw [read]
    simp
  · rename_i other
    exact ⟨nofun, fun read => absurd read (other name)⟩

/-- A line that is text where the names `outer` are open: no marker, or a close marker of none of
them. -/
def IsPlain (delimiter : Text) (outer : List Text) (line : Text) : Prop :=
  Reads delimiter line none ∨ ∃ name, Reads delimiter line (some (.closing name)) ∧ name ∉ outer

end Marker

/-! ### One line -/

/-- What a line contributes where the tags `outer` are open, and the tags that are open after it. -/
inductive Piece.Step (delimiter : Text) : List Tag → Excerpt → Piece → List Tag → Prop
  | text {outer : List Tag} {line : Excerpt}
      (plain : Marker.IsPlain delimiter (outer.map Tag.name) line.text) :
      Step delimiter outer line (.text line.text) outer
  | leaf {outer : List Tag} {line : Excerpt} {name : Text} {attributes : Attributes}
      (reads : Marker.Reads delimiter line.text (some (.opening name attributes true))) :
      Step delimiter outer line (.leaf ⟨name, attributes, line.text, [], line.offset⟩) outer
  | opening {outer : List Tag} {line : Excerpt} {name : Text} {attributes : Attributes}
      (reads : Marker.Reads delimiter line.text (some (.opening name attributes false))) :
      Step delimiter outer line (.opening ⟨name, attributes, line.text, [], line.offset⟩)
        (⟨name, attributes, line.text, [], line.offset⟩ :: outer)
  | closing {innermost : Tag} {enclosing : List Tag} {line : Excerpt}
      (reads : Marker.Reads delimiter line.text (some (.closing innermost.name))) :
      Step delimiter (innermost :: enclosing) line (.closing line.text) enclosing

namespace Piece

/-- **The four ways of reading a line** are all there are. -/
theorem ofLine_eq_ok_iff {delimiter : Text} {outer still : List Tag} {line : Excerpt}
    {piece : Piece} :
    ofLine delimiter outer line = .ok (piece, still) ↔ Step delimiter outer line piece still := by
  constructor
  · intro run
    unfold ofLine at run
    cases read : Marker.ofLine? delimiter line with
    | error defect =>
      rw [read] at run
      cases run
    | ok found =>
      have reads := Marker.ofLine?_eq_ok_iff.mp read
      rw [read] at run
      simp only [bind, Except.bind, pure, Except.pure] at run
      split at run
      · cases run
        exact .text (Or.inl reads)
      · cases run
        exact .leaf reads
      · cases run
        exact .opening reads
      · rename_i name
        split at run
        · cases run
          exact .text (Or.inr ⟨name, reads, List.not_mem_nil⟩)
        · rename_i innermost enclosing
          split at run
          · rename_i same
            cases run
            subst same
            exact .closing reads
          · rename_i different
            split at run
            · cases run
            · rename_i absent
              cases run
              refine .text (Or.inr ⟨name, reads, ?_⟩)
              rw [List.map_cons, List.mem_cons, not_or]
              refine ⟨Ne.symm different, fun member => absent ?_⟩
              obtain ⟨tag, inside, same⟩ := List.mem_map.mp member
              exact List.any_eq_true.mpr ⟨tag, inside, beq_iff_eq.mpr same⟩
  · intro step
    cases step with
    | text plain =>
      rcases plain with reads | ⟨name, reads, absent⟩
      · rw [ofLine, Marker.ofLine?_eq_ok_iff.mpr reads]
        rfl
      · rw [ofLine, Marker.ofLine?_eq_ok_iff.mpr reads]
        cases outer with
        | nil => rfl
        | cons innermost enclosing =>
          rw [List.map_cons, List.mem_cons, not_or] at absent
          have different : innermost.name ≠ name := Ne.symm absent.1
          have none : ¬ (enclosing.any fun tag => tag.name == name) = true := by
            intro some
            obtain ⟨tag, inside, same⟩ := List.any_eq_true.mp some
            exact absent.2 (List.mem_map.mpr ⟨tag, inside, beq_iff_eq.mp same⟩)
          simp only [bind, Except.bind, if_neg different, if_neg none]
          rfl
    | leaf reads =>
      rw [ofLine, Marker.ofLine?_eq_ok_iff.mpr reads]
      rfl
    | opening reads =>
      rw [ofLine, Marker.ofLine?_eq_ok_iff.mpr reads]
      rfl
    | closing reads =>
      rw [ofLine, Marker.ofLine?_eq_ok_iff.mpr reads]
      simp only [bind, Except.bind, if_true]
      rfl

/-! ### All lines -/

/-- The first line done, what is left is reading the others. -/
theorem Step.ofLines {delimiter : Text} {outer still : List Tag} {line : Excerpt} {piece : Piece}
    (step : Step delimiter outer line piece still) (rest : List Excerpt) :
    Piece.ofLines delimiter outer (line :: rest) =
      (Piece.ofLines delimiter still rest).map (piece :: ·) := by
  rw [Piece.ofLines, ofLine_eq_ok_iff.mpr step]
  show (Piece.ofLines delimiter still rest >>= fun pieces => pure (piece :: pieces)) = _
  cases Piece.ofLines delimiter still rest <;> rfl

/-- A text that is read has a first line that is, and the others are read after it. -/
theorem ofLines_cons {delimiter : Text} {outer : List Tag} {line : Excerpt} {rest : List Excerpt}
    {pieces : List Piece} (run : ofLines delimiter outer (line :: rest) = .ok pieces) :
    ∃ piece still more, Step delimiter outer line piece still ∧
      ofLines delimiter still rest = .ok more ∧ pieces = piece :: more := by
  cases first : ofLine delimiter outer line with
  | error defect =>
    rw [ofLines, first] at run
    cases run
  | ok found =>
    have step := ofLine_eq_ok_iff.mp (first : _ = Except.ok (found.1, found.2))
    rw [step.ofLines] at run
    obtain ⟨more, others, same⟩ := map_eq_ok_iff.mp run
    exact ⟨found.1, found.2, more, step, others, same.symm⟩

end Piece

end Tag

end Scaffold
