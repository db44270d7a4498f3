/-
**Forests by byte offsets.**

Plain lines are not taken one by one: the offset of the first one is kept, and the stretch from there
is sliced out where the next marker stands, or where the text ends. The stretches are the plain
pieces of a forest, joined, so the forest is the same.

* `assemble_joined`: neighbouring plain pieces can be joined;
* `follows_piecesFrom`: a stretch that is open ends where the next line starts;
* `parse?_eq`: the forest, or the fault, is that of the model;
* `openMarkers?_eq`: so are the open markers of a text that need not be a forest.
-/

import Scaffold.Proofs.Bytes.Locations
import Scaffold.Proofs.Bytes.Markers

namespace Scaffold

namespace Tag

/-! ### Markers where tags are open -/

/-- The marker that counts where the tags `outer` are open: a close marker of none of them is
text. -/
def Marker.counting? (outer : List Tag) : Option Marker → Option Marker
  | some (.closing name) =>
    if outer.any fun tag => tag.name == name then some (.closing name) else none
  | found => found

/-- The piece that a marker is when the tags `outer` are open, and the tags that are open after
it. -/
def Piece.ofMarker (outer : List Tag) (line : Excerpt) : Marker → Except Defect (Piece × List Tag)
  | .opening name attributes true =>
    .ok (.leaf ⟨name, attributes, line.text, [], line.offset⟩, outer)
  | .opening name attributes false =>
    let tag : Tag := ⟨name, attributes, line.text, [], line.offset⟩
    .ok (.opening tag, tag :: outer)
  | .closing name =>
    match outer with
    | [] => .error ⟨.tagUnmatched name (.stillOpen []), line.offset⟩
    | innermost :: enclosing =>
      if innermost.name = name then .ok (.closing line.text, enclosing)
      else .error ⟨.tagUnmatched name (.stillOpen innermost.name), line.offset⟩

section

variable {delimiter : Text} {outer : List Tag} {line : Excerpt} {found : Option Marker}

/-- A line without a marker that counts is text. -/
theorem Piece.ofLine_of_counting?_none (read : Marker.ofLine? delimiter line = .ok found)
    (plain : Marker.counting? outer found = none) :
    Piece.ofLine delimiter outer line = .ok (.text line.text, outer) := by
  have reads := Marker.ofLine?_eq_ok_iff.mp read
  refine Piece.ofLine_eq_ok_iff.mpr (.text ?_)
  cases found with
  | none => exact Or.inl reads
  | some marker =>
    cases marker with
    | opening name attributes selfClosing => cases plain
    | closing name =>
      refine Or.inr ⟨name, reads, fun member => ?_⟩
      obtain ⟨tag, inside, same⟩ := List.mem_map.mp member
      have isOpen : (outer.any fun tag => tag.name == name) = true :=
        List.any_eq_true.mpr ⟨tag, inside, beq_iff_eq.mpr same⟩
      rw [Marker.counting?, if_pos isOpen] at plain
      cases plain

/-- A marker that counts decides what its line is. -/
theorem Piece.ofLine_of_counting?_some {marker : Marker}
    (read : Marker.ofLine? delimiter line = .ok found)
    (counts : Marker.counting? outer found = some marker) :
    Piece.ofLine delimiter outer line = Piece.ofMarker outer line marker := by
  rw [Piece.ofLine, read]
  cases found with
  | none => cases counts
  | some found =>
    cases found with
    | opening name attributes selfClosing =>
      cases counts
      cases selfClosing <;> rfl
    | closing name =>
      rw [Marker.counting?] at counts
      split at counts
      · rename_i isOpen
        cases counts
        cases outer with
        | nil => cases isOpen
        | cons innermost enclosing =>
          rw [List.any_cons, Bool.or_eq_true, beq_iff_eq] at isOpen
          by_cases same : innermost.name = name
          · simp only [Piece.ofMarker, if_pos same, bind, Except.bind]
            rfl
          · have further := isOpen.resolve_left same
            simp only [Piece.ofMarker, if_neg same, if_pos further, bind, Except.bind]
            rfl
      · cases counts

end

/-! ### Stretches of plain text -/

/-- The plain piece up to an offset, if a stretch of plain text is open. -/
def stretch? (text : Text) (stop : Nat) : (start : Option Nat) → Option (List Piece)
  | none => some []
  | some start => do
    let plain ← text.slice? start stop
    return [.text plain]

/-- The pieces of the lines that are left when the tags `outer` are open, and a stretch of plain text
from `start` on. -/
def piecesFrom? (delimiter text : Text) : (start : Option Nat) → (outer : List Tag) →
    List Excerpt → Checked Defect (List Piece)
  | _, tag :: _, [] => throw ⟨.tagUnmatched tag.name .neverClosed, tag.offset⟩
  | start, [], [] => liftM (stretch? text text.size start)
  | start, outer, line :: rest => do
    match Marker.counting? outer (← Marker.read? delimiter line) with
    | none => piecesFrom? delimiter text (some (start.getD line.offset)) outer rest
    | some marker =>
      let before ← stretch? text line.offset start
      let (piece, still) ← Checked.of (Piece.ofMarker outer line marker)
      let later ← piecesFrom? delimiter text none still rest
      return before ++ piece :: later

/-- What is put in front of pieces is put in front of what they assemble to. -/
theorem assemble_append_congr {own pieces : List Piece} (same : assemble own = assemble pieces)
    (front : List Piece) : assemble (front ++ own) = assemble (front ++ pieces) := by
  induction front with
  | nil => exact same
  | cons piece front ih =>
    rw [List.cons_append, List.cons_append]
    cases piece <;> rw [assemble, assemble, ih]

/-- **Neighbouring plain pieces can be joined.** -/
theorem assemble_joined (first second : Text) (rest : List Piece) :
    assemble (.text (first ++ second) :: rest) = assemble (.text first :: .text second :: rest) := by
  rw [assemble, assemble, assemble]
  cases (assemble rest).1 <;> simp only [Forest.prependText, List.append_assoc]

/-- The pieces assemble to what the others do behind a stretch of plain text. -/
def Joins (pending : Option Text) (own pieces : List Piece) : Prop :=
  assemble own = assemble (pending.toList.map Piece.text ++ pieces)

section

variable {delimiter text : Text}

/-- A stretch that is open can be sliced out up to the place behind it. -/
theorem stretch?_eq {before after : Text} {pending : Option Text}
    (split : text = before ++ (pending.getD [] ++ after)) :
    stretch? text (before.size + Text.size (pending.getD [])) (pending.map fun _ => before.size) =
      some (pending.toList.map Piece.text) := by
  cases pending with
  | none => rfl
  | some plain =>
    rw [split]
    exact congrArg (Option.bind · _) (Text.slice?_append before plain after)

/-- A plain line starts a stretch, or makes the one that is open longer. -/
theorem follows_plain {start : Option Nat} {outer : List Tag} {line : Excerpt}
    {rest : List Excerpt} {found : Option Marker} {pending : Option Text}
    (read : Marker.ofLine? delimiter line = .ok found)
    (plain : Marker.counting? outer found = none)
    (later : Checked.Follows (Joins (some (pending.getD [] ++ line.text)))
      (piecesFrom? delimiter text (some (start.getD line.offset)) outer rest)
      (Piece.ofLines delimiter outer rest)) :
    Checked.Follows (Joins pending) (piecesFrom? delimiter text start outer (line :: rest))
      (Piece.ofLines delimiter outer (line :: rest)) := by
  have step := Piece.ofLine_eq_ok_iff.mp (Piece.ofLine_of_counting?_none read plain)
  rw [step.ofLines, piecesFrom?, Marker.read?_eq, read, Checked.of_ok_bind, plain]
  refine later.map_right fun own pieces joins => joins.trans ?_
  cases pending with
  | none => rfl
  | some stretch => exact assemble_joined stretch line.text pieces

/-- A marker ends the stretch that is open, and none is open behind it. -/
theorem follows_marker {start : Option Nat} {outer : List Tag} {line : Excerpt}
    {rest : List Excerpt} {found : Option Marker} {marker : Marker} {pending : Option Text}
    (read : Marker.ofLine? delimiter line = .ok found)
    (counts : Marker.counting? outer found = some marker)
    (stretch : stretch? text line.offset start = some (pending.toList.map Piece.text))
    (later : ∀ still, Checked.Follows (Joins none) (piecesFrom? delimiter text none still rest)
      (Piece.ofLines delimiter still rest)) :
    Checked.Follows (Joins pending) (piecesFrom? delimiter text start outer (line :: rest))
      (Piece.ofLines delimiter outer (line :: rest)) := by
  have same := Piece.ofLine_of_counting?_some read counts
  rw [piecesFrom?, Marker.read?_eq, read, Checked.of_ok_bind, counts]
  dsimp only
  rw [stretch, Checked.lift_some_bind]
  cases became : Piece.ofMarker outer line marker with
  | error defect =>
    rw [Piece.ofLines, same, became]
    exact .error defect
  | ok made =>
    obtain ⟨piece, still⟩ := made
    have step := Piece.ofLine_eq_ok_iff.mp (same.trans became)
    rw [step.ofLines, Checked.of_ok_bind]
    exact (later still).bind_map fun own pieces joins => .ok
      (assemble_append_congr (assemble_append_congr joins [piece]) _)

/-- **The lines that are left**: a stretch that is open stands right in front of them. -/
theorem follows_piecesFrom (before : Text) (pending : Option Text) (outer : List Tag)
    {rows : List Text} (split : text = before ++ (pending.getD [] ++ rows.flatten)) :
    Checked.Follows (Joins pending)
      (piecesFrom? delimiter text (pending.map fun _ => before.size) outer
        (placeLines (before.size + Text.size (pending.getD [])) rows))
      (Piece.ofLines delimiter outer
        (placeLines (before.size + Text.size (pending.getD [])) rows)) := by
  induction rows generalizing before pending outer with
  | nil =>
    cases outer with
    | nil =>
      have stop : text.size = before.size + Text.size (pending.getD []) := by
        rw [split, List.flatten_nil, List.append_nil, Text.size_append]
      rw [placeLines, piecesFrom?, stop, stretch?_eq split]
      exact .ok (by rw [Joins, List.append_nil])
    | cons tag outer => exact .error _
  | cons line rest ih =>
    rw [placeLines]
    cases read : Marker.ofLine? delimiter ⟨line, before.size + Text.size (pending.getD [])⟩ with
    | error defect =>
      rw [piecesFrom?, Marker.read?_eq, read, Piece.ofLines, Piece.ofLine, read]
      exact .error defect
    | ok found =>
      cases counts : Marker.counting? outer found with
      | none =>
        have kept : (pending.map fun _ => before.size).getD
            (before.size + Text.size (pending.getD [])) = before.size := by
          cases pending <;> rfl
        have later := ih before (some (pending.getD [] ++ line)) outer (by
          rw [split, List.flatten_cons, Option.getD_some, List.append_assoc])
        rw [Option.map_some, Option.getD_some, Text.size_append, ← Nat.add_assoc] at later
        refine follows_plain read counts ?_
        rw [kept]
        exact later
      | some marker =>
        have next : (before ++ (pending.getD [] ++ line)).size =
            before.size + Text.size (pending.getD []) + line.size := by
          rw [Text.size_append, Text.size_append, Nat.add_assoc]
        refine follows_marker read counts (stretch?_eq split) fun still => ?_
        rw [← next]
        refine ih (before ++ (pending.getD [] ++ line)) none still ?_
        rw [split, List.flatten_cons, List.append_assoc, List.append_assoc]
        rfl

end

end Tag

namespace Forest

/-- The pieces of a text. -/
def pieces? (delimiter text : Text) : Checked Defect (List Tag.Piece) :=
  Tag.piecesFrom? delimiter text none [] (Tag.linesOf text)

/-- The forest that a text is. -/
def parse? (delimiter text : Text) : Option (Except Fault Forest) := do
  match ← (pieces? delimiter text).run with
  | .ok pieces => return .ok (Tag.assemble pieces).1
  | .error defect =>
    let fault ← defect.locate? text
    return .error fault

theorem follows_pieces (delimiter text : Text) :
    Checked.Follows (fun own pieces => Tag.assemble own = Tag.assemble pieces)
      (pieces? delimiter text) (pieces delimiter text) := by
  have whole : text = [] ++ ([] ++ text.lines.flatten) := (Text.lines_flatten text).symm
  exact Tag.follows_piecesFrom [] none [] whole

/-- **No text makes the reading of a forest slice or subtract out of range**: it has a result, and
the result is that of the model. -/
theorem parse?_eq (delimiter text : Text) : parse? delimiter text = some (parse delimiter text) := by
  have follows := follows_pieces delimiter text
  rw [parse?, parse]
  cases read : pieces delimiter text with
  | error defect =>
    rw [read] at follows
    rw [show pieces? delimiter text = .of (.error defect) from follows]
    show (defect.locate? text).bind _ = _
    rw [Defect.locate?_eq]
    rfl
  | ok pieces =>
    rw [read] at follows
    obtain ⟨own, run, same⟩ := follows
    rw [run]
    show some (Except.ok (Tag.assemble own).1) = _
    rw [same]

end Forest

namespace Tag

/-! ### Open markers -/

/-- The name and the attributes of a line that is an open marker. A defect is passed over, but only
once its fault is made, with a location. -/
def openMarker? (delimiter text : Text) (line : Excerpt) : Option (Option (Text × Attributes)) := do
  match ← (Marker.read? delimiter line).run with
  | .ok (some (.opening name attributes _)) => return some (name, attributes)
  | .ok _ => return none
  | .error defect =>
    let _ ← defect.locate? text
    return none

/-- The names and attributes on the open markers of a text. -/
def openMarkers? (delimiter text : Text) : Option (List (Text × Attributes)) := do
  let found ← (linesOf text).mapM (openMarker? delimiter text)
  return found.filterMap id

theorem openMarkers?_eq (delimiter text : Text) :
    openMarkers? delimiter text = some (openMarkers delimiter text) := by
  rw [openMarkers?, openMarkers]
  generalize linesOf text = lines
  induction lines with
  | nil => rfl
  | cons line rest ih =>
    obtain ⟨found, others, kept⟩ := Option.bind_eq_some_iff.mp ih
    rw [List.mapM_cons, others, List.filterMap_cons, ← Option.some.inj kept, openMarker?,
      Marker.read?_eq]
    cases Marker.ofLine? delimiter line with
    | error defect =>
      show ((defect.locate? text).bind _ >>= _) >>= _ = _
      rw [Defect.locate?_eq]
      rfl
    | ok found =>
      cases found with
      | none => rfl
      | some marker => cases marker <;> rfl

end Tag

end Scaffold
