/-
**Reading undoes writing.**

A text is read as a forest by turning its lines into pieces and putting these together. The pieces
of a forest are known beforehand (`toPieces`), and both steps are followed along the structure of
the forest, with any lines after it:

* `parse_render`: what a forest that fits and is lined is written as reads as that forest, settled;
* `fits_of_parse`: a forest that was read fits, and its rows are the lines of the text.

Together they say which texts can be read and what as.
-/

import Scaffold.Proofs.Tag.Layout
import Scaffold.Tag.Parser

namespace Scaffold

namespace Forest

variable {delimiter : Text}

/-! ### From forests to pieces -/

/-- The pieces that the rows of a forest are, in a text where it starts at `offset`. -/
def toPieces : (offset : Nat) → Forest → List Tag.Piece
  | _, empty => []
  | offset, text content next =>
    content.lines.map .text ++ next.toPieces (offset + content.size)
  | offset, element tag inner next =>
    let after := next.toPieces (offset + (tag.around inner.render).size)
    if tag.isSelfClosing then .leaf { tag with offset } :: after
    else
      .opening { tag with offset, closeMarker := [] } ::
        (inner.toPieces (offset + tag.openMarker.size) ++ .closing tag.closeMarker :: after)

end Forest

namespace Tag

variable {delimiter : Text}

theorem IsLeaf.isSelfClosing {tag : Tag} (isLeaf : tag.IsLeaf delimiter) :
    tag.isSelfClosing = true := by
  rw [Tag.isSelfClosing, isLeaf.close]
  rfl

theorem IsPair.isSelfClosing {tag : Tag} (isPair : tag.IsPair delimiter) :
    tag.isSelfClosing = false :=
  List.isEmpty_eq_false_iff.mpr isPair.closeLine.ne_nil

namespace Piece

/-- Lines of text are read as they are. -/
theorem ofLines_text {outer : List Tag} {lines : List Text}
    (plain : ∀ line ∈ lines, Marker.IsPlain delimiter (outer.map Tag.name) line) (offset : Nat)
    (rest : List Text) :
    ofLines delimiter outer (placeLines offset (lines ++ rest)) =
      (ofLines delimiter outer (placeLines (offset + Text.size lines.flatten) rest)).map
        (lines.map .text ++ ·) := by
  induction lines generalizing offset with
  | nil =>
    show ofLines delimiter outer (placeLines offset rest) = _
    rw [List.flatten_nil, Text.size_nil, Nat.add_zero]
    cases ofLines delimiter outer (placeLines offset rest) <;> rfl
  | cons line lines ih =>
    have first : Step delimiter outer ⟨line, offset⟩ (.text line) outer :=
      .text (plain line List.mem_cons_self)
    rw [List.cons_append, placeLines, first.ofLines,
      ih fun other member => plain other (List.mem_cons_of_mem _ member), List.flatten_cons,
      Text.size_append, Nat.add_assoc]
    cases ofLines delimiter outer (placeLines _ rest) <;> rfl

end Piece

/-- **The rows of a forest are read as its pieces**, whatever comes after them. -/
theorem Piece.ofLines_rows {names : List Text} {forest : Forest}
    (fits : Forest.Fits delimiter names forest) {outer : List Tag}
    (opened : outer.map Tag.name = names) (offset : Nat) (rest : List Text) :
    Piece.ofLines delimiter outer (placeLines offset (forest.rows ++ rest)) =
      (Piece.ofLines delimiter outer (placeLines (offset + forest.render.size) rest)).map
        (forest.toPieces offset ++ ·) := by
  induction fits generalizing outer offset rest with
  | empty =>
    rw [Forest.render, Text.size_nil, Nat.add_zero, Forest.rows, List.nil_append]
    cases Piece.ofLines delimiter outer (placeLines offset rest) <;> rfl
  | @text names content next plain fitsNext ih =>
    rw [Forest.rows, List.append_assoc, Piece.ofLines_text (by rw [opened]; exact plain),
      ih opened, Text.lines_flatten, Forest.render, Text.size_append, Nat.add_assoc,
      Forest.toPieces]
    cases Piece.ofLines delimiter outer (placeLines _ rest) <;> simp [Except.map]
  | @leaf names tag next isLeaf fitsNext ih =>
    have first : Piece.Step delimiter outer ⟨tag.openMarker, offset⟩
        (.leaf ⟨tag.name, tag.attributes, tag.openMarker, [], offset⟩) outer := .leaf isLeaf.opens
    have one : (Forest.element tag .empty next).rows = tag.openMarker :: next.rows := by
      rw [Forest.rows, isLeaf.openLine, isLeaf.close]
      rfl
    have size : (Forest.element tag .empty next).render.size =
        tag.openMarker.size + next.render.size := by
      simp [Forest.render, Tag.around, isLeaf.close]
    rw [one, List.cons_append, placeLines, first.ofLines, ih opened, size, Nat.add_assoc,
      Forest.toPieces, if_pos isLeaf.isSelfClosing]
    have tagged : ({ tag with offset } : Tag) =
        ⟨tag.name, tag.attributes, tag.openMarker, [], offset⟩ := by
      rw [← isLeaf.close]
    have around : tag.around Forest.empty.render = tag.openMarker := by
      simp [Tag.around, Forest.render, isLeaf.close]
    rw [tagged, around]
    cases Piece.ofLines delimiter outer (placeLines _ rest) <;> rfl
  | @pair names tag inner next isPair fitsInner fitsNext ihInner ihNext =>
    have first : Piece.Step delimiter outer ⟨tag.openMarker, offset⟩
        (.opening ⟨tag.name, tag.attributes, tag.openMarker, [], offset⟩)
        (⟨tag.name, tag.attributes, tag.openMarker, [], offset⟩ :: outer) := .opening isPair.opens
    have last : Piece.Step delimiter
        (⟨tag.name, tag.attributes, tag.openMarker, [], offset⟩ :: outer)
        ⟨tag.closeMarker, offset + tag.openMarker.size + inner.render.size⟩
        (.closing tag.closeMarker) outer := .closing isPair.closes
    have split : (Forest.element tag inner next).rows ++ rest =
        tag.openMarker :: (inner.rows ++ (tag.closeMarker :: (next.rows ++ rest))) := by
      rw [Forest.rows, isPair.openLine, isPair.closeLine]
      simp
    have size : offset + tag.openMarker.size + inner.render.size + tag.closeMarker.size =
        offset + (tag.around inner.render).size := by
      simp [Tag.around, Nat.add_assoc]
    rw [split, placeLines, first.ofLines, ihInner (by rw [List.map_cons, opened]), placeLines,
      last.ofLines, ihNext opened, Forest.toPieces,
      if_neg (by rw [isPair.isSelfClosing]; exact Bool.false_ne_true), size, Forest.render,
      Text.size_append, ← Nat.add_assoc]
    cases Piece.ofLines delimiter outer (placeLines _ rest) <;> simp [Except.map]

end Tag

namespace Forest

theorem prependText_prependText (first second : Text) (forest : Forest) :
    (forest.prependText second).prependText first = forest.prependText (first ++ second) := by
  cases forest <;> simp [prependText]

end Forest

namespace Tag

variable {delimiter : Text}

theorem assemble_text (lines : List Text) (rest : List Piece) :
    assemble (lines.map .text ++ rest) =
      (if lines = [] then (assemble rest).1 else (assemble rest).1.prependText lines.flatten,
        (assemble rest).2) := by
  induction lines with
  | nil => rfl
  | cons line lines ih =>
    rw [List.map_cons, List.cons_append, assemble, ih, if_neg (List.cons_ne_nil _ _)]
    by_cases none : lines = []
    · rw [if_pos none, none, List.flatten_singleton]
    · rw [if_neg none, Forest.prependText_prependText, List.flatten_cons]

/-- **Putting the pieces of a forest together** gives the forest in its settled form, if they end
where the text or the element around them does. -/
theorem assemble_toPieces {outer : List Text} {forest : Forest}
    (fits : Forest.Fits delimiter outer forest) (offset : Nat) {rest : List Piece}
    (ends : (assemble rest).1 = .empty) :
    assemble (forest.toPieces offset ++ rest) = (forest.settle offset, (assemble rest).2) := by
  induction fits generalizing offset rest with
  | empty => exact Prod.ext ends rfl
  | @text outer content next plain fitsNext ih =>
    rw [Forest.toPieces, List.append_assoc, assemble_text, ih _ ends, Text.lines_flatten,
      Forest.settle]
    by_cases none : content = []
    · rw [if_pos none, if_pos (Text.lines_eq_nil.mpr none), none, Text.size_nil, Nat.add_zero]
    · rw [if_neg none, if_neg fun nothing => none (Text.lines_eq_nil.mp nothing)]
  | @leaf outer tag next isLeaf fitsNext ih =>
    rw [Forest.toPieces, if_pos isLeaf.isSelfClosing, List.cons_append, assemble, ih _ ends]
    rfl
  | @pair outer tag inner next isPair fitsInner fitsNext ihInner ihNext =>
    rw [Forest.toPieces, if_neg (by rw [isPair.isSelfClosing]; exact Bool.false_ne_true),
      List.cons_append, assemble, List.append_assoc, ihInner _ rfl, List.cons_append, assemble,
      ihNext _ ends]
    rfl

end Tag

/-! ### From pieces to forests -/

/-- Close markers with the forests after them, for the open tags `outer`, the innermost first. -/
inductive Waits (delimiter : Text) : (outer : List Text) → List (Text × Forest) → Prop
  | done : Waits delimiter [] []
  | more {name line : Text} {outer : List Text} {after : Forest} {waiting : List (Text × Forest)}
      (closeLine : line.IsLine) (closes : Tag.Marker.Reads delimiter line (some (.closing name)))
      (fits : Forest.Fits delimiter outer after) (rest : Waits delimiter outer waiting) :
      Waits delimiter (name :: outer) ((line, after) :: waiting)

/-- The rows of close markers and the forests after them. -/
def waitingRows : List (Text × Forest) → List Text
  | [] => []
  | (line, after) :: waiting => line :: (after.rows ++ waitingRows waiting)

namespace Tag

variable {delimiter : Text}

/-- **What is put together fits**, up to the close marker of the innermost tag and after each close
marker, and it has the rows that were read. -/
theorem fits_assemble {outer : List Tag} {rows : List Text} {offset : Nat} {pieces : List Piece}
    (lined : Text.Lined rows)
    (run : Piece.ofLines delimiter outer (placeLines offset rows) = .ok pieces) :
    Forest.Fits delimiter (outer.map Tag.name) (assemble pieces).1 ∧
      Waits delimiter (outer.map Tag.name) (assemble pieces).2 ∧
      (assemble pieces).1.rows ++ waitingRows (assemble pieces).2 = rows := by
  induction rows generalizing outer offset pieces with
  | nil =>
    cases outer with
    | nil =>
      cases run
      exact ⟨.empty, .done, rfl⟩
    | cons tag outer => cases run
  | cons line rest ih =>
    obtain ⟨isLine, linedRest, closed⟩ := Text.lined_cons.mp lined
    obtain ⟨piece, still, more, step, others, rfl⟩ := Piece.ofLines_cons run
    obtain ⟨fits, waits, same⟩ := ih linedRest others
    cases step with
    | text plain =>
      have seam : line.IsClosed ∨ (assemble more).1.rows = [] := by
        refine closed.imp_right fun none => ?_
        rw [none] at same
        exact (List.append_eq_nil_iff.mp same).1
      obtain ⟨fitsFront, rows⟩ := fits.prependText isLine seam plain
      refine ⟨fitsFront, waits, ?_⟩
      show (Forest.prependText line (assemble more).1).rows ++ waitingRows (assemble more).2 = _
      rw [rows, List.cons_append, same]
    | @leaf _ _ name attributes reads =>
      refine ⟨.leaf ⟨isLine, reads, rfl⟩ fits, waits, ?_⟩
      show line.lines ++ ([] ++ (Text.lines [] ++ (assemble more).1.rows)) ++ _ = _
      rw [isLine, ← same]
      rfl
    | @opening _ _ name attributes reads =>
      rw [assemble]
      cases found : (assemble more).2 with
      | nil =>
        rw [found] at waits
        cases waits
      | cons first waiting =>
        obtain ⟨closeMarker, after⟩ := first
        rw [found] at waits same
        cases waits with
        | more closeLine closes fitsAfter waits =>
          refine ⟨.pair ⟨isLine, reads, closeLine, closes⟩ fits fitsAfter, waits, ?_⟩
          show line.lines ++ ((assemble more).1.rows ++ (closeMarker.lines ++ after.rows)) ++ _ = _
          rw [isLine, closeLine, ← same, waitingRows]
          simp
    | @closing innermost enclosing _ reads =>
      refine ⟨.empty, .more isLine reads fits waits, ?_⟩
      show line :: ((assemble more).1.rows ++ waitingRows (assemble more).2) = _
      rw [same]

end Tag

/-! ### Reading and writing -/

namespace Forest

variable {delimiter : Text}

theorem parse_eq_ok_iff {content : Text} {forest : Forest} :
    parse delimiter content = .ok forest ↔
      ∃ found, pieces delimiter content = .ok found ∧ forest = (Tag.assemble found).1 := by
  unfold parse
  cases pieces delimiter content with
  | error defect => exact ⟨nofun, nofun⟩
  | ok found =>
    constructor
    · intro read
      cases read
      exact ⟨found, rfl, rfl⟩
    · rintro ⟨same, read, rfl⟩
      cases read
      rfl

theorem toOption_parse_eq_some_iff {content : Text} {forest : Forest} :
    (parse delimiter content).toOption = some forest ↔ parse delimiter content = .ok forest := by
  cases parse delimiter content with
  | error fault => exact ⟨nofun, nofun⟩
  | ok found => exact ⟨fun same => congrArg Except.ok (Option.some.inj same),
      fun same => congrArg some (Except.ok.inj same)⟩

instance (delimiter content : Text) :
    Decidable (∃ forest, parse delimiter content = .ok forest) :=
  decidable_of_iff ((parse delimiter content).toOption.isSome = true) <| by
    simp only [Option.isSome_iff_exists, toOption_parse_eq_some_iff]

/-- **A forest that was read fits**, and its rows are the lines of the text. -/
theorem fits_of_parse {content : Text} {forest : Forest}
    (read : parse delimiter content = .ok forest) :
    Fits delimiter [] forest ∧ forest.rows = content.lines := by
  obtain ⟨found, run, rfl⟩ := parse_eq_ok_iff.mp read
  obtain ⟨fits, waits, same⟩ := Tag.fits_assemble (Text.lined_lines content) run
  generalize (Tag.assemble found).2 = waiting at waits same
  cases waits
  rw [waitingRows, List.append_nil] at same
  exact ⟨fits, same⟩

/-- What was read is sealed as far as the text is closed. -/
theorem isSealed_of_parse {content : Text} {forest : Forest} {followed : Prop}
    (read : parse delimiter content = .ok forest) (closed : followed → content.IsClosed) :
    forest.IsSealed followed := by
  rw [IsSealed, (fits_of_parse read).2]
  exact Text.sealed_lines.mpr closed

/-- **What a forest is written as reads as that forest**, settled. -/
theorem parse_render {forest : Forest} (fits : Fits delimiter [] forest)
    (lined : forest.IsLined) : parse delimiter forest.render = .ok (forest.settle 0) := by
  have run := Tag.Piece.ofLines_rows fits (show [].map Tag.name = [] from rfl) 0 []
  have ends := Tag.assemble_toPieces fits 0 (show (Tag.assemble []).1 = .empty from rfl)
  rw [List.append_nil] at run ends
  refine parse_eq_ok_iff.mpr ⟨forest.toPieces 0, ?_, by rw [ends]⟩
  rw [pieces, Tag.linesOf, lined.lines_render, run]
  show Except.ok (forest.toPieces 0 ++ []) = _
  rw [List.append_nil]

theorem render_of_parse {content : Text} {forest : Forest}
    (read : parse delimiter content = .ok forest) : forest.render = content := by
  rw [← flatten_rows, (fits_of_parse read).2, Text.lines_flatten]

/-- A forest that was read is settled. -/
theorem settle_of_parse {content : Text} {forest : Forest}
    (read : parse delimiter content = .ok forest) : forest.settle 0 = forest := by
  have isLined := (isSealed_of_parse read False.elim).isLined
  have again := parse_render (fits_of_parse read).1 isLined
  rw [render_of_parse read, read] at again
  exact (Except.ok.inj again).symm

end Forest

end Scaffold
