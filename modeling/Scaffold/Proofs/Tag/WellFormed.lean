/-
**Which trees are read back as they are.**

Writing a forest and reading the text gives a forest in its settled form. A forest is well formed if
it has that form already (`IsNormal`, `Placed`), its marker lines are what its tags say and its plain
lines are text where they stand (`Fits`), and every line but the last is complete.

* `settle_eq_self`: the form in which a forest is read is its own, if it is normal and placed;
* `normal_settle`: and settling gives no other form;
* `parse_render_eq_iff`: the well-formed forests are those that come back as they were written.
-/

import Scaffold.Proofs.Tag.Lossless

namespace Scaffold.Forest

variable {delimiter : Text}

/-! ### The settled form -/

/-- Whether a forest starts with a plain piece. -/
def startsPlain : Forest → Bool
  | text _ _ => true
  | _ => false

/-- Every plain piece is filled, and none follows another. -/
def IsNormal : Forest → Prop
  | empty => True
  | text content next => content ≠ [] ∧ next.startsPlain = false ∧ next.IsNormal
  | element _ inner next => inner.IsNormal ∧ next.IsNormal

theorem prependText_of_not_startsPlain {forest : Forest} (apart : forest.startsPlain = false)
    (content : Text) : forest.prependText content = text content forest := by
  cases forest with
  | text more next => cases apart
  | empty => rfl
  | element tag inner next => rfl

/-- A forest that is normal and placed is settled. -/
theorem settle_eq_self {offset : Nat} {forest : Forest} (normal : forest.IsNormal)
    (placed : forest.Placed offset) : forest.settle offset = forest := by
  induction forest generalizing offset with
  | empty => rfl
  | text content next ih =>
    obtain ⟨filled, apart, normalNext⟩ := normal
    rw [settle, if_neg filled, ih normalNext placed, prependText_of_not_startsPlain apart]
  | element tag inner next ihInner ihNext =>
    obtain ⟨here, placedInner, placedNext⟩ := placed
    rw [settle, ihInner normal.1 placedInner, ihNext normal.2 placedNext, ← here]

theorem IsNormal.prependText {content : Text} {forest : Forest} (normal : forest.IsNormal)
    (filled : content ≠ []) : (forest.prependText content).IsNormal := by
  cases forest with
  | text more next => exact ⟨List.append_ne_nil_of_left_ne_nil filled more, normal.2⟩
  | empty => exact ⟨filled, rfl, normal⟩
  | element tag inner next => exact ⟨filled, rfl, normal⟩

theorem normal_settle (offset : Nat) (forest : Forest) : (forest.settle offset).IsNormal := by
  induction forest generalizing offset with
  | empty => trivial
  | text content next ih =>
    rw [settle]
    split
    · exact ih offset
    · rename_i filled
      exact (ih _).prependText filled
  | element tag inner next ihInner ihNext => exact ⟨ihInner _, ihNext _⟩

/-! ### Complete lines -/

/-- Every row of a forest that fits is a line. -/
theorem Fits.isLine_of_mem_rows {outer : List Text} {forest : Forest}
    (fits : Fits delimiter outer forest) {row : Text} (member : row ∈ forest.rows) :
    row.IsLine := by
  induction fits with
  | empty => cases member
  | @text outer content next plain fitsNext ih =>
    rcases List.mem_append.mp member with here | later
    · exact (Text.lined_iff.mp (Text.lined_lines content)).1 row here
    · exact ih later
  | @leaf outer tag next isLeaf fitsNext ih =>
    rw [rows, isLeaf.openLine, isLeaf.close] at member
    rcases List.mem_cons.mp member with rfl | later
    · exact isLeaf.openLine
    · exact ih later
  | @pair outer tag inner next isPair fitsInner fitsNext ihInner ihNext =>
    rw [rows, isPair.openLine, isPair.closeLine, List.singleton_append, List.singleton_append]
      at member
    rcases List.mem_cons.mp member with rfl | member
    · exact isPair.openLine
    · rcases List.mem_append.mp member with inside | member
      · exact ihInner inside
      · rcases List.mem_cons.mp member with rfl | later
        · exact isPair.closeLine
        · exact ihNext later

/-! ### Well-formed forests -/

/-- A forest that says everything about its text: plain pieces are as long as they can be, every
marker is a line of its tag and every other line is text where it stands, all lines but the last one
are complete, and the tags are where their offsets say. -/
structure IsWellFormed (delimiter : Text) (forest : Forest) : Prop where
  normal : forest.IsNormal
  fits : Fits delimiter [] forest
  complete : ∀ row ∈ forest.rows.dropLast, row.getLast? = some '\n'
  placed : forest.Placed 0

theorem IsWellFormed.isLined {forest : Forest} (wellFormed : forest.IsWellFormed delimiter) :
    forest.IsLined :=
  Text.lined_iff.mpr
    ⟨fun _ member => wellFormed.fits.isLine_of_mem_rows member, wellFormed.complete⟩

/-- **The well-formed forests are those that are read back as they were written.** -/
theorem parse_render_eq_iff {forest : Forest} :
    parse delimiter forest.render = .ok forest ↔ forest.IsWellFormed delimiter := by
  constructor
  · intro read
    have normal := normal_settle 0 forest
    rw [settle_of_parse read] at normal
    have isLined := (isSealed_of_parse read False.elim).isLined
    exact ⟨normal, (fits_of_parse read).1, (Text.lined_iff.mp isLined).2, placed_of_parse read⟩
  · intro wellFormed
    rw [parse_render wellFormed.fits wellFormed.isLined,
      settle_eq_self wellFormed.normal wellFormed.placed]

end Scaffold.Forest
