/-
**Remarks by byte offsets.**

The free text and the attributes of a comment are read with a cursor, one attribute after the other.
At every step the cursor is at what the model has left of the comment, so each slice exists; and an
attribute takes at least its marker, so the loop over attributes gets on.

* `follows_payload`, `follows_attribute`: one attribute;
* `readAttributes?_eq`: the loop;
* `read?_eq`: the remark is that of the model.
-/

import Scaffold.Extraction.Remark
import Scaffold.Proofs.Bytes.Checked
import Scaffold.Proofs.Bytes.Cursors

namespace Scaffold.Remark

open Cursor (ReadsAs)

/-- The payload at a cursor before a brace, and the cursor behind it. -/
def readPayload? (name : Text) (cursor : Cursor) : Checked Defect (Json.Members × Cursor) := do
  match ← cursor.balanced? payloadQuotes with
  | none => throw (.malformed (.unterminatedPayload name) cursor.offset)
  | some (literal, next) =>
    match Json.parse literal with
    | .ok (.object members) => return (members, next)
    | .ok _ => throw (.malformed (.payloadNotObject name) cursor.offset)
    | .error failure => throw (.malformed (.invalidPayload name failure) cursor.offset)

/-- The payload at a cursor, if there is one, and the cursor behind it. -/
def readPayloadIf? (name : Text) (cursor : Cursor) :
    Checked Defect (Option Json.Members × Cursor) := do
  let rest ← cursor.rest?
  if rest.head? = some '\x7b' then
    let (members, next) ← readPayload? name cursor
    return (some members, next)
  else return (none, cursor)

/-- The attribute at a cursor behind its marker, and the cursor behind the attribute. -/
def readAfter? (marker : Nat) (cursor : Cursor) : Checked Defect (Attribute × Cursor) := do
  match ← cursor.identifier? with
  | none => throw (.malformed .missingAttributeName cursor.offset)
  | some (name, named) =>
    let spaced ← named.skipBlanks?
    let (payload, read) ← readPayloadIf? name spaced
    let (text, next) ← read.takeUntilAttribute?
    return (⟨name, marker, payload, text.trim⟩, next)

/-- The attribute at a cursor, if its marker is there, and the cursor behind it. -/
def readAttribute? (cursor : Cursor) : Checked Defect (Option (Attribute × Cursor)) := do
  match ← cursor.leading? with
  | .attributeMark =>
    let opened ← cursor.advance? Excerpt.attributeMarker.size
    let found ← readAfter? cursor.offset opened
    return some found
  | _ => return none

/-- The attributes at a cursor. -/
def readAttributes? (cursor : Cursor) : Checked Defect (List Attribute) :=
  Checked.loop readAttribute? Cursor.left cursor

/-- The remark at a cursor. -/
def read? (cursor : Cursor) : Checked Defect Remark := do
  let (text, next) ← cursor.takeUntilAttribute?
  let attributes ← readAttributes? next
  return ⟨piece? text, attributes⟩

variable {cursor : Cursor} {excerpt : Excerpt}

theorem follows_payload (isAt : cursor.At excerpt) (name : Text) :
    Checked.Follows (ReadsAs cursor.text) (readPayload? name cursor) (payload name excerpt) := by
  rw [readPayload?, isAt.balanced?, Checked.lift_some_bind, payload, isAt.offset_eq]
  cases group : excerpt.balanced? payloadQuotes with
  | none => exact .error _
  | some found =>
    obtain ⟨literal, after⟩ := found
    dsimp only [Option.map_some]
    cases Json.parse literal with
    | error failure => exact .error _
    | ok value =>
      cases value with
      | object members => exact .ok ⟨rfl, isAt.move_balanced group, rfl⟩
      | _ => exact .error _

theorem follows_payload? (isAt : cursor.At excerpt) (name : Text) :
    Checked.Follows (ReadsAs cursor.text) (readPayloadIf? name cursor) (payload? name excerpt) := by
  rw [readPayloadIf?, isAt.rest?, Checked.lift_some_bind, payload?]
  split
  · refine (follows_payload isAt name).map fun own value readsAs => ?_
    obtain ⟨same, left, whole⟩ := readsAs
    exact ⟨congrArg some same, left, whole⟩
  · exact .ok ⟨rfl, isAt, rfl⟩

/-- **An attribute** is read where the model reads it. -/
theorem follows_attribute (isAt : cursor.At excerpt) (marker : Nat) :
    Checked.Follows (ReadsAs cursor.text) (readAfter? marker cursor)
      (attributeAfter marker excerpt) := by
  rw [readAfter?, isAt.identifier?, Checked.lift_some_bind, attributeAfter, isAt.offset_eq]
  cases named : excerpt.identifier? with
  | none => exact .error _
  | some found =>
    obtain ⟨name, after⟩ := found
    have isNamed := isAt.move_identifier named
    dsimp only [Option.map_some]
    rw [isNamed.skipBlanks?, Checked.lift_some_bind]
    refine (follows_payload? isNamed.move_blanks name).bind_map fun own value readsAs => ?_
    obtain ⟨same, isRead, whole⟩ := readsAs
    rw [isRead.takeUntilAttribute?, Checked.lift_some_bind, same]
    exact .ok ⟨rfl, isRead.move_untilAttribute, whole⟩

/-- An attribute's marker is taken before the attribute. -/
theorem readAttribute?_eq (isAt : cursor.At excerpt) {rest : Text}
    (marked : excerpt.text.after? Excerpt.attributeMarker = some rest) :
    readAttribute? cursor =
      some <$> readAfter? excerpt.offset (cursor.move Excerpt.attributeMarker.size) := by
  have split : Excerpt.attributeMarker ++ rest = excerpt.text := (Text.after?_eq_some.mp marked).symm
  have leads : Excerpt.attributeMarker.isPrefixOf excerpt.text = true :=
    List.isPrefixOf_iff_prefix.mpr ⟨rest, split⟩
  have filled : excerpt.text ≠ [] := by
    rw [← split]
    exact List.cons_ne_nil _ _
  have leading : excerpt.leading = .attributeMark := by
    rw [Excerpt.leading, if_neg filled, if_pos leads]
  rw [readAttribute?, isAt.leading?, Checked.lift_some_bind, leading]
  dsimp only
  rw [isAt.advance? split, Checked.lift_some_bind, isAt.offset_eq, map_eq_pure_bind]

/-- Without a marker there is no attribute. -/
theorem readAttribute?_none (isAt : cursor.At excerpt)
    (unmarked : excerpt.text.after? Excerpt.attributeMarker = none) :
    readAttribute? cursor = .of (.ok none) := by
  have absent : ¬ Excerpt.attributeMarker.isPrefixOf excerpt.text = true := by
    intro leads
    obtain ⟨rest, split⟩ := List.isPrefixOf_iff_prefix.mp leads
    rw [Text.after?_eq_some.mpr split.symm] at unmarked
    cases unmarked
  rw [readAttribute?, isAt.leading?, Checked.lift_some_bind]
  rw [Excerpt.leading, if_neg absent]
  split
  · rename_i leading
    split at leading
    · cases leading
    · dsimp only at leading
      split at leading <;> cases leading
  · rfl

/-- **The loop over attributes** gets on, and ends where the model ends. -/
theorem readAttributes?_eq (isAt : cursor.At excerpt) :
    readAttributes? cursor = .of (attributesFrom excerpt) := by
  fun_induction attributesFrom excerpt generalizing cursor with
  | case1 excerpt unmarked => exact Checked.loop_ended (readAttribute?_none isAt unmarked)
  | case2 excerpt rest marked defect failed =>
    have split := (Text.after?_eq_some.mp marked).symm
    have follows := follows_attribute (isAt.move split) excerpt.offset
    rw [failed] at follows
    refine Checked.loop_failed ?_
    rw [readAttribute?_eq isAt marked, show readAfter? _ _ = _ from follows]
    rfl
  | case3 excerpt rest marked first later read shorter ih =>
    have split := (Text.after?_eq_some.mp marked).symm
    have follows := follows_attribute (isAt.move split) excerpt.offset
    rw [read] at follows
    obtain ⟨⟨own, next⟩, step, same, isNext, whole⟩ := follows
    cases same
    have moved : readAttribute? cursor = .of (.ok (some (first, next))) := by
      rw [readAttribute?_eq isAt marked, step]
      rfl
    rw [readAttributes?, Checked.loop_moved moved (isAt.left_lt isNext whole shorter)]
    have others := ih isNext
    rw [readAttributes?] at others
    rw [others, Checked.map_of]

/-- **The remark at a cursor** is that of the excerpt. -/
theorem read?_eq (isAt : cursor.At excerpt) : read? cursor = .of (ofExcerpt excerpt) := by
  have attributes := readAttributes?_eq isAt.move_untilAttribute
  rw [read?, isAt.takeUntilAttribute?, Checked.lift_some_bind, ofExcerpt]
  dsimp only
  rw [attributes, ← map_eq_pure_bind, Checked.map_of]

end Scaffold.Remark
