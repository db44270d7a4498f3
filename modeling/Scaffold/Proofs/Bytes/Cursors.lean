/-
**Cursors in the text of a comment.**

A cursor is a text, the offset at which it starts in the source, and the offset reached in it. What
is left is a slice of the text; whatever the cursor takes is a slice of what is left, and the cursor
moves on by its size. It can be moved to a boundary of the text only (`at?`). A cursor is at an
excerpt if the excerpt is what is left, at the same offset (`Cursor.At`). It is then between two
characters, so that what is left can be sliced, and it stays at an excerpt by each way to move it:

* `At.move?`, `At.advance?`: a cursor can be moved behind a text that it is at;
* `At.skipBlanks?`, `At.identifier?`, `At.leading?`, `At.takeUntilAttribute?`, `At.balanced?`: each
  reader of a cursor has the result of that of the excerpt, and moves by the size of what it took;
* `At.move`: after that, the cursor is at the excerpt behind what was taken.
-/

import Scaffold.Excerpt.Balanced
import Scaffold.Proofs.Bytes.Slices

namespace Scaffold

/-- A text, where it starts in the source, and an offset in it. -/
structure Cursor where
  text : Text
  base : Nat
  position : Nat

namespace Cursor

/-- The cursor at the start of an excerpt. -/
def start (excerpt : Excerpt) : Cursor := ⟨excerpt.text, excerpt.offset, 0⟩

/-- The offset in the source. -/
def offset (cursor : Cursor) : Nat := cursor.base + cursor.position

/-- How many bytes are left. -/
def left (cursor : Cursor) : Nat := cursor.text.size - cursor.position

/-- The cursor at another offset of its text, if that is not inside a character or past the end. -/
def at? (position : Nat) (cursor : Cursor) : Option Cursor :=
  if cursor.text.isBoundary position then some { cursor with position } else none

/-- The cursor so many bytes on. -/
def move? (bytes : Nat) (cursor : Cursor) : Option Cursor := cursor.at? (cursor.position + bytes)

/-- The cursor so many bytes on, or at the end of the text. -/
def advance? (bytes : Nat) (cursor : Cursor) : Option Cursor :=
  cursor.at? (min (cursor.position + bytes) cursor.text.size)

/-- What is left. -/
def rest? (cursor : Cursor) : Option Text := cursor.text.from? cursor.position

/-- The cursor behind blanks. -/
def skipBlanks? (cursor : Cursor) : Option Cursor := do
  let rest ← cursor.rest?
  let blanks ← minus? rest.size (Text.trimStart rest).size
  cursor.move? blanks

/-- The identifier at the cursor, and the cursor behind it. -/
def identifier? (cursor : Cursor) : Option (Option (Text × Cursor)) := do
  let rest ← cursor.rest?
  let size := (Text.identifier rest).1.size
  if size = 0 then return none
  else
    let word ← rest.upTo? size
    let next ← cursor.move? size
    return some (word, next)

/-- What is at the cursor. -/
def leading? (cursor : Cursor) : Option Excerpt.Leading := do
  let rest ← cursor.rest?
  let size := (Text.identifier rest).1.size
  if rest = [] then return .nothing
  else if Excerpt.attributeMarker.isPrefixOf rest then return .attributeMark
  else if size = 0 then return .text
  else
    let after ← rest.from? size
    if after.head? = some '(' then
      let keyword ← rest.upTo? size
      return .invocation keyword
    else return .text

/-- The text before the next attribute marker, and the cursor behind it. -/
def takeUntilAttribute? (cursor : Cursor) : Option (Text × Cursor) := do
  let rest ← cursor.rest?
  let size := (rest.placeOf? Excerpt.attributeMarker).getD rest.size
  let taken ← rest.upTo? size
  let next ← cursor.move? size
  return (taken, next)

/-- The offset right behind a group; the scan has come to `index`. -/
def groupStop? (quotes : List Char) (state : Excerpt.Nesting) (index : Nat) : Text → Option Nat
  | [] => none
  | char :: rest =>
    match state.step quotes char with
    | .inside next => groupStop? quotes next (index + char.utf8Size) rest
    | .ended => some (index + char.utf8Size)
    | .stray => none

/-- The balanced group at the cursor, its delimiters included, and the cursor behind it. -/
def balanced? (quotes : List Char) (cursor : Cursor) : Option (Option (Text × Cursor)) := do
  let rest ← cursor.rest?
  match groupStop? quotes .outside 0 rest with
  | none => return none
  | some stop =>
    let group ← rest.upTo? stop
    let next ← cursor.move? stop
    return some (group, next)

theorem groupStop?_eq (quotes : List Char) (state : Excerpt.Nesting) (index : Nat) (text : Text) :
    groupStop? quotes state index text =
      (Excerpt.groupFrom quotes state text).map fun parts => index + parts.1.size := by
  induction text generalizing state index with
  | nil => rfl
  | cons char rest ih =>
    rw [groupStop?, Excerpt.groupFrom]
    cases state.step quotes char with
    | inside next =>
      dsimp only
      rw [ih, Option.map_map]
      exact congrArg (Option.map · _) (funext fun parts => Nat.add_assoc ..)
    | ended => rfl
    | stray => rfl

/-! ### Cursors at excerpts -/

/-- The cursor so many bytes on, wherever that is. -/
def move (bytes : Nat) (cursor : Cursor) : Cursor :=
  { cursor with position := cursor.position + bytes }

/-- What is left at the cursor is the excerpt. -/
def At (cursor : Cursor) (excerpt : Excerpt) : Prop :=
  ∃ before, cursor.text = before ++ excerpt.text ∧ cursor.position = before.size ∧
    cursor.offset = excerpt.offset

/-- A reader of a cursor in a text has read the same, and the cursor behind it is at the excerpt that
is left. -/
def ReadsAs (text : Text) {α : Type} (own : α × Cursor) (found : α × Excerpt) : Prop :=
  own.1 = found.1 ∧ own.2.At found.2 ∧ own.2.text = text

theorem at_start (excerpt : Excerpt) : (start excerpt).At excerpt := ⟨[], rfl, rfl, rfl⟩

namespace At

variable {cursor : Cursor} {excerpt : Excerpt} {lead rest : Text}

/-- **What is left can be sliced**, since the cursor is between two characters. -/
theorem rest? (isAt : cursor.At excerpt) : cursor.rest? = some excerpt.text := by
  obtain ⟨before, whole, place, -⟩ := isAt
  rw [Cursor.rest?, whole, place]
  exact Text.from?_append before excerpt.text

theorem offset_eq (isAt : cursor.At excerpt) : cursor.offset = excerpt.offset := isAt.choose_spec.2.2

theorem left_eq (isAt : cursor.At excerpt) : cursor.left = excerpt.text.size := by
  obtain ⟨before, whole, place, -⟩ := isAt
  rw [left, whole, place, Text.size_append, Nat.add_sub_cancel_left]

/-- Of two cursors in a text, less is left of the one with fewer characters before it. -/
theorem left_lt {next : Cursor} {later : Excerpt} (isAt : cursor.At excerpt)
    (isNext : next.At later) (same : next.text = cursor.text)
    (shorter : later.text.length < excerpt.text.length) : next.left < cursor.left := by
  rw [isAt.left_eq, isNext.left_eq]
  obtain ⟨before, whole, -, -⟩ := isAt
  obtain ⟨further, again, -, -⟩ := isNext
  obtain ⟨between, split⟩ : later.text <:+ excerpt.text :=
    List.suffix_of_suffix_length_le ⟨further, (again.symm.trans same).trans whole⟩
      ⟨before, rfl⟩ (Nat.le_of_lt shorter)
  have filled : between ≠ [] := by
    rintro rfl
    rw [← split] at shorter
    exact Nat.lt_irrefl _ shorter
  have := Text.size_pos filled
  rw [← split, Text.size_append]
  omega

/-- **A cursor moves** to the excerpt behind a text that it is at. -/
theorem move (isAt : cursor.At excerpt) (split : lead ++ rest = excerpt.text) :
    (cursor.move lead.size).At (excerpt.skip lead rest) := by
  obtain ⟨before, whole, place, here⟩ := isAt
  refine ⟨before ++ lead, ?_, ?_, ?_⟩
  · rw [List.append_assoc]
    show cursor.text = before ++ (lead ++ rest)
    rw [split, whole]
  · rw [Text.size_append, ← place]
    rfl
  · show cursor.base + (cursor.position + lead.size) = excerpt.offset + lead.size
    rw [← here, ← Nat.add_assoc]
    rfl

/-- **A cursor can be moved** there, since that is between two characters again. -/
theorem move? (isAt : cursor.At excerpt) (split : lead ++ rest = excerpt.text) :
    cursor.move? lead.size = some (cursor.move lead.size) := by
  obtain ⟨before, whole, place, -⟩ := isAt
  have boundary : cursor.text.isBoundary (cursor.position + lead.size) = true := by
    rw [whole, ← split, place, ← Text.size_append, ← List.append_assoc]
    exact Text.isBoundary_append (before ++ lead) rest
  rw [Cursor.move?, at?, if_pos boundary]
  rfl

/-- Nothing is clamped where the text goes on. -/
theorem advance? (isAt : cursor.At excerpt) (split : lead ++ rest = excerpt.text) :
    cursor.advance? lead.size = some (cursor.move lead.size) := by
  have moved := isAt.move? split
  obtain ⟨before, whole, place, -⟩ := isAt
  have within : cursor.position + lead.size ≤ cursor.text.size := by
    rw [whole, ← split, place, Text.size_append, Text.size_append]
    omega
  rw [Cursor.advance?, Nat.min_eq_left within]
  exact moved

theorem skipBlanks? (isAt : cursor.At excerpt) :
    cursor.skipBlanks? = some (cursor.move (Text.size (excerpt.text.takeWhile Text.isBlank))) := by
  have blanks := Text.minus?_append (excerpt.text.takeWhile Text.isBlank) excerpt.text.trimStart
  rw [Text.trimStart_append] at blanks
  rw [Cursor.skipBlanks?, isAt.rest?, Option.bind_eq_bind, Option.bind_some, blanks]
  exact isAt.move? (Text.trimStart_append excerpt.text)

theorem identifier? (isAt : cursor.At excerpt) :
    cursor.identifier? =
      some (excerpt.identifier?.map fun found => (found.1, cursor.move found.1.size)) := by
  have word := Text.upTo?_append (Text.identifier excerpt.text).1 (Text.identifier excerpt.text).2
  rw [Text.identifier_append] at word
  rw [Cursor.identifier?, isAt.rest?, Option.bind_eq_bind, Option.bind_some, Excerpt.identifier?]
  dsimp only
  by_cases none : (Text.identifier excerpt.text).1 = []
  · rw [if_pos none, if_pos (Text.size_eq_zero.mpr none)]
    rfl
  · rw [if_neg none, if_neg (mt Text.size_eq_zero.mp none), word, Option.bind_eq_bind,
      Option.bind_some, isAt.move? (Text.identifier_append excerpt.text)]
    rfl

theorem leading? (isAt : cursor.At excerpt) : cursor.leading? = some excerpt.leading := by
  have word := Text.upTo?_append (Text.identifier excerpt.text).1 (Text.identifier excerpt.text).2
  have after := Text.from?_append (Text.identifier excerpt.text).1 (Text.identifier excerpt.text).2
  rw [Text.identifier_append] at word after
  rw [Cursor.leading?, isAt.rest?, Option.bind_eq_bind, Option.bind_some, Excerpt.leading]
  dsimp only
  split
  · rfl
  split
  · rfl
  by_cases none : (Text.identifier excerpt.text).1 = []
  · rw [if_pos (Text.size_eq_zero.mpr none), if_neg fun both => both.1 none]
    rfl
  · rw [if_neg (mt Text.size_eq_zero.mp none), after, Option.bind_some]
    by_cases opens : (Text.identifier excerpt.text).2.head? = some '('
    · rw [if_pos opens, if_pos ⟨none, opens⟩, word]
      rfl
    · rw [if_neg opens, if_neg fun both => opens both.2]
      rfl

theorem takeUntilAttribute? (isAt : cursor.At excerpt) :
    cursor.takeUntilAttribute? =
      some (excerpt.takeUntilAttribute.1, cursor.move excerpt.takeUntilAttribute.1.size) := by
  have taken := Text.upTo?_append (excerpt.text.splitAtFirst Excerpt.attributeMarker).1
    (excerpt.text.splitAtFirst Excerpt.attributeMarker).2
  rw [Text.splitAtFirst_append] at taken
  rw [Cursor.takeUntilAttribute?, isAt.rest?, Option.bind_eq_bind, Option.bind_some,
    Text.getD_placeOf?]
  dsimp only
  rw [taken, Option.bind_eq_bind, Option.bind_some,
    isAt.move? (Text.splitAtFirst_append excerpt.text Excerpt.attributeMarker)]
  rfl

theorem balanced? (isAt : cursor.At excerpt) (quotes : List Char) :
    cursor.balanced? quotes =
      some ((excerpt.balanced? quotes).map fun found => (found.1, cursor.move found.1.size)) := by
  rw [Cursor.balanced?, isAt.rest?, Option.bind_eq_bind, Option.bind_some, groupStop?_eq,
    Excerpt.balanced?]
  cases found : Excerpt.groupFrom quotes .outside excerpt.text with
  | none => rfl
  | some parts =>
    have group := Text.upTo?_append parts.1 parts.2
    rw [Excerpt.groupFrom_append found] at group
    dsimp only [Option.map_some]
    rw [Nat.zero_add, group, Option.bind_eq_bind, Option.bind_some,
      isAt.move? (Excerpt.groupFrom_append found)]
    rfl

/-! ### Behind what was taken -/

theorem move_blanks (isAt : cursor.At excerpt) :
    (cursor.move (Text.size (excerpt.text.takeWhile Text.isBlank))).At excerpt.skipBlanks :=
  isAt.move (Text.trimStart_append excerpt.text)

theorem move_identifier (isAt : cursor.At excerpt) {word : Text} {after : Excerpt}
    (found : excerpt.identifier? = some (word, after)) : (cursor.move word.size).At after := by
  rw [Excerpt.identifier?] at found
  split at found
  · cases found
  · cases found
    exact isAt.move (Text.identifier_append excerpt.text)

theorem move_untilAttribute (isAt : cursor.At excerpt) :
    (cursor.move excerpt.takeUntilAttribute.1.size).At excerpt.takeUntilAttribute.2 :=
  isAt.move (Text.splitAtFirst_append excerpt.text Excerpt.attributeMarker)

theorem move_balanced (isAt : cursor.At excerpt) {quotes : List Char} {group : Text}
    {after : Excerpt} (found : excerpt.balanced? quotes = some (group, after)) :
    (cursor.move group.size).At after := by
  obtain ⟨parts, split, same⟩ := Option.map_eq_some_iff.mp found
  cases same
  exact isAt.move (Excerpt.groupFrom_append split)

end At

end Cursor

end Scaffold
