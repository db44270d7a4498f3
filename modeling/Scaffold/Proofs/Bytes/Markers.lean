/-
**Marker lines by byte offsets.**

What a line has before its tag is skipped by a difference of sizes. The tag is matched as a whole;
a match is ranges, of the name, of the attributes and, among these, of each key and each value, and
the marker is sliced out by them. An attribute starts where the line, what is before the tag, the
range of the attributes and the attribute's own range say, taken together.

* `WritesPairs.pairsFrom?`: the attributes are sliced out of their list, one after the other;
* `OpeningParts.captures?`: the ranges of an open tag are those of its parts;
* `opening?_eq`, `closing?_eq`: what is sliced out by these ranges is the tag;
* `Marker.read?_eq`: every line is read as the model reads it.
-/

import Scaffold.Proofs.Bytes.Checked
import Scaffold.Proofs.Bytes.Slices
import Scaffold.Proofs.Tag.Defects

namespace Scaffold.Tag

/-! ### Attributes -/

/-- The attribute at an offset of a list, sliced out of it, and the offset after it. -/
def pairAt? (list : Text) (position : Nat) : Option (Option (Pair × Nat)) := do
  let rest ← list.from? position
  match readPair? position rest with
  | none => return none
  | some (found, after) =>
    let stop ← minus? list.size after.size
    let quote ← minus? stop 1
    let start ← minus? quote found.value.size
    let key ← list.slice? found.offset (found.offset + found.key.size)
    let value ← list.slice? start quote
    return some (⟨key, value, found.offset⟩, stop)

/-- The attributes from an offset of a list on. -/
def pairsFrom? (list : Text) (position : Nat) : Checked Defect (List Pair) :=
  Checked.loop (fun position => liftM (pairAt? list position)) (list.size - ·) position

theorem pairAt?_end (list : Text) : pairAt? list list.size = some none := by
  have rest := Text.from?_append list []
  rw [List.append_nil] at rest
  rw [pairAt?, rest]
  rfl

theorem WritesPair.exists_lead {blanks key value written : Text}
    (writes : WritesPair blanks key value written) : ∃ lead, written = lead ++ (value ++ ['"']) := by
  obtain @⟨left, right, filled, inline, isKey, inlineLeft, inlineRight, isValue⟩ := writes
  exact ⟨blanks ++ (key ++ (left ++ '=' :: (right ++ ['"']))), by
    simp only [List.append_assoc, List.cons_append, List.nil_append]⟩

/-- An attribute is sliced out of its list: the value ends one byte before the attribute does. -/
theorem WritesPair.pairAt? {blanks key value written : Text}
    (writes : WritesPair blanks key value written) (before after : Text) :
    pairAt? (before ++ (written ++ after)) before.size =
      some (some (⟨key, value, before.size + blanks.size⟩, before.size + written.size)) := by
  have read := writes.readPair? before.size after
  have stands : (before ++ (written ++ after)).HasAt before.size written :=
    ⟨before, after, rfl, rfl⟩
  obtain ⟨rest, keyed⟩ := writes.exists_rest
  obtain ⟨lead, valued⟩ := writes.exists_lead
  have stop : minus? (before ++ (written ++ after)).size after.size =
      some (before.size + written.size) := by
    rw [← List.append_assoc, Text.minus?_append, Text.size_append]
  have quote : minus? (before.size + written.size) 1 =
      some (before.size + lead.size + value.size) := by
    rw [minus?_eq_some_iff, valued, Text.size_append, Text.size_append]
    show 1 + _ = _ + (_ + (_ + 1))
    omega
  have start : minus? (before.size + lead.size + value.size) value.size =
      some (before.size + lead.size) :=
    minus?_eq_some_iff.mpr (Nat.add_comm _ _)
  have key : (before ++ (written ++ after)).slice? (before.size + blanks.size)
      (before.size + blanks.size + key.size) = some key :=
    (stands.trans (keyed ▸ (Text.HasAt.append_right blanks (key ++ rest)).left)).slice?
  have value : (before ++ (written ++ after)).slice? (before.size + lead.size)
      (before.size + lead.size + value.size) = some value :=
    (stands.trans (valued ▸ (Text.HasAt.append_right lead (value ++ ['"'])).left)).slice?
  simp only [Tag.pairAt?, Text.from?_append, read, stop, quote, start, key, value,
    Option.bind_eq_bind, Option.bind_some]
  rfl

/-- **The attributes of a list** are sliced out of it one by one. -/
theorem WritesPairs.pairsFrom? {offset : Nat} {pairs : List Pair} {written : Text}
    (writes : WritesPairs offset pairs written) (before : Text) (place : before.size = offset) :
    pairsFrom? (before ++ written) offset = .of (.ok pairs) := by
  induction writes generalizing before with
  | nil =>
    subst place
    refine Checked.loop_ended ?_
    rw [List.append_nil, pairAt?_end]
    rfl
  | @cons offset blanks key value first more pairs writesFirst writesMore ih =>
    subst place
    have later := ih (before ++ first) (Text.size_append before first)
    have moved := writesFirst.pairAt? before more
    have closer : (before ++ (first ++ more)).size - (before.size + first.size) <
        (before ++ (first ++ more)).size - before.size := by
      obtain ⟨lead, rfl⟩ := writesFirst.exists_lead
      simp only [Text.size_append, Text.size_cons]
      have := '"'.utf8Size_pos
      omega
    rw [List.append_assoc] at later
    rw [Tag.pairsFrom?, Checked.loop_moved (by rw [moved]; rfl) closer]
    rw [Tag.pairsFrom?] at later
    rw [later, Checked.map_of]
    rfl

/-! ### Open tags -/

/-- The mark of a tag that closes itself. -/
def slashMark (selfClosing : Bool) : Text := if selfClosing then ['/'] else []

theorem tagEnd_eq (selfClosing : Bool) : tagEnd selfClosing = slashMark selfClosing ++ ['>'] := by
  cases selfClosing <;> rfl

/-- The ranges that the parts of an open tag take up. -/
structure Captures where
  name : Nat × Nat
  list : Nat × Nat
  slash : Nat × Nat

/-- The ranges of the open tag that a text is as a whole. -/
def captures? (text : Text) : Option Captures := do
  let tag ← readOpening? 0 text
  let start := Text.size (text.takeWhile Text.isInlineBlank) + 1
  let rest := (readPairs 0 (text.cut (start + tag.name.size)).2).2
  let slash := text.size - Text.size (skipInline rest)
  return {
    name := (start, start + tag.name.size)
    list := (start + tag.name.size, text.size - rest.size)
    slash := (slash, slash + (slashMark tag.selfClosing).size) }

/-- The open tag that a text is as a whole, sliced out of it; the text starts at `offset`. -/
def opening? (offset : Nat) (text : Text) : Checked Defect (Option Opening) :=
  match captures? text with
  | none => return none
  | some ranges => do
    let name ← text.slice? ranges.name.1 ranges.name.2
    let list ← text.slice? ranges.list.1 ranges.list.2
    let pairs ← pairsFrom? list 0
    let slash ← text.slice? ranges.slash.1 ranges.slash.2
    return some ⟨name, pairs.map (Pair.moved (offset + ranges.list.1)), !slash.isEmpty⟩

/-- The parts of an open tag, up to the end of its line. -/
structure OpeningParts (tag : Opening) where
  blanks : Text
  written : Text
  gap : Text
  ending : Text
  pairs : List Pair
  inline : IsInline blanks
  inlineGap : IsInline gap
  writes : WritesPairs 0 pairs written
  moved : tag.pairs = pairs.map (Pair.moved (blanks.size + 1 + tag.name.size))

namespace OpeningParts

variable {tag : Opening} (parts : OpeningParts tag)

/-- The parts behind the attributes. -/
def rest : Text := parts.gap ++ (tagEnd tag.selfClosing ++ parts.ending)

/-- The parts behind the name. -/
def named : Text := parts.written ++ parts.rest

/-- The parts, one after the other. -/
def text : Text := parts.blanks ++ '<' :: (tag.name ++ parts.named)

/-- Where the attributes start. -/
def listStart : Nat := parts.blanks.size + 1 + tag.name.size

/-- Where the mark of a tag that closes itself would be. -/
def slashStart : Nat := parts.listStart + parts.written.size + parts.gap.size

theorem text_eq : parts.text = (parts.blanks ++ '<' :: tag.name) ++ parts.named := by
  rw [text, List.append_assoc, List.cons_append]

theorem size_lead : Text.size (parts.blanks ++ '<' :: tag.name) = parts.listStart := by
  rw [Text.size_append, Text.size_cons, ← Nat.add_assoc]
  rfl

theorem hasAt_name : parts.text.HasAt (parts.blanks.size + 1) (tag.name ++ parts.named) := by
  refine ⟨parts.blanks ++ ['<'], [], ?_, Text.size_append _ _⟩
  rw [List.append_nil, List.append_assoc]
  rfl

theorem hasAt_named : parts.text.HasAt parts.listStart parts.named := parts.hasAt_name.right

theorem hasAt_slash : parts.text.HasAt parts.slashStart (slashMark tag.selfClosing) := by
  have ended := parts.hasAt_named.right.right
  rw [tagEnd_eq, List.append_assoc] at ended
  exact ended.left

/-- What is behind a part takes up the rest of the text. -/
theorem size_text : parts.text.size = parts.listStart + parts.written.size + parts.rest.size := by
  rw [text_eq, Text.size_append, size_lead, named, Text.size_append, Nat.add_assoc]

/-- **The ranges of an open tag** are those of its parts. -/
theorem captures? (read : readOpening? 0 parts.text = some tag) :
    captures? parts.text = some {
      name := (parts.blanks.size + 1, parts.listStart)
      list := (parts.listStart, parts.listStart + parts.written.size)
      slash := (parts.slashStart, parts.slashStart + (slashMark tag.selfClosing).size) } := by
  have blanks : parts.text.takeWhile Text.isInlineBlank = parts.blanks :=
    (takeWhile_eq_and_dropWhile_eq_iff.mpr ⟨rfl, parts.inline, stops_cons (by decide) _⟩).1
  have start : parts.blanks.size + 1 + tag.name.size = parts.listStart := rfl
  have cut : (parts.text.cut parts.listStart).2 = parts.named := by
    rw [text_eq, ← size_lead, Text.cut_size]
  have list : readPairs 0 parts.named = (parts.pairs, parts.rest) :=
    readPairs_eq_iff.mpr ⟨parts.written, parts.writes, endsPairs_tagEnd parts.inlineGap _ _, rfl⟩
  have closed : skipInline parts.rest = tagEnd tag.selfClosing ++ parts.ending :=
    skipInline_tagEnd parts.inlineGap _ _
  have stop : parts.text.size - parts.rest.size = parts.listStart + parts.written.size := by
    rw [size_text, Nat.add_sub_cancel]
  have slash : parts.text.size - Text.size (tagEnd tag.selfClosing ++ parts.ending) =
      parts.slashStart := by
    rw [size_text, rest, Text.size_append, ← Nat.add_assoc, Nat.add_sub_cancel, slashStart]
  simp only [Tag.captures?, read, blanks, Option.bind_eq_bind, Option.bind_some, start, cut, list,
    closed, stop, slash]
  rfl

end OpeningParts

/-- Attributes that are written further on are those at the start, moved. -/
theorem WritesPairs.exists_moved {offset start : Nat} {pairs : List Pair} {written : Text}
    (writes : WritesPairs (offset + start) pairs written) :
    ∃ own, WritesPairs start own written ∧ pairs = own.map (Pair.moved offset) := by
  generalize place : offset + start = shifted at writes
  induction writes generalizing start with
  | nil => exact ⟨[], .nil, rfl⟩
  | @cons shifted blanks key value first more pairs writesFirst writesMore ih =>
    subst place
    obtain ⟨own, writesOwn, rfl⟩ := ih (Nat.add_assoc offset start first.size).symm
    exact ⟨⟨key, value, start + blanks.size⟩ :: own, .cons writesFirst writesOwn, by
      rw [List.map_cons, Pair.moved, Nat.add_assoc]⟩

/-- An open tag has all its parts. -/
theorem exists_openingParts {text : Text} {tag : Opening}
    (read : readOpening? 0 text = some tag) : ∃ parts : OpeningParts tag, parts.text = text := by
  obtain ⟨lead, leads, ended⟩ := readOpening?_eq_some_iff.mp read
  obtain @⟨blanks, written, inline, qualified, writes, filled⟩ := leads
  obtain @⟨gap, ending, inlineGap, isEnd⟩ := ended
  have place : 0 + Text.size (blanks ++ '<' :: tag.name) =
      blanks.size + 1 + tag.name.size + 0 := by
    rw [Text.size_append, Text.size_cons, show '<'.utf8Size = 1 from rfl]
    omega
  obtain ⟨pairs, writesOwn, moved⟩ := (place ▸ writes).exists_moved
  refine ⟨⟨blanks, written, gap, ending, pairs, inline, inlineGap, writesOwn, moved⟩, ?_⟩
  simp only [OpeningParts.text, OpeningParts.named, OpeningParts.rest, List.append_assoc,
    List.cons_append]

/-- **An open tag is sliced out of its text**, and where it starts moves its attributes. -/
theorem opening?_eq (offset : Nat) (text : Text) :
    opening? offset text = .of (.ok (readOpening? offset text)) := by
  rw [← Nat.add_zero offset, readOpening?_moved, Nat.add_zero]
  cases read : readOpening? 0 text with
  | none =>
    have unmatched : captures? text = none := by rw [captures?, read]; rfl
    rw [opening?, unmatched]
    rfl
  | some tag =>
    obtain ⟨parts, rfl⟩ := exists_openingParts read
    have name : parts.text.slice? (parts.blanks.size + 1) parts.listStart = some tag.name :=
      parts.hasAt_name.left.slice?
    have list := parts.hasAt_named.left.slice?
    have pairs : pairsFrom? parts.written 0 = .of (.ok parts.pairs) :=
      parts.writes.pairsFrom? [] rfl
    have slash := parts.hasAt_slash.slice?
    have closes : (!(slashMark tag.selfClosing).isEmpty) = tag.selfClosing := by
      cases tag.selfClosing <;> rfl
    have moved : parts.pairs.map (Pair.moved (offset + parts.listStart)) =
        tag.pairs.map (Pair.moved offset) := by
      rw [parts.moved, List.map_map]
      refine List.map_congr_left fun pair _ => ?_
      rw [Function.comp, Pair.moved, Pair.moved, Pair.moved, Nat.add_assoc]
      rfl
    rw [opening?, parts.captures? read]
    dsimp only
    rw [name, Checked.lift_some_bind, list, Checked.lift_some_bind, pairs, Checked.of_ok_bind, slash,
      Checked.lift_some_bind, closes, moved]
    rfl

/-! ### Close tags and lines -/

/-- The name of the close tag that a text is as a whole, sliced out of it. -/
def closing? (text : Text) : Option (Option Text) :=
  match readClosing? text with
  | none => some none
  | some found => do
    let start := Text.size (text.takeWhile Text.isInlineBlank) + 2
    let name ← text.slice? start (start + found.size)
    return some name

/-- **The name of a close tag is sliced out of its text.** -/
theorem closing?_eq (text : Text) : closing? text = some (readClosing? text) := by
  rw [closing?]
  cases read : readClosing? text with
  | none => rfl
  | some found =>
    obtain ⟨lead, leads, ended⟩ := readClosing?_eq_some_iff.mp read
    obtain @⟨blanks, inline, qualified⟩ := leads
    obtain @⟨gap, ending, inlineGap, isEnd⟩ := ended
    have taken : ((blanks ++ '<' :: '/' :: found) ++ (gap ++ (tagEnd false ++ ending))).takeWhile
        Text.isInlineBlank = blanks := by
      rw [List.append_assoc]
      exact (takeWhile_eq_and_dropWhile_eq_iff.mpr ⟨rfl, inline, stops_cons (by decide) _⟩).1
    have name := Text.slice?_append (blanks ++ ['<', '/']) found (gap ++ (tagEnd false ++ ending))
    rw [Text.size_append] at name
    have same : (blanks ++ ['<', '/']) ++ (found ++ (gap ++ (tagEnd false ++ ending))) =
        (blanks ++ '<' :: '/' :: found) ++ (gap ++ (tagEnd false ++ ending)) := by
      simp only [List.append_assoc, List.cons_append, List.nil_append]
    rw [same] at name
    dsimp only
    rw [taken]
    exact congrArg (Option.bind · _) name

/-- What a line is if it is no text, sliced out of it. -/
def Marker.read? (delimiter : Text) (line : Excerpt) : Checked Defect (Option Marker) := do
  let indent ← minus? line.text.size (Text.size (skipInline line.text))
  let body ← line.text.from? indent
  match body.after? delimiter with
  | none => return none
  | some rest =>
    match ← opening? (line.offset + indent + delimiter.size) rest with
    | some tag =>
      let attributes ← Checked.of (collect .empty tag.pairs)
      return some (.opening tag.name attributes tag.selfClosing)
    | none =>
      let name ← closing? rest
      return name.map .closing

/-- **A line is read on bytes as the model reads it.** -/
theorem Marker.read?_eq (delimiter : Text) (line : Excerpt) :
    Marker.read? delimiter line = .of (Marker.ofLine? delimiter line) := by
  have split : line.text = line.text.takeWhile Text.isInlineBlank ++ skipInline line.text :=
    List.takeWhile_append_dropWhile.symm
  have indent := Text.minus?_append (line.text.takeWhile Text.isInlineBlank) (skipInline line.text)
  have body := Text.from?_append (line.text.takeWhile Text.isInlineBlank) (skipInline line.text)
  rw [← split] at indent body
  rw [Marker.read?, Marker.ofLine?, indent, Checked.lift_some_bind, body, Checked.lift_some_bind]
  cases (skipInline line.text).after? delimiter with
  | none => rfl
  | some rest =>
    dsimp only
    rw [opening?_eq, Checked.of_ok_bind]
    cases readOpening? (line.offset + Text.size (line.text.takeWhile Text.isInlineBlank) +
        delimiter.size) rest with
    | some tag =>
      dsimp only
      cases collect .empty tag.pairs <;> rfl
    | none =>
      dsimp only
      rw [closing?_eq]
      rfl

end Scaffold.Tag
