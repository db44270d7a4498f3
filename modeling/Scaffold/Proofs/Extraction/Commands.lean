/-
**Commands.**

What a comment says up to an attribute does not depend on the attribute, nor on anything after it:
each reader takes the same off a comment that goes on with a marker (`ofExcerpt_extend`). So a
command, wherever it stands, is read on its own: its text is its raw command, up to the next marker,
unless the text starts with a brace. Then a payload is read there, as after any other attribute, and
the raw command is what follows the payload.
-/

import Scaffold.Proofs.Extraction.Notes

namespace Scaffold

open Tag (Stops stops_cons)
open Excerpt (attributeMarker)

/-! ### Searching a text that goes on -/

namespace Text

variable {text needle more : Text}

/-- What is found starts with the word. -/
theorem prefix_of_splitAtFirst (found : (text.splitAtFirst needle).2 ≠ []) :
    needle <+: (text.splitAtFirst needle).2 := by
  induction text with
  | nil => exact absurd rfl found
  | cons char rest ih =>
    rw [splitAtFirst] at found ⊢
    split at found
    · rename_i leads
      rw [if_pos leads]
      exact List.isPrefixOf_iff_prefix.mp leads
    · rename_i apart
      rw [if_neg apart]
      exact ih found

/-- A word that is found is found at the same place if the text goes on. -/
theorem splitAtFirst_append_of_found (found : (text.splitAtFirst needle).2 ≠ []) (more : Text) :
    (text ++ more).splitAtFirst needle =
      ((text.splitAtFirst needle).1, (text.splitAtFirst needle).2 ++ more) := by
  induction text with
  | nil => exact absurd rfl found
  | cons char rest ih =>
    rw [List.cons_append, splitAtFirst, splitAtFirst]
    by_cases leads : needle.isPrefixOf (char :: rest) = true
    · have leadsMore : needle.isPrefixOf (char :: (rest ++ more)) = true :=
        List.isPrefixOf_iff_prefix.mpr
          ((List.isPrefixOf_iff_prefix.mp leads).trans (List.prefix_append _ _))
      rw [if_pos leads, if_pos leadsMore]
      rfl
    · rw [splitAtFirst, if_neg leads] at found
      have fits : needle.length ≤ (char :: rest).length := by
        have within := (prefix_of_splitAtFirst found).length_le
        have whole := congrArg List.length (splitAtFirst_append rest needle)
        rw [List.length_append] at whole
        rw [List.length_cons]
        omega
      have noPrefix : ¬ needle.isPrefixOf (char :: (rest ++ more)) = true := fun leadsMore =>
        leads (List.isPrefixOf_iff_prefix.mpr (List.prefix_of_prefix_length_le
          (List.isPrefixOf_iff_prefix.mp leadsMore) (List.prefix_append (char :: rest) more) fits))
      rw [if_neg leads, if_neg noPrefix, ih found]

/-- A word that is not found is not there. -/
theorem not_infix_of_splitAtFirst (filled : needle ≠ [])
    (absent : (text.splitAtFirst needle).2 = []) : ¬ needle <:+: text := by
  induction text with
  | nil => exact fun inside => filled (List.infix_nil.mp inside)
  | cons char rest ih =>
    rw [splitAtFirst] at absent
    split at absent
    · cases absent
    · rename_i apart
      intro inside
      rcases List.infix_cons_iff.mp inside with leads | later
      · exact apart (List.isPrefixOf_iff_prefix.mpr leads)
      · exact ih absent later

theorem takeWhile_append_of_stops {holds : Char → Bool} (stops : Stops holds more) (text : Text) :
    (text ++ more).takeWhile holds = text.takeWhile holds ∧
      (text ++ more).dropWhile holds = text.dropWhile holds ++ more := by
  refine Tag.takeWhile_eq_and_dropWhile_eq_iff.mpr ⟨?_, fun _ => List.mem_takeWhile_imp,
    (Tag.stops_dropWhile holds text).append stops⟩
  rw [← List.append_assoc, List.takeWhile_append_dropWhile]

theorem identifier_append_of_found (stops : Stops continuesIdentifier more)
    (found : (identifier text).1 ≠ []) :
    identifier (text ++ more) = ((identifier text).1, (identifier text).2 ++ more) := by
  cases text with
  | nil => exact absurd rfl found
  | cons char rest =>
    rw [identifier] at found
    split at found
    · rename_i starts
      obtain ⟨taken, dropped⟩ := takeWhile_append_of_stops stops rest
      rw [List.cons_append, identifier, if_pos starts, identifier, if_pos starts, taken, dropped]
    · exact absurd rfl found

end Text

/-! ### Excerpts that go on -/

namespace Excerpt

variable {excerpt later : Excerpt} {more : Text}

/-- The excerpt with more text after it. -/
def extend (more : Text) (excerpt : Excerpt) : Excerpt := ⟨excerpt.text ++ more, excerpt.offset⟩

/-- Where the excerpt ends. -/
def stop (excerpt : Excerpt) : Nat := excerpt.offset + excerpt.text.size

/-- What is left of an excerpt once something is taken off its front. -/
def IsRest (later excerpt : Excerpt) : Prop :=
  ∃ lead, lead ++ later.text = excerpt.text ∧ later.offset = excerpt.offset + lead.size

/-- No marker starts with the end of the excerpt. -/
def IsApart (excerpt : Excerpt) : Prop := ∀ char ∈ excerpt.text.getLast?, char ∉ attributeMarker

theorem isRest_skip {lead rest : Text} (split : lead ++ rest = excerpt.text) :
    (excerpt.skip lead rest).IsRest excerpt :=
  ⟨lead, split, rfl⟩

namespace IsRest

theorem refl (excerpt : Excerpt) : excerpt.IsRest excerpt := ⟨[], rfl, rfl⟩

theorem trans {last : Excerpt} (second : last.IsRest later) (first : later.IsRest excerpt) :
    last.IsRest excerpt := by
  obtain ⟨lead, split, place⟩ := first
  obtain ⟨more, splitLater, placeLater⟩ := second
  refine ⟨lead ++ more, ?_, ?_⟩
  · rw [List.append_assoc, splitLater, split]
  · rw [placeLater, place, Text.size_append, Nat.add_assoc]

/-- What is left ends where the excerpt does. -/
theorem stop_eq (rest : later.IsRest excerpt) : later.stop = excerpt.stop := by
  obtain ⟨lead, split, place⟩ := rest
  rw [stop, stop, place, ← split, Text.size_append, Nat.add_assoc]

theorem isApart (rest : later.IsRest excerpt) (apart : excerpt.IsApart) : later.IsApart := by
  obtain ⟨lead, split, -⟩ := rest
  intro char last
  refine apart char ?_
  rw [← split, List.getLast?_append, Option.mem_def.mp last]
  rfl

end IsRest

theorem groupFrom_append_of_some {quotes : List Char} {state : Nesting} {text group rest : Text}
    (found : groupFrom quotes state text = some (group, rest)) (more : Text) :
    groupFrom quotes state (text ++ more) = some (group, rest ++ more) := by
  rw [← groupFrom_append found, List.append_assoc]
  exact groupFrom_of_some found (rest ++ more)

section Marked

variable (marked : attributeMarker <+: more)

include marked

/-- A marker ends whatever its first character does not belong to. -/
theorem stops_of_marked {holds : Char → Bool} (other : holds '@' = false) : Stops holds more := by
  obtain ⟨rest, rfl⟩ := marked
  exact stops_cons other _

theorem identifier?_extend {name : Text} (found : excerpt.identifier? = some (name, later)) :
    later.IsRest excerpt ∧ (excerpt.extend more).identifier? = some (name, later.extend more) := by
  unfold identifier? at found
  dsimp only at found
  split at found
  · cases found
  · rename_i filled
    cases found
    refine ⟨isRest_skip (Text.identifier_append excerpt.text), ?_⟩
    have again := Text.identifier_append_of_found (stops_of_marked marked (by decide)) filled
    rw [identifier?, extend]
    dsimp only
    rw [again, if_neg filled]
    rfl

theorem skipBlanks_extend (excerpt : Excerpt) :
    (excerpt.extend more).skipBlanks = excerpt.skipBlanks.extend more := by
  obtain ⟨taken, dropped⟩ := Text.takeWhile_append_of_stops
    (stops_of_marked marked (by decide : Text.isBlank '@' = false)) excerpt.text
  simp only [skipBlanks, skip, extend, Text.trimStart, taken, dropped]

/-- Free text ends at the first marker that comes. -/
theorem takeUntilAttribute_extend (apart : excerpt.IsApart) :
    (excerpt.extend more).takeUntilAttribute =
      (excerpt.takeUntilAttribute.1, excerpt.takeUntilAttribute.2.extend more) := by
  by_cases found : (excerpt.text.splitAtFirst attributeMarker).2 = []
  · have whole := Text.splitAtFirst_append excerpt.text attributeMarker
    rw [found, List.append_nil] at whole
    have parts : Parts excerpt.text more :=
      ⟨Text.not_infix_of_splitAtFirst (by decide) found, fun _ => apart, fun _ => marked⟩
    rw [extend, takeUntilAttribute_of_parts parts, takeUntilAttribute]
    simp only [extend, skip, whole, found, List.nil_append]
  · simp only [takeUntilAttribute, extend, skip, Text.splitAtFirst_append_of_found found]

end Marked

theorem takeUntilAttribute_isRest (excerpt : Excerpt) :
    excerpt.takeUntilAttribute.2.IsRest excerpt :=
  isRest_skip (Text.splitAtFirst_append excerpt.text attributeMarker)

/-- What is left after free text is nothing, or starts with a marker. -/
theorem takeUntilAttribute_marked (excerpt : Excerpt) :
    excerpt.takeUntilAttribute.2.text = [] ∨
      attributeMarker <+: excerpt.takeUntilAttribute.2.text :=
  or_iff_not_imp_left.mpr Text.prefix_of_splitAtFirst

end Excerpt

/-! ### Remarks that go on -/

namespace Remark

variable {excerpt later : Excerpt} {more name : Text}

/-- What is left after an attribute is nothing, or starts with the marker of the next one. -/
theorem attributeAfter_marked {marker : Nat} {item : Attribute}
    (read : attributeAfter marker excerpt = .ok (item, later)) :
    later.text = [] ∨ attributeMarker <+: later.text := by
  obtain ⟨_, _, _, after, -, -, -, rfl⟩ := attributeAfter_eq_ok_iff.mp read
  exact after.takeUntilAttribute_marked

/-- **A payload** is read whatever follows it. -/
theorem payload_extend {object : Json.Members} (more : Text)
    (read : payload name excerpt = .ok (object, later)) :
    later.IsRest excerpt ∧
      payload name (excerpt.extend more) = .ok (object, later.extend more) := by
  obtain ⟨literal, rest, grouped, parsed, rfl⟩ := payload_eq_ok_iff.mp read
  refine ⟨Excerpt.isRest_skip (Excerpt.groupFrom_append grouped), ?_⟩
  exact payload_eq_ok_iff.mpr
    ⟨literal, rest ++ more, Excerpt.groupFrom_append_of_some grouped more, parsed, rfl⟩

section Marked

variable (marked : attributeMarker <+: more)

include marked

theorem payload?_extend {members : Option Json.Members}
    (read : payload? name excerpt = .ok (members, later)) :
    later.IsRest excerpt ∧
      payload? name (excerpt.extend more) = .ok (members, later.extend more) := by
  rcases payload?_eq_ok_iff.mp read with ⟨brace, object, readObject, rfl⟩ | ⟨noBrace, rfl, rfl⟩
  · obtain ⟨isRest, again⟩ := payload_extend more readObject
    refine ⟨isRest, payload?_eq_ok_iff.mpr (Or.inl ⟨?_, object, again, rfl⟩)⟩
    rw [Excerpt.extend, List.head?_append, brace]
    rfl
  · refine ⟨.refl later, payload?_eq_ok_iff.mpr (Or.inr ⟨?_, rfl, rfl⟩)⟩
    obtain ⟨rest, rfl⟩ := marked
    rw [Excerpt.extend, List.head?_append]
    cases starts : later.text.head? with
    | none => exact fun same => absurd (Option.some.inj same) (by decide)
    | some char =>
      rw [starts] at noBrace
      exact noBrace

/-- **An attribute** is read the same if another one follows. -/
theorem attributeAfter_extend {marker : Nat} {item : Attribute} (apart : excerpt.IsApart)
    (read : attributeAfter marker excerpt = .ok (item, later)) :
    later.IsRest excerpt ∧
      attributeAfter marker (excerpt.extend more) = .ok (item, later.extend more) := by
  obtain ⟨name, named, members, after, identified, readPayload, rfl, rfl⟩ :=
    attributeAfter_eq_ok_iff.mp read
  obtain ⟨isRest, again⟩ := Excerpt.identifier?_extend marked identified
  obtain ⟨isRestAfter, againPayload⟩ := payload?_extend marked readPayload
  have blanks : named.skipBlanks.IsRest named :=
    Excerpt.isRest_skip (Text.trimStart_append named.text)
  have left := isRestAfter.trans (blanks.trans isRest)
  have following := Excerpt.takeUntilAttribute_extend marked (left.isApart apart)
  refine ⟨after.takeUntilAttribute_isRest.trans left, attributeAfter_eq_ok_iff.mpr
    ⟨name, named.extend more, members, after.extend more, again, ?_, ?_, ?_⟩⟩
  · rw [Excerpt.skipBlanks_extend marked, againPayload]
  · rw [following]
  · rw [following]

/-- Attributes are read the same if more of them follow. -/
theorem attributesFrom_extend {items : List Attribute}
    (starts : excerpt.text = [] ∨ attributeMarker <+: excerpt.text) (apart : excerpt.IsApart)
    (read : attributesFrom excerpt = .ok items) :
    attributesFrom (excerpt.extend more) =
      (attributesFrom ⟨more, excerpt.stop⟩).map (items ++ ·) := by
  fun_induction attributesFrom excerpt generalizing items with
  | case1 excerpt unmarked =>
    cases read
    have nothing : excerpt.text = [] := starts.resolve_right fun ⟨rest, split⟩ => by
      rw [← split, Text.after?_append] at unmarked
      cases unmarked
    have place : excerpt.extend more = ⟨more, excerpt.stop⟩ := by
      rw [Excerpt.extend, Excerpt.stop, nothing]
      rfl
    rw [place]
    cases attributesFrom ⟨more, excerpt.stop⟩ <;> rfl
  | case2 => cases read
  | case3 excerpt rest begins first later readFirst shorter ih =>
    obtain ⟨others, readOthers, rfl⟩ := map_eq_ok_iff.mp read
    have split : attributeMarker ++ rest = excerpt.text := (Text.after?_eq_some.mp begins).symm
    have isRest : (excerpt.skip attributeMarker rest).IsRest excerpt := Excerpt.isRest_skip split
    obtain ⟨isRestLater, again⟩ := attributeAfter_extend marked (isRest.isApart apart) readFirst
    have left := isRestLater.trans isRest
    have beginsMore : (excerpt.extend more).text.after? attributeMarker = some (rest ++ more) := by
      rw [Excerpt.extend, ← split, List.append_assoc, Text.after?_append]
    rw [attributesFrom_of_marked beginsMore again,
      ih (attributeAfter_marked readFirst) (left.isApart apart) readOthers,
      left.stop_eq]
    cases attributesFrom ⟨more, excerpt.stop⟩ <;> rfl

/-- **A remark** is read the same if an attribute follows. -/
theorem ofExcerpt_extend {before : Remark} (apart : excerpt.IsApart)
    (read : ofExcerpt excerpt = .ok before) :
    ofExcerpt (excerpt.extend more) =
      (attributesFrom ⟨more, excerpt.stop⟩).map fun after =>
        ⟨before.text, before.attributes ++ after⟩ := by
  obtain ⟨items, readItems, rfl⟩ := map_eq_ok_iff.mp read
  have left := excerpt.takeUntilAttribute_isRest
  have again := attributesFrom_extend marked excerpt.takeUntilAttribute_marked
    (left.isApart apart) readItems
  rw [ofExcerpt, Excerpt.takeUntilAttribute_extend marked apart]
  dsimp only
  rw [again, left.stop_eq]
  cases attributesFrom ⟨more, excerpt.stop⟩ <;> rfl

end Marked

/-! ### The text of a command -/

/-- Attributes that are read at a marker are the one there and those after it. -/
theorem exists_of_attributesFrom {rest : Text} {items : List Attribute}
    (begins : excerpt.text.after? attributeMarker = some rest)
    (read : attributesFrom excerpt = .ok items) :
    ∃ first later others,
      attributeAfter excerpt.offset (excerpt.skip attributeMarker rest) = .ok (first, later) ∧
        attributesFrom later = .ok others ∧ items = first :: others := by
  cases readFirst : attributeAfter excerpt.offset (excerpt.skip attributeMarker rest) with
  | error defect =>
    rw [attributesFrom] at read
    split at read
    · rename_i none
      cases none.symm.trans begins
    · rename_i found
      cases found.symm.trans begins
      split at read
      · cases read
      · rename_i done
        cases done.symm.trans readFirst
  | ok pair =>
    obtain ⟨first, later⟩ := pair
    rw [attributesFrom_of_marked begins readFirst] at read
    obtain ⟨others, readOthers, same⟩ := map_eq_ok_iff.mp read
    exact ⟨first, later, others, rfl, readOthers, same.symm⟩

theorem isApart_of_getLast? {front : Text} (apart : front.getLast? ≠ some '@') (offset : Nat) :
    Excerpt.IsApart ⟨front, offset⟩ := by
  intro char ends inside
  have isMarker : char = '@' := by simpa [attributeMarker] using inside
  exact apart (isMarker ▸ ends)

/-- **A comment is read** if what stands before a marker is, and the attribute there, and those after
it. -/
theorem ofExcerpt_of_attributeAfter {front rest : Text} {offset : Nat} {before : Remark}
    {item : Attribute} {after : List Attribute} (clean : ofExcerpt ⟨front, offset⟩ = .ok before)
    (apart : front.getLast? ≠ some '@')
    (read : attributeAfter (offset + front.size)
      ⟨rest, offset + front.size + attributeMarker.size⟩ = .ok (item, later))
    (cleanAfter : attributesFrom later = .ok after) :
    ofExcerpt ⟨front ++ (attributeMarker ++ rest), offset⟩ =
      .ok ⟨before.text, before.attributes ++ item :: after⟩ := by
  have whole : ofExcerpt ⟨front ++ (attributeMarker ++ rest), offset⟩ = _ :=
    ofExcerpt_extend (List.prefix_append attributeMarker rest) (isApart_of_getLast? apart _) clean
  have attributes : attributesFrom ⟨attributeMarker ++ rest, offset + front.size⟩ = _ :=
    attributesFrom_of_marked (Text.after?_append attributeMarker rest) read
  rw [cleanAfter] at attributes
  rw [whole, Excerpt.stop, attributes]
  rfl

/-- A comment that is read has an attribute at each marker that follows what can be read. -/
theorem exists_of_ofExcerpt {front rest : Text} {offset : Nat} {before remark : Remark}
    (clean : ofExcerpt ⟨front, offset⟩ = .ok before) (apart : front.getLast? ≠ some '@')
    (read : ofExcerpt ⟨front ++ (attributeMarker ++ rest), offset⟩ = .ok remark) :
    ∃ item left later, attributeAfter (offset + front.size)
        ⟨rest, offset + front.size + attributeMarker.size⟩ = .ok (item, left) ∧
      remark = ⟨before.text, before.attributes ++ item :: later⟩ := by
  have whole : ofExcerpt ⟨front ++ (attributeMarker ++ rest), offset⟩ = _ :=
    ofExcerpt_extend (List.prefix_append attributeMarker rest) (isApart_of_getLast? apart _) clean
  rw [whole] at read
  obtain ⟨items, readItems, rfl⟩ := map_eq_ok_iff.mp read
  obtain ⟨item, left, later, readItem, -, rfl⟩ :=
    exists_of_attributesFrom (Text.after?_append attributeMarker rest) readItems
  exact ⟨item, left, later, readItem, rfl⟩

/-- The text of the last command is the raw command. -/
theorem rawCommand_of_last {text : Option Text} {before after : List Attribute} {item : Attribute}
    (named : item.name = commandName) (last : ∀ other ∈ after, other.name ≠ commandName) :
    rawCommand ⟨text, before ++ item :: after⟩ = item.text := by
  have none : after.reverse.find? (fun other => other.name == commandName) = none :=
    List.find?_eq_none.mpr fun other member => by
      simpa using last other (List.mem_reverse.mp member)
  rw [rawCommand]
  simp only [List.reverse_append, List.reverse_cons, List.append_assoc, List.find?_append, none,
    Option.none_or, List.singleton_append, List.find?_cons, named, beq_self_eq_true]

section Command

variable {blanks body back : Text} (spaced : blanks ≠ [])
  (blank : ∀ char ∈ blanks, Text.isBlank char = true)

include spaced blank

theorem stops_of_spaced (rest : Text) : Stops Text.continuesIdentifier (blanks ++ rest) := by
  obtain ⟨first, others, rfl⟩ := List.exists_cons_of_ne_nil spaced
  exact stops_cons (Text.continuesIdentifier_of_isBlank (blank first List.mem_cons_self)) _

/-- Text after a name and blanks is the text of the attribute, up to the next marker. -/
theorem attributeAfter_of_text (isName : Text.isIdentifier name = true)
    (parts : Excerpt.Parts body back) (noBrace : body.trimStart.head? ≠ some '\x7b')
    (marker offset : Nat) :
    attributeAfter marker ⟨name ++ (blanks ++ (body ++ back)), offset⟩ =
      .ok (⟨name, marker, none, body.trim⟩,
        ⟨back, offset + Text.size (name ++ (blanks ++ body))⟩) := by
  have other : ∀ char ∈ blanks, char ∉ attributeMarker := by
    intro char member inside
    have isMarker : char = '@' := by simpa [attributeMarker] using inside
    have := blank char member
    rw [isMarker] at this
    exact absurd this (by decide)
  have whole := parts.prepend other
  have trimmed : (blanks ++ body).trim = body.trim := by
    have same := Text.trim_append blank (List.forall_mem_nil _) body
    rwa [List.append_nil] at same
  have start : (blanks ++ body).trimStart = body.trimStart := List.dropWhile_append_of_pos blank
  have text : Excerpt.Parts (blanks ++ body).trimStart back :=
    whole.of_suffix (List.dropWhile_suffix Text.isBlank)
  have counted : Text.size ((blanks ++ body).takeWhile Text.isBlank) +
      (blanks ++ body).trimStart.size = (blanks ++ body).size := by
    rw [← Text.size_append, Text.trimStart_append]
  have read := payload?_of_parts whole (start ▸ noBrace) name (offset + name.size)
  rw [attributeAfter, Excerpt.identifier?_append isName (stops_of_spaced spaced blank _)]
  dsimp only
  rw [← List.append_assoc, read, Except.map]
  dsimp only
  rw [Excerpt.takeUntilAttribute_of_parts text, Text.trim_trimStart, trimmed, Nat.add_assoc,
    Nat.add_assoc, counted, Text.size_append name]

section Braced

variable (brace : body.trimStart.head? = some '\x7b')

include brace

omit spaced in
theorem skipBlanks_of_brace (back : Text) (offset : Nat) :
    Excerpt.skipBlanks ⟨blanks ++ (body ++ back), offset⟩ =
      ⟨body.trimStart ++ back, offset + Text.size (blanks ++ body.takeWhile Text.isBlank)⟩ := by
  have stops : Stops Text.isBlank (body.trimStart ++ back) := by
    obtain ⟨more, split⟩ := List.head?_eq_some_iff.mp brace
    rw [split]
    exact stops_cons (by decide) _
  have blankAll : ∀ char ∈ blanks ++ body.takeWhile Text.isBlank, Text.isBlank char = true :=
    List.forall_mem_append.mpr ⟨blank, fun _ => List.mem_takeWhile_imp⟩
  have skipped := Excerpt.skipBlanks_append blankAll stops offset
  rwa [List.append_assoc, ← List.append_assoc (body.takeWhile _), Text.trimStart_append] at skipped

/-- After a name and blanks, a brace opens a payload; the text of the attribute follows it. -/
theorem exists_payload_of_brace {marker offset : Nat} {item : Attribute}
    (isName : Text.isIdentifier name = true)
    (read : attributeAfter marker ⟨name ++ (blanks ++ (body ++ back)), offset⟩ =
      .ok (item, later)) :
    ∃ literal rest members, body.trimStart ++ back = literal ++ rest ∧
      Json.parse literal = .ok (.object members) ∧
      item = ⟨name, marker, some members, (rest.splitAtFirst attributeMarker).1.trim⟩ := by
  have starts : (body.trimStart ++ back).head? = some '\x7b' := by
    rw [List.head?_append, brace]
    rfl
  obtain ⟨name, named, members, after, identified, readPayload, rfl, -⟩ :=
    attributeAfter_eq_ok_iff.mp read
  rw [Excerpt.identifier?_append isName (stops_of_spaced spaced blank _)] at identified
  cases identified
  rw [skipBlanks_of_brace blank brace] at readPayload
  rcases payload?_eq_ok_iff.mp readPayload with ⟨-, object, readObject, rfl⟩ | ⟨noBrace, -⟩
  · obtain ⟨literal, rest, grouped, parsed, rfl⟩ := payload_eq_ok_iff.mp readObject
    exact ⟨literal, rest, object, (Excerpt.groupFrom_append grouped).symm, parsed, rfl⟩
  · exact absurd starts noBrace

/-- An object at the front of the text is the payload, and the text of the attribute is the rest. -/
theorem attributeAfter_of_object {literal tail : Text} {members : Json.Members}
    (isName : Text.isIdentifier name = true) (parts : Excerpt.Parts body back)
    (grouped : Excerpt.groupFrom payloadQuotes .outside body.trimStart = some (literal, tail))
    (parsed : Json.parse literal = .ok (.object members)) (marker offset : Nat) :
    attributeAfter marker ⟨name ++ (blanks ++ (body ++ back)), offset⟩ =
      .ok (⟨name, marker, some members, tail.trim⟩,
        ⟨back, offset + Text.size (name ++ (blanks ++ body))⟩) := by
  have starts : (body.trimStart ++ back).head? = some '\x7b' := by
    rw [List.head?_append, brace]
    rfl
  have split : literal ++ tail = body.trimStart := Excerpt.groupFrom_append grouped
  have ends : Excerpt.Parts tail back :=
    (parts.of_suffix (List.dropWhile_suffix Text.isBlank)).of_suffix ⟨literal, split⟩
  have read (offset : Nat) : payload? name ⟨body.trimStart ++ back, offset⟩ =
      .ok (some members, ⟨tail ++ back, offset + literal.size⟩) := by
    have group := Excerpt.groupFrom_append_of_some grouped back
    have object : payload name ⟨body.trimStart ++ back, offset⟩ =
        .ok (members, ⟨tail ++ back, offset + literal.size⟩) :=
      payload_eq_ok_iff.mpr ⟨literal, tail ++ back, group, parsed, rfl⟩
    exact payload?_eq_ok_iff.mpr (Or.inl ⟨starts, members, object, rfl⟩)
  have counted : Text.size (body.takeWhile Text.isBlank) + (literal.size + tail.size) =
      body.size := by
    rw [← Text.size_append literal, split, ← Text.size_append, Text.trimStart_append]
  rw [attributeAfter, Excerpt.identifier?_append isName (stops_of_spaced spaced blank _)]
  dsimp only
  rw [skipBlanks_of_brace blank brace, read, Except.map]
  dsimp only
  rw [Excerpt.takeUntilAttribute_of_parts ends]
  simp only [Text.size_append, ← counted, Nat.add_assoc]

end Braced

end Command

/-- **The raw command of a comment** whose last command is followed by blanks and a text: it is the
text up to the next marker, trimmed, unless the text starts with a brace. Then the comment can be
read only if an object is written there, and the raw command is what follows the object; it can be
read if the object ends in the text. No marker starts with the end of what stands before the command,
since in three signs the first two are the marker. -/
theorem rawCommand_of_command {front blanks body back : Text} {offset : Nat} {before : Remark}
    {after : List Attribute} (clean : ofExcerpt ⟨front, offset⟩ = .ok before)
    (apart : front.getLast? ≠ some '@') (spaced : blanks ≠ [])
    (blank : ∀ char ∈ blanks, Text.isBlank char = true) (parts : Excerpt.Parts body back)
    (cleanAfter : attributesFrom ⟨back, offset +
      Text.size (front ++ (attributeMarker ++ (commandName ++ (blanks ++ body))))⟩ = .ok after)
    (last : ∀ item ∈ after, item.name ≠ commandName) :
    let comment : Excerpt :=
      ⟨front ++ (attributeMarker ++ (commandName ++ (blanks ++ (body ++ back)))), offset⟩
    (body.trimStart.head? ≠ some '\x7b' →
      ∃ remark, ofExcerpt comment = .ok remark ∧ remark.rawCommand = body.trim) ∧
    (body.trimStart.head? = some '\x7b' →
      (∀ remark, ofExcerpt comment = .ok remark →
        ∃ literal rest members item later, body.trimStart ++ back = literal ++ rest ∧
          Json.parse literal = .ok (.object members) ∧
          item.payload = some members ∧
          item.text = (rest.splitAtFirst attributeMarker).1.trim ∧
          remark.attributes = before.attributes ++ item :: later ∧
          ((∀ other ∈ later, other.name ≠ commandName) → remark.rawCommand = item.text)) ∧
      ∀ literal tail members,
        Excerpt.groupFrom payloadQuotes .outside body.trimStart = some (literal, tail) →
        Json.parse literal = .ok (.object members) →
        ∃ remark item, ofExcerpt comment = .ok remark ∧
          remark.attributes = before.attributes ++ item :: after ∧
          item.payload = some members ∧ item.text = tail.trim ∧
          remark.rawCommand = tail.trim) := by
  intro comment
  have isName : Text.isIdentifier commandName = true := by decide
  have place : offset + front.size + attributeMarker.size +
      Text.size (commandName ++ (blanks ++ body)) =
      offset + Text.size (front ++ (attributeMarker ++ (commandName ++ (blanks ++ body)))) := by
    rw [Text.size_append front, Text.size_append attributeMarker]
    omega
  refine ⟨fun noBrace => ?_, fun brace => ⟨fun remark read => ?_, ?_⟩⟩
  · have read := attributeAfter_of_text spaced blank isName parts noBrace (offset + front.size)
      (offset + front.size + attributeMarker.size)
    rw [place] at read
    exact ⟨_, ofExcerpt_of_attributeAfter clean apart read cleanAfter, rawCommand_of_last rfl last⟩
  · obtain ⟨item, left, later, readItem, rfl⟩ := exists_of_ofExcerpt clean apart read
    obtain ⟨literal, rest, members, split, parsed, rfl⟩ :=
      exists_payload_of_brace spaced blank brace isName readItem
    exact ⟨literal, rest, members, _, later, split, parsed, rfl, rfl, rfl,
      fun lastLater => rawCommand_of_last rfl lastLater⟩
  · intro literal tail members grouped parsed
    have read := attributeAfter_of_object spaced blank brace isName parts grouped parsed
      (offset + front.size) (offset + front.size + attributeMarker.size)
    rw [place] at read
    exact ⟨_, _, ofExcerpt_of_attributeAfter clean apart read cleanAfter, rfl, rfl, rfl,
      rawCommand_of_last rfl last⟩

theorem parse_emptyObject : Json.parse "\x7b\x7d".toList = .ok (.object []) := by
  refine Json.parse_eq_ok_iff.mpr ⟨[], Json.valueOf_eq_object_iff.mpr ⟨_, rfl, ?_⟩, rfl⟩
  rw [Json.membersOf_eq]
  rfl

/-- A brace in the text of a command, an object at the front of it, and an attribute after each. -/
theorem rawCommand_of_command_between :
    (∃ front blanks body back remark,
      front ++ (attributeMarker ++ (commandName ++ (blanks ++ (body ++ back)))) =
        " counts @@Command \t do \x7bit\x7d twice @@NoHistory soon".toList ∧
      ofExcerpt ⟨front ++ (attributeMarker ++ (commandName ++ (blanks ++ (body ++ back)))), 40⟩ =
        .ok remark ∧
      remark.rawCommand = "do \x7bit\x7d twice".toList) ∧
    ∃ front blanks body back remark,
      front ++ (attributeMarker ++ (commandName ++ (blanks ++ (body ++ back)))) =
        " counts @@Command \t \x7b\x7d twice more @@NoHistory soon".toList ∧
      ofExcerpt ⟨front ++ (attributeMarker ++ (commandName ++ (blanks ++ (body ++ back)))), 40⟩ =
        .ok remark ∧
      remark.rawCommand = "twice more".toList := by
  have unmarked : Excerpt.IsUnmarked ⟨" counts ".toList, 40⟩ := by decide
  have later : attributesFrom ⟨"@@NoHistory soon".toList, 74⟩ =
      .ok [⟨"NoHistory".toList, 74, none, "soon".toList⟩] := by
    have read : attributeAfter 74 ⟨"NoHistory soon".toList, 76⟩ =
        .ok (⟨"NoHistory".toList, 74, none, "soon".toList⟩, ⟨[], 90⟩) := rfl
    have first : attributesFrom ⟨"@@NoHistory soon".toList, 74⟩ = _ :=
      attributesFrom_of_marked rfl read
    rw [first, attributesFrom]
    rfl
  have blank : ∀ char ∈ " \t ".toList, Text.isBlank char = true :=
    List.all_eq_true.mp (by decide)
  have parts {body : Text} (unmarked : ¬attributeMarker <:+: body)
      (spaced : body.getLast? = some ' ') : Excerpt.Parts body "@@NoHistory soon".toList := by
    refine ⟨unmarked, fun _ char ends => ?_, fun _ => ⟨_, rfl⟩⟩
    cases Option.some.inj (spaced.symm.trans ends)
    decide
  have plain : Excerpt.Parts "do \x7bit\x7d twice ".toList "@@NoHistory soon".toList :=
    parts (by decide) rfl
  have braced : Excerpt.Parts "\x7b\x7d twice more ".toList "@@NoHistory soon".toList :=
    parts (by decide) rfl
  obtain ⟨remark, read, said⟩ := (rawCommand_of_command unmarked.ofExcerpt (by decide) (by decide)
    blank plain later (by decide)).1 (by decide)
  obtain ⟨other, _, readOther, -, -, -, saidOther⟩ :=
    ((rawCommand_of_command unmarked.ofExcerpt (by decide) (by decide) blank braced later
      (by decide)).2 (by decide)).2 _ _ _ rfl parse_emptyObject
  exact ⟨⟨_, _, _, _, remark, by decide, read, said⟩,
    _, _, _, _, other, by decide, readOther, saidOther⟩

/-- An object at the front of the text of a command is not part of the raw command. -/
theorem rawCommand_braced : ∃ front blanks body remark,
    front ++ (attributeMarker ++ (commandName ++ (blanks ++ body))) =
      " @@Command \x7b\x7d text".toList ∧
    (∀ char ∈ front ++ blanks, Text.isBlank char = true) ∧
    body.trim = "\x7b\x7d text".toList ∧
    ofExcerpt ⟨front ++ (attributeMarker ++ (commandName ++ (blanks ++ body))), 2⟩ = .ok remark ∧
    remark.rawCommand = "text".toList := by
  let note : Note := ⟨commandName, some ("\x7b\x7d".toList, []), "text".toList, by decide,
    fun _ _ same => by cases same; exact parse_emptyObject, by decide, nofun⟩
  have attributes := Note.attributesFrom_writtenAll [note] 2
  have read : ofExcerpt ⟨" @@Command \x7b\x7d text".toList, 2⟩ =
      .ok ⟨none, Note.attributes 2 [note]⟩ :=
    congrArg (Except.map fun attributes => (⟨none, attributes⟩ : Remark)) attributes
  exact ⟨" ".toList, " ".toList, "\x7b\x7d text".toList, _, by decide,
    List.all_eq_true.mp (by decide), by decide, read, rfl⟩

end Remark

end Scaffold
