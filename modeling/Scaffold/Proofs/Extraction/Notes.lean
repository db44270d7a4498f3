/-
**Attributes as they are written.**

An attribute is written as its marker and its name, an optional JSON object and free text, with a
space before each of them (`Note.written`). A comment that is written like this, after free text,
is read back (`ofExcerpt_notes`): its attributes are the ones written, in their order, and no free
text is lost or moved. This is so although the string in a payload may have a marker, a brace or an
escaped quote in it, since

* `takeUntilAttribute_of_parts`: free text ends where the next marker starts, and
* `payload?_literal`: a payload ends where its literal does.
-/

import Scaffold.Proofs.Extraction.Excerpts
import Scaffold.Proofs.Json.Groups
import Scaffold.Proofs.Text.Trimming

namespace Scaffold

open Tag (Stops stops_cons)
open Excerpt (attributeMarker)

/-! ### Payloads -/

section Payloads

variable {body rest literal : Text} {members : Json.Members}

/-- Text that does not look like a payload is none. -/
theorem payload?_of_parts (parts : Excerpt.Parts body rest)
    (noBrace : body.trimStart.head? ≠ some '\x7b') (name : Text) (offset : Nat) :
    Remark.payload? name (Excerpt.skipBlanks ⟨body ++ rest, offset⟩) =
      .ok (none, ⟨body.trimStart ++ rest, offset + Text.size (body.takeWhile Text.isBlank)⟩) := by
  have stops : Stops Text.isBlank (body.trimStart ++ rest) :=
    (Tag.stops_dropWhile _ _).append parts.stops
  have blank : ∀ char ∈ body.takeWhile Text.isBlank, Text.isBlank char = true := fun _ =>
    List.mem_takeWhile_imp
  have skipped := Excerpt.skipBlanks_append blank stops offset
  rw [← List.append_assoc, Text.trimStart_append] at skipped
  have plain : ¬ (body.trimStart ++ rest).head? = some '\x7b' := by
    rw [List.head?_append]
    cases starts : body.trimStart.head? with
    | some char =>
      rw [starts] at noBrace
      exact noBrace
    | none =>
      intro brace
      exact absurd (parts.head?_eq brace) (by decide)
  rw [skipped, Remark.payload?, if_neg plain]

/-- The blanks of JSON are blanks in a comment, and no marker has one. -/
theorem isBlank_of_isSpace {char : Char} (space : Json.isSpace char = true) :
    Text.isBlank char = true ∧ char ∉ attributeMarker := by
  simp only [Json.isSpace, Bool.or_eq_true, beq_iff_eq] at space
  obtain ((rfl | rfl) | rfl) | rfl := space <;> decide

/-- **A payload ends** where its literal does, up to blanks. -/
theorem payload?_literal (parsed : Json.parse literal = .ok (.object members)) (name after : Text)
    (offset : Nat) :
    ∃ trail place, (∀ char ∈ trail, Json.isSpace char = true) ∧
      place + trail.size = offset + Text.size (' ' :: literal) ∧
      Remark.payload? name (Excerpt.skipBlanks ⟨' ' :: literal ++ after, offset⟩) =
        .ok (some members, ⟨trail ++ after, place⟩) := by
  obtain ⟨lead, inner, trail, rfl, spaces, neutral, spacesAfter, again⟩ :=
    Json.group_of_parse parsed
  have blank : ∀ char ∈ ' ' :: lead, Text.isBlank char = true :=
    List.forall_mem_cons.mpr ⟨rfl, fun char member => (isBlank_of_isSpace (spaces char member)).1⟩
  have skipped := Excerpt.skipBlanks_append blank
    (stops_cons (by decide : Text.isBlank '\x7b' = false) (inner ++ '\x7d' :: (trail ++ after)))
    offset
  have grouped := Excerpt.groupFrom_of_isNeutral neutral
    (rfl : Excerpt.closerOf? '\x7b' = some '\x7d') (by decide) (by decide) (trail ++ after)
  have split : ' ' :: (lead ++ ('\x7b' :: (inner ++ ['\x7d']) ++ trail)) ++ after =
      ' ' :: lead ++ '\x7b' :: (inner ++ '\x7d' :: (trail ++ after)) := by
    simp only [List.cons_append, List.append_assoc, List.nil_append]
  refine ⟨trail, offset + Text.size (' ' :: lead) + Text.size ('\x7b' :: (inner ++ ['\x7d'])),
    spacesAfter, ?_, ?_⟩
  · simp only [Text.size_cons, Text.size_append]
    omega
  · rw [split, skipped, Remark.payload?, List.head?_cons, if_pos rfl, Remark.payload,
      Excerpt.balanced?, Remark.payloadQuotes, grouped]
    dsimp only [Option.map]
    rw [again]
    rfl

end Payloads

/-- An attribute that is read at a marker comes before those that are read after it. -/
theorem Remark.attributesFrom_of_marked {excerpt later : Excerpt} {rest : Text}
    {first : Attribute} (marked : excerpt.text.after? attributeMarker = some rest)
    (read : attributeAfter excerpt.offset (excerpt.skip attributeMarker rest) =
      .ok (first, later)) :
    attributesFrom excerpt = (attributesFrom later).map (first :: ·) := by
  rw [attributesFrom_eq, marked]
  dsimp only
  rw [read]
  rfl

/-! ### Notes -/

/-- An attribute to write. -/
structure Note where
  name : Text
  /-- A literal, and the members of the object that it is. -/
  payload : Option (Text × Json.Members)
  text : Text
  isName : Text.isIdentifier name = true
  isObject : ∀ literal members, payload = some (literal, members) →
    Json.parse literal = .ok (.object members)
  unmarked : ¬ attributeMarker <:+: text
  /-- Without a payload the text does not look like one. -/
  noBrace : payload = none → text.trimStart.head? ≠ some '\x7b'

namespace Note

/-- What follows the name of a note, with a space before each part. -/
def body (note : Note) : Text :=
  (note.payload.map fun payload => ' ' :: payload.1).getD [] ++ ' ' :: note.text

/-- The note with a space before each of its parts. -/
def written (note : Note) : Text := ' ' :: (attributeMarker ++ note.name) ++ note.body

/-- The attribute that a note is, with its marker at an offset. -/
def toAttribute (note : Note) (offset : Nat) : Attribute :=
  ⟨note.name, offset, note.payload.map Prod.snd, note.text.trim⟩

/-- The attributes of notes that are written one after the other from an offset on. -/
def attributes (offset : Nat) : List Note → List Attribute
  | [] => []
  | note :: notes =>
    note.toAttribute (offset + 1) :: attributes (offset + note.written.size) notes

/-- All notes, one after the other. -/
def writtenAll (notes : List Note) : Text := notes.flatMap written

/-- A text without a marker, with notes after it. -/
theorem parts_writtenAll {text : Text} (unmarked : ¬ attributeMarker <:+: text)
    (notes : List Note) :
    Excerpt.Parts (text ++ (writtenAll notes).take 1) ((writtenAll notes).drop 1) := by
  cases notes with
  | nil =>
    rw [writtenAll, List.flatMap_nil, List.take_nil, List.append_nil]
    exact ⟨unmarked, fun filled => absurd rfl filled, fun filled => absurd rfl filled⟩
  | cons note notes =>
    refine ⟨fun inside => ?_, fun _ char last => ?_, fun _ => ?_⟩
    · rcases List.infix_concat_iff.mp inside with ends | within
      · obtain empty | ⟨front, same, -⟩ := List.suffix_concat_iff.mp ends
        · cases empty
        · have last := congrArg List.getLast? same
          rw [List.getLast?_concat] at last
          cases last
      · exact unmarked within
    · have space : (text ++ [' ']).getLast? = some ' ' := List.getLast?_concat
      cases space.symm.trans last
      decide
    · exact ⟨note.name ++ (note.body ++ writtenAll notes), by simp [writtenAll, written]⟩

theorem isBlank_of_mem_take (notes : List Note) :
    ∀ char ∈ (writtenAll notes).take 1, Text.isBlank char = true := by
  cases notes with
  | nil => exact fun _ absent => absurd absent List.not_mem_nil
  | cons note notes => exact List.forall_mem_singleton.mpr rfl

/-- **The payload** of a note is read, and its text is left, with blanks that do not count. -/
theorem payload?_body (note : Note) {separator rest : Text}
    (blank : ∀ char ∈ separator, Text.isBlank char = true)
    (parts : Excerpt.Parts (note.text ++ separator) rest) (offset : Nat) :
    ∃ text place, Excerpt.Parts text rest ∧ text.trim = note.text.trim ∧
      place + text.size = offset + Text.size (note.body ++ separator) ∧
      Remark.payload? note.name (Excerpt.skipBlanks ⟨note.body ++ separator ++ rest, offset⟩) =
        .ok (note.payload.map Prod.snd, ⟨text ++ rest, place⟩) := by
  have spaced : Excerpt.Parts (' ' :: (note.text ++ separator)) rest :=
    parts.prepend (List.forall_mem_singleton.mpr (by decide : ' ' ∉ attributeMarker))
  have trimmed : ∀ lead, (∀ char ∈ lead, Text.isBlank char = true) →
      Text.trim (lead ++ ' ' :: (note.text ++ separator)) = note.text.trim := by
    intro lead blankLead
    have blankLead : ∀ char ∈ lead ++ [' '], Text.isBlank char = true :=
      List.forall_mem_append.mpr ⟨blankLead, List.forall_mem_singleton.mpr rfl⟩
    rw [List.append_cons, ← List.append_assoc, Text.trim_append blankLead blank]
  cases payload : note.payload with
  | none =>
    have body : note.body ++ separator = ' ' :: (note.text ++ separator) := by
      rw [body, payload]
      rfl
    have noBrace : (Text.trimStart (' ' :: (note.text ++ separator))).head? ≠ some '\x7b' := by
      have same : Text.trimStart (' ' :: (note.text ++ separator)) =
          Text.trimStart (note.text ++ separator) := rfl
      rw [same, Text.head?_trimStart_append blank]
      exact note.noBrace payload
    rw [← body] at spaced noBrace
    refine ⟨_, _, spaced.of_suffix (List.dropWhile_suffix Text.isBlank), ?_, ?_,
      payload?_of_parts spaced noBrace note.name offset⟩
    · rw [body]
      exact (Text.trim_trimStart _).trans (trimmed [] (by simp))
    · rw [Nat.add_assoc, ← Text.size_append, List.takeWhile_append_dropWhile]
  | some pair =>
    obtain ⟨literal, members⟩ := pair
    have body : note.body ++ separator = ' ' :: literal ++ ' ' :: (note.text ++ separator) := by
      rw [body, payload]
      simp
    obtain ⟨trail, place, spaces, counted, read⟩ := payload?_literal
      (note.isObject literal members payload) note.name (' ' :: (note.text ++ separator) ++ rest)
      offset
    refine ⟨_, place, spaced.prepend fun char member => (isBlank_of_isSpace (spaces char member)).2,
      ?_, ?_, ?_⟩
    · exact trimmed trail fun char member => (isBlank_of_isSpace (spaces char member)).1
    · rw [body, Text.size_append, Text.size_append, ← Nat.add_assoc, ← Nat.add_assoc, counted]
    · rw [body, List.append_assoc, read, List.append_assoc]
      rfl

theorem exists_body (note : Note) : ∃ more, note.body = ' ' :: more := by
  rw [body]
  cases note.payload with
  | none => exact ⟨note.text, rfl⟩
  | some payload => exact ⟨payload.1 ++ ' ' :: note.text, rfl⟩

/-- **A note is read** as the attribute that it is, up to the marker of the next one. -/
theorem attributeAfter_written (note : Note) (notes : List Note) (marker offset : Nat) :
    Remark.attributeAfter marker ⟨note.name ++ (note.body ++ writtenAll notes), offset⟩ =
      .ok (note.toAttribute marker, ⟨(writtenAll notes).drop 1,
        offset + Text.size (note.name ++ (note.body ++ (writtenAll notes).take 1))⟩) := by
  have stops : Stops Text.continuesIdentifier (note.body ++ writtenAll notes) := by
    obtain ⟨more, body⟩ := note.exists_body
    exact body ▸ stops_cons (by decide) (more ++ writtenAll notes)
  have named := Excerpt.identifier?_append note.isName stops offset
  obtain ⟨text, place, parts, trimmed, counted, read⟩ := note.payload?_body
    (isBlank_of_mem_take notes) (parts_writtenAll note.unmarked notes) (offset + note.name.size)
  rw [List.append_assoc, List.take_append_drop] at read
  rw [Remark.attributeAfter, named]
  dsimp only
  rw [read, Except.map]
  dsimp only
  rw [Excerpt.takeUntilAttribute_of_parts parts, counted, trimmed, Nat.add_assoc,
    ← Text.size_append]
  rfl

/-- **Notes are read**, one after the other. -/
theorem attributesFrom_writtenAll (notes : List Note) (offset : Nat) :
    Remark.attributesFrom ⟨(writtenAll notes).drop 1,
      offset + Text.size ((writtenAll notes).take 1)⟩ = .ok (attributes offset notes) := by
  induction notes generalizing offset with
  | nil =>
    rw [Remark.attributesFrom]
    rfl
  | cons note notes ih =>
    have marked : (writtenAll (note :: notes)).drop 1 =
        attributeMarker ++ (note.name ++ (note.body ++ writtenAll notes)) := by
      simp [writtenAll, written]
    have space : (writtenAll (note :: notes)).take 1 = [' '] := by
      simp [writtenAll, written]
    have read := attributeAfter_written note notes (offset + 1) (offset + 1 + attributeMarker.size)
    have next := ih (offset + note.written.size)
    have place : offset + 1 + attributeMarker.size +
        Text.size (note.name ++ (note.body ++ (writtenAll notes).take 1)) =
        offset + note.written.size + Text.size ((writtenAll notes).take 1) := by
      simp only [written, Text.size_append, Text.size_cons]
      have : ' '.utf8Size = 1 := rfl
      omega
    rw [place] at read
    rw [marked, space, Remark.attributesFrom_of_marked (Text.after?_append _ _) read, next]
    rfl

/-- What notes say after a leading text, apart from their payloads. -/
def command (lead : Text) (notes : List Note) : Text :=
  match notes.reverse.find? fun note => note.name == Remark.commandName with
  | some note => note.text.trim
  | none => Text.join [' '] (((lead :: notes.map Note.text).map Text.trim).filter (· ≠ []))

theorem map_attributes (notes : List Note) (offset : Nat) :
    (attributes offset notes).map (fun item => (item.name, item.text)) =
      notes.map fun note => (note.name, note.text.trim) := by
  induction notes generalizing offset with
  | nil => rfl
  | cons note notes ih => rw [attributes, List.map_cons, List.map_cons, ih]; rfl

/-- The pieces of trimmed texts are those of them that are not blank. -/
theorem filterMap_piece? (texts : List Text) :
    (texts.map Text.trim).filterMap Remark.piece? = (texts.map Text.trim).filter (· ≠ []) := by
  induction texts with
  | nil => rfl
  | cons text texts ih =>
    rw [List.map_cons, List.filterMap_cons, Remark.piece?, Text.trim_trim, List.filter_cons, ih]
    by_cases blank : text.trim = []
    · rw [if_pos blank, if_neg (by simpa using blank)]
    · rw [if_neg blank, if_pos (by simpa using blank)]

theorem rawCommand_attributes (lead : Text) (notes : List Note) (offset : Nat) :
    Remark.rawCommand ⟨Remark.piece? lead, attributes offset notes⟩ = command lead notes := by
  have paired := map_attributes notes offset
  have texts : (attributes offset notes).map Attribute.text =
      notes.map fun note => note.text.trim := by
    simpa only [List.map_map, Function.comp_def] using congrArg (List.map Prod.snd) paired
  have commands : ((attributes offset notes).reverse.find? fun item =>
      item.name == Remark.commandName).map Attribute.text =
      (notes.reverse.find? fun note => note.name == Remark.commandName).map fun note =>
        note.text.trim := by
    have found := congrArg (fun pairs => (pairs.reverse.find? fun pair : Text × Text =>
      pair.1 == Remark.commandName).map Prod.snd) paired
    simpa only [← List.map_reverse, List.find?_map, Option.map_map, Function.comp_def] using found
  rw [Remark.rawCommand, command]
  cases written : notes.reverse.find? fun note => note.name == Remark.commandName with
  | some note =>
    rw [written, Option.map_some, Option.map_eq_some_iff] at commands
    obtain ⟨item, found, same⟩ := commands
    rw [found]
    exact same
  | none =>
    rw [written, Option.map_none, Option.map_eq_none_iff] at commands
    rw [commands]
    dsimp only
    have pieces : (attributes offset notes).filterMap (fun item => Remark.piece? item.text) =
        ((notes.map Note.text).map Text.trim).filter (· ≠ []) := by
      rw [← filterMap_piece?, List.map_map, Function.comp_def, ← texts, List.filterMap_map]
      rfl
    rw [pieces, List.map_cons, List.filter_cons, Remark.piece?]
    by_cases blank : lead.trim = []
    · rw [if_pos blank, if_neg (by simpa using blank)]
      rfl
    · rw [if_neg blank, if_pos (by simpa using blank)]
      rfl

/-- **Notes are read back.** Free text without a marker and notes after it have the attributes that
the notes are, each at its marker, and what they say apart from that is the text of the last command,
or all free text that is not blank. -/
theorem ofExcerpt_notes {lead : Text} (unmarked : ¬ attributeMarker <:+: lead)
    (notes : List Note) (offset : Nat) :
    ∃ remark, Remark.ofExcerpt ⟨lead ++ writtenAll notes, offset⟩ = .ok remark ∧
      remark.attributes = attributes (offset + lead.size) notes ∧
      remark.rawCommand = command lead notes := by
  refine ⟨⟨Remark.piece? lead, attributes (offset + lead.size) notes⟩, ?_, rfl,
    rawCommand_attributes lead notes _⟩
  have taken := Excerpt.takeUntilAttribute_of_parts (parts_writtenAll unmarked notes) offset
  rw [List.append_assoc, List.take_append_drop] at taken
  rw [Remark.ofExcerpt, taken, Text.size_append, ← Nat.add_assoc, attributesFrom_writtenAll]
  have trimmed := Text.trim_append (List.forall_mem_nil _) (isBlank_of_mem_take notes) lead
  rw [Except.map, Remark.piece?, Remark.piece?, ← trimmed]
  rfl

/-- A string with a marker, an escaped quote and a brace in it. -/
theorem parse_marked : Json.parse "\x7b\"Key\": \"a@@\\\"\x7d\"\x7d ".toList =
    .ok (.object [("Key".toList, .string "a@@\"\x7d".toList)]) := by
  have key : Json.stringBody ("Key".toList ++ '"' :: ": \"a@@\\\"\x7d\"\x7d ".toList) =
      .ok ("Key".toList, ": \"a@@\\\"\x7d\"\x7d ".toList) := by
    rw [Json.stringBody_append (List.forall_iff_forall_mem.mp (by decide)), Json.stringBody]
    rfl
  have text : Json.stringBody
      ("a@@".toList ++ '\\' :: '"' :: ("\x7d".toList ++ '"' :: "\x7d ".toList)) =
      .ok ("a@@\"\x7d".toList, "\x7d ".toList) := by
    rw [Json.stringBody_append (List.forall_iff_forall_mem.mp (by decide)),
      Json.stringBody_of_escape rfl,
      Json.stringBody_append (List.forall_iff_forall_mem.mp (by decide)), Json.stringBody]
    rfl
  have value : Json.valueOf 126 "\"a@@\\\"\x7d\"\x7d ".toList =
      .ok (.string "a@@\"\x7d".toList, "\x7d ".toList) := by
    rw [Json.valueOf_scalar _ (by decide) (by decide)]
    exact congrArg (Except.map fun body => (Json.string body.1, body.2)) text
  refine Json.parse_eq_ok_iff.mpr
    ⟨" ".toList, Json.valueOf_eq_object_iff.mpr ⟨_, rfl, ?_⟩, rfl⟩
  rw [Json.membersOf_eq]
  refine bind_eq_ok_iff.mpr ⟨_, key, bind_eq_ok_iff.mpr ⟨_, value, ?_⟩⟩
  rw [Json.membersOf_eq]
  rfl

/-- A payload that has a marker in it, a blank text and a command. -/
theorem ofExcerpt_notes_marked : ∃ (notes : List Note) (remark : Remark),
    " counts".toList ++ writtenAll notes =
      " counts @@Json \x7b\"Key\": \"a@@\\\"\x7d\"\x7d  tail @@NoJson  @@Command do it".toList ∧
    (¬ attributeMarker <:+: " counts".toList) ∧
    Remark.ofExcerpt ⟨" counts".toList ++ writtenAll notes, 40⟩ = .ok remark ∧
    remark.attributes.map (fun item => (item.name, item.offset, item.text)) =
      [("Json".toList, 48, "tail".toList), ("NoJson".toList, 79, []),
        ("Command".toList, 89, "do it".toList)] ∧
    remark.attributes.map Attribute.payload =
      [some [("Key".toList, .string "a@@\"\x7d".toList)], none, none] ∧
    remark.rawCommand = "do it".toList := by
  have unmarked : ¬ attributeMarker <:+: " counts".toList := by decide
  obtain ⟨remark, read, items, said⟩ := ofExcerpt_notes unmarked
    [⟨"Json".toList, some (_, _), "tail".toList, by decide,
        fun _ _ same => by cases same; exact parse_marked, by decide, nofun⟩,
      ⟨"NoJson".toList, none, [], by decide, nofun, by decide, by decide⟩,
      ⟨"Command".toList, none, "do it".toList, by decide, nofun, by decide, by decide⟩] 40
  refine ⟨_, remark, by decide +kernel, unmarked, read, ?_, ?_, ?_⟩
  · rw [items]
    decide +kernel
  · rw [items]
    rfl
  · rw [said]
    decide +kernel

end Note

end Scaffold
