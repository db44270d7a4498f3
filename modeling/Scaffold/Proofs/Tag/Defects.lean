/-
**Where the defects of tags are.**

Two kinds of defects end the reading of a forest, and each of them stands where what it names does:

* a key that comes again stands on the line of an open marker, at its second place there
  (`RepeatsKey`);
* a tag without its partner stands at the start of a line: of the close marker that comes too early,
  or of the open marker that is never closed.

The offset of a key is the sum of where its line starts, of what the line has before the tag, and of
what the tag has before the key, so the proof goes through these layers (`WritesPairs.hasAt`,
`hasAt_of_readOpening?`). For the tags that are never closed, what is kept along the lines is that
every open tag stands where its open marker does (`Marker.OpensAt`).
-/

import Scaffold.Proofs.Tag.MarkerLine
import Scaffold.Proofs.Text.Places
import Scaffold.Tag.Parser

namespace Scaffold

namespace Tag

/-! ### Keys of a tag -/

theorem WritesPair.exists_rest {blanks key value written : Text}
    (writes : WritesPair blanks key value written) : ∃ rest, written = blanks ++ (key ++ rest) := by
  obtain ⟨filled, inline, isKey, inlineLeft, inlineRight, isValue⟩ := writes
  exact ⟨_, rfl⟩

/-- Each key stands in the text of the attributes, at its offset. -/
theorem WritesPairs.hasAt {offset : Nat} {pairs : List Pair} {written : Text}
    (writes : WritesPairs offset pairs written) :
    ∀ pair ∈ pairs, ∃ inner, written.HasAt inner pair.key ∧ offset + inner = pair.offset := by
  induction writes with
  | nil => exact nofun
  | @cons offset blanks key value first more pairs writesFirst writesMore ih =>
    intro pair member
    rcases List.mem_cons.mp member with rfl | member
    · obtain ⟨rest, rfl⟩ := writesFirst.exists_rest
      refine ⟨blanks.size, ⟨blanks, rest ++ more, ?_, rfl⟩, rfl⟩
      simp only [List.append_assoc]
    · obtain ⟨inner, stands, place⟩ := ih pair member
      exact ⟨first.size + inner, (Text.HasAt.append_right first more).trans stands,
        (Nat.add_assoc ..).symm.trans place⟩

/-- No key is empty. -/
theorem WritesPairs.key_ne_nil {offset : Nat} {pairs : List Pair} {written : Text}
    (writes : WritesPairs offset pairs written) : ∀ pair ∈ pairs, pair.key ≠ [] := by
  induction writes with
  | nil => exact nofun
  | cons writes writesMore ih =>
    refine List.forall_mem_cons.mpr ⟨?_, ih⟩
    obtain ⟨filled, inline, isKey, inlineLeft, inlineRight, isValue⟩ := writes
    rintro rfl
    exact isKey

/-- A key stands after those of the attributes before it. -/
theorem WritesPairs.ordered {offset : Nat} {before after : List Pair} {repeated : Pair}
    {written : Text} (writes : WritesPairs offset (before ++ repeated :: after) written) :
    ∀ first ∈ before, first.offset + first.key.size ≤ repeated.offset := by
  induction before generalizing offset written with
  | nil => exact nofun
  | cons pair before ih =>
    rw [List.cons_append] at writes
    cases writes with
    | @cons _ blanks key value first more _ writesFirst writesMore =>
    intro earlier member
    rcases List.mem_cons.mp member with rfl | member
    · obtain ⟨inner, -, place⟩ :=
        writesMore.hasAt repeated (List.mem_append_right _ List.mem_cons_self)
      obtain ⟨rest, rfl⟩ := writesFirst.exists_rest
      simp only [Text.size_append] at place ⊢
      omega
    · exact ih writesMore earlier member

/-- The attributes of an open tag are written in it, in their order. -/
theorem exists_writesPairs_of_readOpening? {offset : Nat} {rest : Text} {tag : Opening}
    (read : readOpening? offset rest = some tag) :
    ∃ lead written after, rest = lead ++ (written ++ after) ∧
      WritesPairs (offset + lead.size) tag.pairs written := by
  obtain ⟨lead, leads, ended⟩ := readOpening?_eq_some_iff.mp read
  obtain @⟨blanks, written, inline, qualified, writes, filled⟩ := leads
  obtain @⟨gap, ending, inlineGap, isEnd⟩ := ended
  refine ⟨blanks ++ '<' :: tag.name, written, gap ++ (tagEnd tag.selfClosing ++ ending), ?_, writes⟩
  simp only [List.append_assoc, List.cons_append]

/-- **The first pair whose key is there already** is the one that is not collected. -/
theorem collect_eq_error_iff {attributes : Attributes} {pairs : List Pair} {defect : Defect} :
    collect attributes pairs = .error defect ↔
      ∃ before repeated after, pairs = before ++ repeated :: after ∧
        (attributes.entries.map Prod.fst ++ before.map Pair.key).Nodup ∧
        repeated.key ∈ attributes.entries.map Prod.fst ++ before.map Pair.key ∧
        defect = ⟨.keyRepeated repeated.key, repeated.offset⟩ := by
  induction pairs generalizing attributes with
  | nil =>
    refine iff_of_false nofun ?_
    rintro ⟨before, repeated, after, split, -⟩
    cases (List.append_eq_nil_iff.mp split.symm).2
  | cons pair rest ih =>
    rw [collect]
    by_cases taken : attributes.hasKey pair.key = true
    · have member := Attributes.hasKey_iff.mp taken
      rw [Attributes.insert?, dif_pos taken]
      constructor
      · rintro ⟨⟩
        refine ⟨[], pair, rest, rfl, ?_, ?_, rfl⟩
        · rw [List.map_nil, List.append_nil]
          exact attributes.distinct
        · exact List.mem_append_left _ member
      · rintro ⟨before, repeated, after, split, distinct, -, rfl⟩
        cases before with
        | nil =>
          cases split
          rfl
        | cons first before =>
          cases split
          exact absurd rfl ((List.nodup_append.mp distinct).2.2 _ member _ List.mem_cons_self)
    · rw [Attributes.insert?, dif_neg taken]
      show collect _ rest = _ ↔ _
      rw [ih]
      simp only [List.map_append, List.map_cons, List.map_nil, List.append_assoc,
        List.singleton_append]
      constructor
      · rintro ⟨before, repeated, after, rfl, distinct, again, rfl⟩
        exact ⟨pair :: before, repeated, after, rfl, distinct, again, rfl⟩
      · rintro ⟨before, repeated, after, split, distinct, again, rfl⟩
        cases before with
        | nil =>
          cases split
          rw [List.map_nil, List.append_nil] at again
          exact absurd (Attributes.hasKey_iff.mpr again) taken
        | cons first before =>
          cases split
          exact ⟨before, repeated, after, rfl, distinct, again, rfl⟩

/-! ### Lines of a text -/

/-- A line of the text, where it starts. -/
def IsLineAt (text : Text) (start : Nat) (line : Text) : Prop :=
  ∃ before after, text.lines = before ++ line :: after ∧ Text.size before.flatten = start

theorem IsLineAt.hasAt {text line : Text} {start : Nat} (stands : IsLineAt text start line) :
    text.HasAt start line := by
  obtain ⟨before, after, split, rfl⟩ := stands
  exact Text.hasAt_line split

/-- A line that starts at `start` is written as an open marker. -/
def IsOpening (delimiter : Text) (start : Nat) (line : Text) (tag : Opening) : Prop :=
  ∃ indent rest, Delimits delimiter indent rest line ∧
    readOpening? (start + (indent.size + delimiter.size)) rest = some tag

/-- The attributes are written on the line of an open marker, in their order. -/
theorem IsOpening.exists_writesPairs {delimiter line : Text} {start : Nat} {tag : Opening}
    (opens : IsOpening delimiter start line tag) :
    ∃ inner written, line.HasAt inner written ∧ WritesPairs (start + inner) tag.pairs written := by
  obtain ⟨indent, rest, delimits, read⟩ := opens
  obtain ⟨lead, written, after, rfl, writes⟩ := exists_writesPairs_of_readOpening? read
  refine ⟨indent.size + delimiter.size + lead.size, written,
    ⟨indent ++ (delimiter ++ lead), after, ?_, ?_⟩, ?_⟩
  · rw [delimits.split]
    simp only [List.append_assoc]
  · simp only [Text.size_append, Nat.add_assoc]
  · rwa [Nat.add_assoc] at writes

/-- The key stands at `offset` on the line of an open marker, and an attribute before it on that
line has the same key. -/
def RepeatsKey (delimiter text key : Text) (offset : Nat) : Prop :=
  ∃ start line tag first repeated, IsLineAt text start line ∧ IsOpening delimiter start line tag ∧
    [first, repeated].Sublist tag.pairs ∧ first.key = key ∧ repeated.key = key ∧
    repeated.offset = offset ∧ text.HasAt first.offset key ∧ text.HasAt offset key ∧
    start ≤ first.offset ∧ first.offset + key.size ≤ offset ∧
    offset + key.size ≤ start + line.size

/-- Two attributes with one key on the line of an open marker. -/
theorem IsOpening.repeatsKey {delimiter text line : Text} {start : Nat} {tag : Opening}
    {before after : List Pair} {repeated : Pair} (opens : IsOpening delimiter start line tag)
    (stands : IsLineAt text start line) (split : tag.pairs = before ++ repeated :: after)
    (taken : repeated.key ∈ before.map Pair.key) :
    RepeatsKey delimiter text repeated.key repeated.offset := by
  obtain ⟨inner, written, within, writes⟩ := opens.exists_writesPairs
  obtain ⟨first, member, same⟩ := List.mem_map.mp taken
  rw [split] at writes
  have placed : text.HasAt (start + inner) written := stands.hasAt.trans within
  obtain ⟨here, spelled, place⟩ :=
    writes.hasAt repeated (List.mem_append_right _ List.mem_cons_self)
  obtain ⟨there, spelledFirst, placeFirst⟩ := writes.hasAt first (List.mem_append_left _ member)
  have fits := spelled.le_size
  have lineFits := within.le_size
  refine ⟨start, line, tag, first, repeated, stands, opens, ?_, same, rfl, rfl, ?_, ?_, ?_, ?_, ?_⟩
  · rw [split]
    exact (List.singleton_sublist.mpr member).append
      (List.singleton_sublist.mpr List.mem_cons_self)
  · rw [← placeFirst, ← same]
    exact placed.trans spelledFirst
  · rw [← place]
    exact placed.trans spelled
  · omega
  · rw [← same]
    exact writes.ordered first member
  · omega

/-- A line that cannot be read is an open marker that repeats a key. -/
theorem repeatsKey_of_ofLine?_error {delimiter text line : Text} {start : Nat} {defect : Defect}
    (stands : IsLineAt text start line)
    (failed : Marker.ofLine? delimiter ⟨line, start⟩ = .error defect) :
    ∃ key, defect.cause = .keyRepeated key ∧ RepeatsKey delimiter text key defect.offset := by
  by_cases present : ∃ indent rest, Delimits delimiter indent rest line
  · obtain ⟨indent, rest, delimits⟩ := present
    rw [Marker.ofLine?_of_delimits_at start delimits] at failed
    cases read : readOpening? (start + (indent.size + delimiter.size)) rest with
    | some tag =>
      rw [Marker.ofRest?_of_readOpening? read] at failed
      obtain ⟨before, repeated, after, split, -, taken, rfl⟩ :=
        collect_eq_error_iff.mp (map_eq_error_iff.mp failed)
      have opens : IsOpening delimiter start line tag := ⟨indent, rest, delimits, read⟩
      exact ⟨repeated.key, rfl, opens.repeatsKey stands split taken⟩
    | none =>
      rw [Marker.ofRest?, read] at failed
      cases failed
  · have nothing := Marker.ofLine?_of_not_delimits fun indent rest delimits =>
      present ⟨indent, rest, delimits⟩
    rw [Marker.ofLine?_moved, nothing] at failed
    cases failed

/-! ### Tags without their partners -/

/-- Where the defect of a text with tags has to be, by its cause. -/
def IsDefectAt (delimiter text : Text) (offset : Nat) : Cause → Prop
  | .keyRepeated key => RepeatsKey delimiter text key offset
  | .tagUnmatched name (.stillOpen _) =>
    ∃ line, IsLineAt text offset line ∧ Marker.Reads delimiter line (some (.closing name))
  | .tagUnmatched name .neverClosed =>
    ∃ line attributes, IsLineAt text offset line ∧
      Marker.Reads delimiter line (some (.opening name attributes false))
  | _ => False

/-- The open marker of the tag stands where the tag says. -/
def IsOpened (delimiter text : Text) (tag : Tag) : Prop :=
  IsLineAt text tag.offset tag.openMarker ∧
    Marker.Reads delimiter tag.openMarker (some (.opening tag.name tag.attributes false))

theorem isDefectAt_of_ofLine_error {delimiter text line : Text} {start : Nat} {outer : List Tag}
    {defect : Defect} (stands : IsLineAt text start line)
    (failed : Piece.ofLine delimiter outer ⟨line, start⟩ = .error defect) :
    IsDefectAt delimiter text defect.offset defect.cause := by
  unfold Piece.ofLine at failed
  cases read : Marker.ofLine? delimiter ⟨line, start⟩ with
  | error found =>
    rw [read] at failed
    cases failed
    obtain ⟨key, cause, repeats⟩ := repeatsKey_of_ofLine?_error stands read
    rw [cause]
    exact repeats
  | ok found =>
    have reads := Marker.ofLine?_eq_ok_iff.mp read
    rw [read] at failed
    simp only [bind, Except.bind, pure, Except.pure] at failed
    split at failed
    · cases failed
    · cases failed
    · cases failed
    · rename_i name
      split at failed
      · cases failed
      · split at failed
        · cases failed
        · split at failed
          · cases failed
            exact ⟨line, stands, reads⟩
          · cases failed

/-- A line keeps every open tag where its open marker is. -/
theorem Piece.Step.isOpened {delimiter text line : Text} {start : Nat} {outer still : List Tag}
    {piece : Piece} (step : Step delimiter outer ⟨line, start⟩ piece still)
    (stands : IsLineAt text start line) (opened : ∀ tag ∈ outer, IsOpened delimiter text tag) :
    ∀ tag ∈ still, IsOpened delimiter text tag := by
  cases step with
  | text plain => exact opened
  | leaf reads => exact opened
  | opening reads => exact List.forall_mem_cons.mpr ⟨⟨stands, reads⟩, opened⟩
  | closing reads => exact (List.forall_mem_cons.mp opened).2

/-- **The first defect of some lines** stands where it has to, if the tags before them do. -/
theorem isDefectAt_of_ofLines_error {delimiter text : Text} {before rows : List Text}
    {outer : List Tag} {defect : Defect} (split : text.lines = before ++ rows)
    (opened : ∀ tag ∈ outer, IsOpened delimiter text tag)
    (failed : Piece.ofLines delimiter outer (placeLines (Text.size before.flatten) rows) =
      .error defect) : IsDefectAt delimiter text defect.offset defect.cause := by
  induction rows generalizing before outer with
  | nil =>
    cases outer with
    | nil => cases failed
    | cons tag outer =>
      cases failed
      obtain ⟨stands, reads⟩ := opened tag List.mem_cons_self
      exact ⟨tag.openMarker, tag.attributes, stands, reads⟩
  | cons line rest ih =>
    have stands : IsLineAt text (Text.size before.flatten) line := ⟨before, rest, split, rfl⟩
    rw [placeLines] at failed
    cases first : Piece.ofLine delimiter outer ⟨line, Text.size before.flatten⟩ with
    | error found =>
      rw [Piece.ofLines, first] at failed
      cases failed
      exact isDefectAt_of_ofLine_error stands first
    | ok found =>
      have step := Piece.ofLine_eq_ok_iff.mp (first : _ = Except.ok (found.1, found.2))
      rw [step.ofLines] at failed
      have next : Text.size before.flatten + line.size = Text.size (before ++ [line]).flatten := by
        simp
      rw [next] at failed
      refine ih ?_ (step.isOpened stands opened) (map_eq_error_iff.mp failed)
      rw [split, List.append_assoc, List.singleton_append]

/-- Where the defect of a text has to be, there is a word of the text. -/
theorem IsDefectAt.exists_hasAt {delimiter text : Text} {offset : Nat} {cause : Cause}
    (isAt : IsDefectAt delimiter text offset cause) : ∃ word, text.HasAt offset word := by
  cases cause with
  | malformed flaw => exact isAt.elim
  | keyMissing name key => exact isAt.elim
  | keyRepeated key =>
    obtain ⟨start, line, tag, first, repeated, -, -, -, -, -, -, -, spelled, -⟩ := isAt
    exact ⟨key, spelled⟩
  | tagUnmatched name reason =>
    cases reason with
    | stillOpen inner =>
      obtain ⟨line, stands, -⟩ := isAt
      exact ⟨line, stands.hasAt⟩
    | neverClosed =>
      obtain ⟨line, attributes, stands, -⟩ := isAt
      exact ⟨line, stands.hasAt⟩

end Tag

/-- **The fault of a text with tags** is where its cause has to be. -/
theorem Forest.isDefectAt_of_parse_error {delimiter text : Text} {fault : Fault}
    (failed : Forest.parse delimiter text = .error fault) :
    Tag.IsDefectAt delimiter text fault.location.offset fault.cause := by
  unfold Forest.parse at failed
  split at failed
  · cases failed
  · rename_i defect found
    cases failed
    have isAt : Tag.IsDefectAt delimiter text defect.offset defect.cause :=
      Tag.isDefectAt_of_ofLines_error (List.nil_append _).symm
        (fun _ absent => absurd absent List.not_mem_nil) found
    obtain ⟨word, stands⟩ := isAt.exists_hasAt
    show Tag.IsDefectAt delimiter text (Location.ofOffset text defect.offset).offset defect.cause
    rw [stands.offset_location]
    exact isAt

end Scaffold
