/-
**The free text and the attributes of a comment.**

A comment, after the macro it may start with, is free text with attributes in it. An attribute is
`@@` and a name, then optionally a JSON object, then free text up to the next attribute. What the
comment says apart from its attributes is its raw command: the text of the last `@@Command`, or, if
there is none, every piece of free text that is not blank.
-/

import Scaffold.Excerpt.Balanced
import Scaffold.Fault
import Scaffold.Json.Parser

namespace Scaffold

/-- One attribute of a comment. -/
structure Attribute where
  name : Text
  /-- Where its marker starts. -/
  offset : Nat
  payload : Option Json.Members
  /-- The text that follows, trimmed. -/
  text : Text

/-- The free text before the attributes of a comment, and the attributes. -/
structure Remark where
  /-- Trimmed, and absent when it is blank. -/
  text : Option Text
  attributes : List Attribute

namespace Remark

/-- A piece of free text, if it is not blank. -/
def piece? (text : Text) : Option Text := if text.trim = [] then none else some text.trim

/-- The quotes of literals in a payload. -/
def payloadQuotes : List Char := ['"']

/-- The payload at the front of an excerpt that starts with a brace. -/
def payload (name : Text) (excerpt : Excerpt) : Except Defect (Json.Members × Excerpt) :=
  match excerpt.balanced? payloadQuotes with
  | none => .error (.malformed (.unterminatedPayload name) excerpt.offset)
  | some (literal, rest) =>
    match Json.parse literal with
    | .ok (.object members) => .ok (members, rest)
    | .ok _ => .error (.malformed (.payloadNotObject name) excerpt.offset)
    | .error failure => .error (.malformed (.invalidPayload name failure) excerpt.offset)

/-- The payload at the front of an excerpt, if there is one. -/
def payload? (name : Text) (excerpt : Excerpt) : Except Defect (Option Json.Members × Excerpt) :=
  if excerpt.text.head? = some '\x7b' then
    (payload name excerpt).map fun read => (some read.1, read.2)
  else .ok (none, excerpt)

/-- The attribute at the front of an excerpt, after its marker, and the excerpt after it. -/
def attributeAfter (marker : Nat) (excerpt : Excerpt) : Except Defect (Attribute × Excerpt) :=
  match excerpt.identifier? with
  | none => .error (.malformed .missingAttributeName excerpt.offset)
  | some (name, named) =>
    (payload? name named.skipBlanks).map fun read =>
      let following := read.2.takeUntilAttribute
      (⟨name, marker, read.1, following.1.trim⟩, following.2)

theorem payload?_length {name : Text} {excerpt rest : Excerpt} {members : Option Json.Members}
    (found : payload? name excerpt = .ok (members, rest)) :
    rest.text.length ≤ excerpt.text.length := by
  unfold payload? at found
  split at found
  · cases read : payload name excerpt with
    | error defect => simp [read, Except.map] at found
    | ok pair =>
        simp only [read, Except.map, Except.ok.injEq, Prod.mk.injEq] at found
        obtain ⟨-, rfl⟩ := found
        unfold payload at read
        split at read
        · simp at read
        · rename_i literal after balanced
          have shorter : after.text.length ≤ excerpt.text.length := by
            unfold Excerpt.balanced? at balanced
            simp only [Option.map_eq_some_iff, Prod.mk.injEq] at balanced
            obtain ⟨parts, group, -, rfl⟩ := balanced
            have := congrArg List.length (Excerpt.groupFrom_append group)
            simp only [Excerpt.skip, List.length_append] at this ⊢
            omega
          split at read
          · simp only [Except.ok.injEq] at read
            rw [← read]
            exact shorter
          · simp at read
          · simp at read
  · simp only [Except.ok.injEq, Prod.mk.injEq] at found
    exact Nat.le_of_eq (congrArg (fun excerpt => excerpt.text.length) found.2.symm)

theorem takeUntilAttribute_length (excerpt : Excerpt) :
    excerpt.takeUntilAttribute.2.text.length ≤ excerpt.text.length := by
  have := congrArg List.length (Text.splitAtFirst_append excerpt.text Excerpt.attributeMarker)
  simp only [Excerpt.takeUntilAttribute, Excerpt.skip, List.length_append] at this ⊢
  omega

theorem attributeAfter_length {marker : Nat} {excerpt rest : Excerpt} {read : Attribute}
    (found : attributeAfter marker excerpt = .ok (read, rest)) :
    rest.text.length ≤ excerpt.text.length := by
  unfold attributeAfter at found
  split at found
  · simp at found
  · rename_i name named identified
    have first : named.text.length ≤ excerpt.text.length := by
      unfold Excerpt.identifier? at identified
      simp only at identified
      split at identified
      · simp at identified
      · simp only [Option.some.injEq, Prod.mk.injEq] at identified
        obtain ⟨-, rfl⟩ := identified
        have := congrArg List.length (Text.identifier_append excerpt.text)
        simp only [Excerpt.skip, List.length_append] at this ⊢
        omega
    have second : named.skipBlanks.text.length ≤ named.text.length :=
      (List.dropWhile_sublist _).length_le
    cases body : payload? name named.skipBlanks with
    | error defect => simp [body, Except.map] at found
    | ok pair =>
        simp only [body, Except.map, Except.ok.injEq, Prod.mk.injEq] at found
        obtain ⟨members, after⟩ := pair
        have third := payload?_length body
        have fourth := takeUntilAttribute_length after
        simp only at found
        rw [← found.2]
        omega

/-- The attributes from a marker on; none when the excerpt does not start with one. -/
def attributesFrom (excerpt : Excerpt) : Except Defect (List Attribute) :=
  match marked : excerpt.text.after? Excerpt.attributeMarker with
  | none => .ok []
  | some rest =>
    match read : attributeAfter excerpt.offset (excerpt.skip Excerpt.attributeMarker rest) with
    | .error defect => .error defect
    | .ok (first, later) =>
      have : later.text.length < excerpt.text.length := by
        have := attributeAfter_length read
        rw [Text.after?_eq_some.mp marked]
        simp only [Excerpt.skip, Excerpt.attributeMarker, List.length_append] at this ⊢
        simp only [String.length_toList]
        have : "@@".length = 2 := rfl
        omega
      (attributesFrom later).map (first :: ·)
  termination_by excerpt.text.length

/-- The remark that the rest of a comment is. -/
def ofExcerpt (excerpt : Excerpt) : Except Defect Remark :=
  let leading := excerpt.takeUntilAttribute
  (attributesFrom leading.2).map fun attributes => ⟨piece? leading.1, attributes⟩

/-- The name of the attribute that holds the raw command. -/
def commandName : Text := "Command".toList

/-- What the comment says apart from its attributes. -/
def rawCommand (remark : Remark) : Text :=
  match remark.attributes.reverse.find? fun item => item.name == commandName with
  | some command => command.text
  | none =>
    Text.join [' ']
      (remark.text.toList ++ remark.attributes.filterMap fun item => piece? item.text)

end Remark

end Scaffold
