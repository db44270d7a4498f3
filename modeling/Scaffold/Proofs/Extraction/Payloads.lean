/-
**Where the payload of an attribute ends.**

A payload is found by looking for the end of a group, which knows brackets, double quotes and
backslashes and nothing else of JSON. If an object is written there, it is found whole and nothing
after it is taken: `payload?_of_written`. What the reader of JSON is given is this object, and what
is read of the comment after it is what follows the object.
-/

import Scaffold.Proofs.Extraction.Excerpts
import Scaffold.Proofs.Json.Grammar

namespace Scaffold.Remark

open Tag (Stops stops_cons)

/-- What the literal of a payload is taken for, if it starts there. -/
def payloadOf (name literal : Text) (offset : Nat) : Except Defect Json.Members :=
  match Json.parse literal with
  | .ok (.object members) => .ok members
  | .ok _ => .error (.malformed (.payloadNotObject name) offset)
  | .error failure => .error (.malformed (.invalidPayload name failure) offset)

/-- What follows an attribute: free text, up to the next one. -/
def attributeOf (name : Text) (marker : Nat) (members : Json.Members) (excerpt : Excerpt) :
    Attribute × Excerpt :=
  let following := excerpt.takeUntilAttribute
  (⟨name, marker, some members, following.1.trim⟩, following.2)

section Written

variable {literal : Text} (object : Json.Written .object literal) (rest : Text) (offset : Nat)

include object

/-- An object starts with a brace. -/
theorem exists_cons_of_written : ∃ more, literal = '\x7b' :: more := by
  cases object with
  | emptyObject _ | object _ => exact ⟨_, rfl⟩

theorem balanced?_of_written :
    Excerpt.balanced? payloadQuotes ⟨literal ++ rest, offset⟩ =
      some (literal, ⟨rest, offset + literal.size⟩) := by
  rw [Excerpt.balanced?, payloadQuotes, Json.groupFrom_of_written object rest]
  rfl

theorem payload?_eq_of_written (name : Text) :
    payload? name ⟨literal ++ rest, offset⟩ =
      (payloadOf name literal offset).map fun members =>
        (some members, ⟨rest, offset + literal.size⟩) := by
  obtain ⟨more, starts⟩ := exists_cons_of_written object
  have brace : (literal ++ rest).head? = some '\x7b' := by
    rw [starts]
    rfl
  rw [payload?, if_pos brace, payload, balanced?_of_written object, payloadOf]
  dsimp only
  cases Json.parse literal with
  | error failure => rfl
  | ok json => cases json <;> rfl

/-- An attribute with blanks before its payload. -/
theorem attributeAfter_of_written {name blanks : Text} (isName : Text.isIdentifier name = true)
    (blank : ∀ char ∈ blanks, Text.isBlank char = true) (marker : Nat) :
    attributeAfter marker ⟨name ++ (blanks ++ (literal ++ rest)), offset⟩ =
      (payloadOf name literal (offset + Text.size (name ++ blanks))).map fun members =>
        attributeOf name marker members
          ⟨rest, offset + Text.size (name ++ (blanks ++ literal))⟩ := by
  obtain ⟨more, starts⟩ := exists_cons_of_written object
  have noBlank : Stops Text.isBlank (literal ++ rest) := by
    rw [starts]
    exact stops_cons (by decide) _
  have ends : Stops Text.continuesIdentifier (blanks ++ (literal ++ rest)) := by
    cases blanks with
    | nil =>
      rw [starts]
      exact stops_cons (by decide) _
    | cons first others =>
      exact stops_cons (Text.continuesIdentifier_of_isBlank (blank first List.mem_cons_self)) _
  rw [attributeAfter, Excerpt.identifier?_append isName ends]
  dsimp only
  rw [Excerpt.skipBlanks_append blank noBlank, payload?_eq_of_written object]
  simp only [Text.size_append, Nat.add_assoc]
  cases payloadOf name literal (offset + (name.size + blanks.size)) <;> rfl

end Written

/-- **The extent of a payload** is the object that is written there, whatever follows it. -/
theorem payload?_of_written {literal : Text} (object : Json.Written .object literal) (rest : Text)
    (offset : Nat) :
    Excerpt.balanced? payloadQuotes ⟨literal ++ rest, offset⟩ =
      some (literal, ⟨rest, offset + literal.size⟩) ∧
    (∀ name, payload? name ⟨literal ++ rest, offset⟩ =
      (payloadOf name literal offset).map fun members =>
        (some members, ⟨rest, offset + literal.size⟩)) ∧
    ∀ name blanks marker, Text.isIdentifier name = true →
      (∀ char ∈ blanks, Text.isBlank char = true) →
      attributeAfter marker ⟨name ++ (blanks ++ (literal ++ rest)), offset⟩ =
        (payloadOf name literal (offset + Text.size (name ++ blanks))).map fun members =>
          attributeOf name marker members
            ⟨rest, offset + Text.size (name ++ (blanks ++ literal))⟩ :=
  ⟨balanced?_of_written object rest offset, payload?_eq_of_written object rest offset,
    fun _ _ marker isName blank =>
      attributeAfter_of_written object rest offset isName blank marker⟩

/-- Brackets in strings, an escaped quote, half of a surrogate pair, an object in a list, and more
brackets after the payload. -/
theorem payload?_of_written_nested : ∃ literal : Text,
    literal ++ "\x7d]\" @@Next".toList =
      "\x7b\"a]\" : [\"\\\"\x7d\\ud83d\", \x7b\x7d, -1.5e+3]\x7d\x7d]\" @@Next".toList ∧
    Json.Written .object literal ∧
    Excerpt.balanced? payloadQuotes ⟨literal ++ "\x7d]\" @@Next".toList, 7⟩ =
      some (literal, ⟨"\x7d]\" @@Next".toList, 42⟩) ∧
    attributeAfter 1 ⟨"Json ".toList ++ (literal ++ "\x7d]\" @@Next".toList), 3⟩ =
      (payloadOf "Json".toList literal 8).map fun members =>
        (⟨"Json".toList, 1, some members, "\x7d]\"".toList⟩, ⟨"@@Next".toList, 47⟩) := by
  have none : Json.IsSpaces [] := nofun
  have one : Json.IsSpaces [' '] := List.forall_mem_singleton.mpr rfl
  have digit : ∀ {char : Char}, char.isDigit = true → Json.IsDigits [char] := fun isDigit =>
    ⟨List.cons_ne_nil _ _, List.forall_mem_singleton.mpr isDigit⟩
  have key : Json.IsStringBody "a]\"".toList :=
    .char (by decide) (by decide) (by decide) (.char (by decide) (by decide) (by decide) .ended)
  have half : Json.IsStringBody ('\\' :: 'u' :: ("d83d".toList ++ ['"'])) :=
    .unicode rfl (List.all_eq_true.mp (by decide)) .ended
  have string : Json.Written .value "\"\\\"\x7d\\ud83d\"".toList :=
    .string (.escape (by decide) (.char (by decide) (by decide) (by decide) half))
  have number : Json.Written .value "-1.5e+3".toList :=
    .number (@Json.IsNumber.parts ['-'] ['1'] ['.', '5'] ['e', '+', '3'] (by decide)
      (.digits (by decide) (digit rfl)) (.point (digit rfl))
      (@Json.IsExponent.mark 'e' ['+'] ['3'] (by decide) (by decide) (digit rfl)))
  have items : Json.Written .items "\"\\\"\x7d\\ud83d\", \x7b\x7d, -1.5e+3".toList :=
    .nextItem (.item none string none) (.nextItem (.item one (.ofObject (.emptyObject none)) none)
      (.lastItem (.item one number none)))
  have object : Json.Written .object
      "\x7b\"a]\" : [\"\\\"\x7d\\ud83d\", \x7b\x7d, -1.5e+3]\x7d".toList :=
    .object (.lastMember (.member none key one (.item one (.ofList (.list items)) none)))
  have extent := payload?_of_written object "\x7d]\" @@Next".toList
  exact ⟨_, rfl, object, (extent 7).1,
    (extent 3).2.2 "Json".toList " ".toList 1 rfl (List.forall_mem_singleton.mpr rfl)⟩

end Scaffold.Remark
