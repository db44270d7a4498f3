/-
**How far a reader of JSON looks.**

A reader that takes something off a text looks at what it takes and at the character after it, and
at nothing else (`IsLocal`): it takes the same off every text that goes on with the same character,
or ends there too. There is one rule for each way to put readers together: one after the other
(`bind`), by the first character (`of_head`), and behind a character (`past`).
-/

import Scaffold.Proofs.Json.Values

namespace Scaffold.Json

/-- From texts with this first character the reader takes what is `good`, and it takes the same
wherever the same character follows. -/
def IsLocalAt {α : Type} (head : Option Char) (good : Text → Prop) (read : Reader α) : Prop :=
  ∀ text, text.head? = head → ∀ item rest, read text = .ok (item, rest) →
    ∃ taken, text = taken ++ rest ∧ good taken ∧
      ∀ other, other.head? = rest.head? → read (taken ++ other) = .ok (item, other)

/-- The reader is local, whatever a text starts with. -/
def IsLocal {α : Type} (good : Text → Prop) (read : Reader α) : Prop :=
  ∀ text item rest, read text = .ok (item, rest) → ∃ taken, text = taken ++ rest ∧ good taken ∧
    ∀ other, other.head? = rest.head? → read (taken ++ other) = .ok (item, other)

variable {α β : Type} {good : Text → Prop} {read : Reader α}

/-! ### Rules -/

theorem head?_append_of_head? {taken rest other : Text} (same : other.head? = rest.head?) :
    (taken ++ other).head? = (taken ++ rest).head? := by
  rw [List.head?_append, List.head?_append, same]

namespace IsLocal

theorem mono {better : Text → Prop} (isLocal : IsLocal good read)
    (implies : ∀ taken, good taken → better taken) : IsLocal better read := by
  intro text item rest found
  obtain ⟨taken, split, isGood, again⟩ := isLocal text item rest found
  exact ⟨taken, split, implies taken isGood, again⟩

theorem map (isLocal : IsLocal good read) (f : α → β) :
    IsLocal good fun text => (read text).map fun pair => (f pair.1, pair.2) := by
  intro text item rest found
  obtain ⟨⟨first, after⟩, done, same⟩ := map_eq_ok_iff.mp found
  obtain ⟨rfl, rfl⟩ := Prod.mk.inj same
  obtain ⟨taken, split, isGood, again⟩ := isLocal text first after done
  refine ⟨taken, split, isGood, fun other head => ?_⟩
  exact congrArg (Except.map fun pair => (f pair.1, pair.2)) (again other head)

/-- A reader that takes nothing. -/
theorem stay (nothing : good []) (item : α) : IsLocal good fun text => .ok (item, text) := by
  rintro text _ _ ⟨⟩
  exact ⟨[], rfl, nothing, fun _ _ => rfl⟩

/-- A reader that never succeeds. -/
theorem stop (failure : Text → Stop) : IsLocal good fun text => (.error (failure text) : Except Stop (α × Text)) :=
  nofun

/-- One reader after another. -/
theorem bind {next : α → Reader β} (isLocal : IsLocal good read)
    (isLocalNext : ∀ value, IsLocal good (next value))
    (append : ∀ {first second : Text}, good first → good second → good (first ++ second)) :
    IsLocal good fun text => read text >>= fun pair => next pair.1 pair.2 := by
  intro text item rest found
  obtain ⟨⟨value, after⟩, done, continued⟩ := bind_eq_ok_iff.mp found
  obtain ⟨taken, rfl, isGood, again⟩ := isLocal text value after done
  obtain ⟨more, rfl, isGoodMore, againMore⟩ := isLocalNext value after item rest continued
  refine ⟨taken ++ more, (List.append_assoc ..).symm, append isGood isGoodMore,
    fun other follows => ?_⟩
  refine bind_eq_ok_iff.mpr ⟨(value, more ++ other), ?_, againMore other follows⟩
  rw [List.append_assoc, again (more ++ other) (head?_append_of_head? follows)]

/-- A reader that is local for every first character. -/
theorem of_head (byHead : ∀ head, IsLocalAt head good read) : IsLocal good read :=
  fun text => byHead text.head? text rfl

end IsLocal

namespace IsLocalAt

variable {head : Option Char}

theorem of_isLocal {inner : Reader α} (isLocal : IsLocal good inner)
    (same : ∀ text, text.head? = head → read text = inner text) : IsLocalAt head good read := by
  rintro text starts item rest found
  rw [same text starts] at found
  obtain ⟨taken, rfl, isGood, again⟩ := isLocal text item rest found
  refine ⟨taken, rfl, isGood, fun other follows => ?_⟩
  rw [same (taken ++ other) ((head?_append_of_head? follows).trans starts), again other follows]

/-- A reader that never succeeds. -/
theorem fail (fails : ∀ text, text.head? = head → ∃ stop, read text = .error stop) :
    IsLocalAt head good read := by
  intro text starts item rest found
  obtain ⟨stop, failed⟩ := fails text starts
  rw [failed] at found
  cases found

/-- A character, and what a reader takes after it. -/
theorem past {char : Char} {inner : Reader α} {after : Text → Prop} (isLocal : IsLocal after inner)
    (more : ∀ taken, after taken → good (char :: taken))
    (same : ∀ rest, read (char :: rest) = inner rest) : IsLocalAt (some char) good read := by
  intro text starts item rest found
  obtain ⟨following, rfl⟩ := List.head?_eq_some_iff.mp starts
  rw [same] at found
  obtain ⟨taken, rfl, isGood, again⟩ := isLocal following item rest found
  refine ⟨char :: taken, rfl, more taken isGood, fun other follows => ?_⟩
  rw [List.cons_append, same, again other follows]

end IsLocalAt

end Scaffold.Json
