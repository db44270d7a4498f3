/-
**Readers of JSON without their measures.**

The readers of values say that they leave less than they were given, which is what makes them end.
Here they are without that, each one given by an equation on the first character after the blanks:

* `valueOf_list`, `valueOf_object`, `valueOf_scalar`: a value by what it starts with;
* `itemsOf_eq`, `membersOf_eq`: the items of a list, and the members of an object;
* `valueOf_eq_object_iff`, `parse_eq_ok_iff`: which texts are objects, and which are literals.
-/

import Scaffold.Json.Parser
import Scaffold.Proofs.Results

namespace Scaffold.Json

/-- Takes a value off the front of a text. -/
abbrev Reader (α : Type) : Type := Text → Except Stop (α × Text)

/-- A reading without its measure. -/
def Reading.plain {α : Type} {text : Text} (reading : Reading α text) : Except Stop (α × Text) :=
  reading.map fun pair => (pair.1, pair.2.val)

theorem Reading.plain_widen {α : Type} {inner outer : Text}
    (bound : inner.length ≤ outer.length) (reading : Reading α inner) :
    (reading.widen bound).plain = reading.plain := by
  cases reading <;> rfl

/-- The value at the front of a text. -/
def valueOf (depth : Nat) (text : Text) : Except Stop (Json × Text) := (value depth text).plain

/-- The items of a list. -/
def itemsOf (depth : Nat) (before : List Json) (first : Bool) (text : Text) :
    Except Stop (Json × Text) :=
  (items depth before first text).plain

/-- The members of an object. -/
def membersOf (depth : Nat) (before : Members) (first : Bool) (text : Text) :
    Except Stop (Json × Text) :=
  (members depth before first text).plain

/-- An item and the items after it. -/
def itemOf (depth : Nat) (before : List Json) (text : Text) : Except Stop (Json × Text) :=
  valueOf depth text >>= fun read => itemsOf depth (read.1 :: before) false read.2

/-- The value of a member, and the members after it. -/
def memberValue (depth : Nat) (before : Members) (key : Text) (text : Text) :
    Except Stop (Json × Text) :=
  valueOf depth text >>= fun read =>
    membersOf depth (Keyed.insert key read.1 before) false read.2

/-- What follows the key of a member, with no blanks before it. -/
def memberColon (depth : Nat) (before : Members) (key : Text) : Reader Json
  | [] => stopBefore .unfinishedObject []
  | ':' :: after => memberValue depth before key (skipSpace after)
  | char :: after => stopIn .missingColon (char :: after)

/-- A member after the quote that opens its key, and the members after it. -/
def memberOf (depth : Nat) (before : Members) (text : Text) : Except Stop (Json × Text) :=
  stringBody text >>= fun key => memberColon depth before key.1 (skipSpace key.2)

section Equations

variable (depth : Nat) (rest : Text)

theorem valueOf_list : valueOf (depth + 1) ('[' :: rest) = itemsOf depth [] true rest := by
  rw [valueOf, value]
  exact Reading.plain_widen _ _

theorem valueOf_object :
    valueOf (depth + 1) ('\x7b' :: rest) = membersOf depth [] true rest := by
  rw [valueOf, value]
  exact Reading.plain_widen _ _

theorem valueOf_scalar {text : Text} (noList : text.head? ≠ some '[')
    (noObject : text.head? ≠ some '\x7b') : valueOf depth text = scalar text := by
  rw [valueOf, value]
  split
  · rename_i failed
    exact failed.symm
  · rename_i read
    exact read.symm
  · rintro rest rfl
    exact noList rfl
  · rintro rest rfl
    exact noObject rfl

theorem plain_item (before : List Json) (outer text : Text)
    (bound : text.length ≤ outer.length) :
    (item depth before outer text bound).plain = itemOf depth before text := by
  rw [item, itemOf, valueOf]
  cases value depth text with
  | error stop => rfl
  | ok read => exact Reading.plain_widen _ _

/-- What follows a comma in a list. -/
def itemsComma (before : List Json) : Reader Json
  | [] => stopBefore .unfinishedValue []
  | ']' :: more => stopIn .trailingComma (']' :: more)
  | char :: more => itemOf depth before (char :: more)

/-- The items of a list with no blanks before them. -/
def itemsHead (before : List Json) (first : Bool) : Reader Json
  | [] => stopBefore .unfinishedList []
  | ']' :: rest => .ok (.array before.reverse, rest)
  | ',' :: rest =>
    if first then itemOf depth before (',' :: rest) else itemsComma depth before (skipSpace rest)
  | char :: rest =>
    if first then itemOf depth before (char :: rest)
    else stopIn .missingListDelimiter (char :: rest)

theorem itemsHead_first (before : List Json) {char : Char} (noCloser : char ≠ ']') :
    itemsHead depth before true (char :: rest) = itemOf depth before (char :: rest) := by
  unfold itemsHead
  split
  · contradiction
  · rename_i same
    exact absurd (List.cons.inj same).1 noCloser
  · rename_i same
    rw [same]
    rfl
  · rename_i same
    rw [same]
    rfl

theorem itemsHead_next (before : List Json) {char : Char} (noCloser : char ≠ ']')
    (noComma : char ≠ ',') : itemsHead depth before false (char :: rest) =
      .error ⟨.missingListDelimiter, Text.size (char :: rest) - 1⟩ := by
  rw [itemsHead]
  · rfl
  · exact noCloser
  · exact noComma

theorem itemsComma_item (before : List Json) {char : Char} (noCloser : char ≠ ']') :
    itemsComma depth before (char :: rest) = itemOf depth before (char :: rest) := by
  rw [itemsComma]
  exact noCloser

theorem itemsOf_eq (before : List Json) (first : Bool) (text : Text) :
    itemsOf depth before first text = itemsHead depth before first (skipSpace text) := by
  rw [itemsOf, items]
  split
  · rename_i found
    simp only [found]
    rfl
  · rename_i found
    simp only [found]
    rfl
  · rename_i found
    simp only [found, itemsHead]
    split
    · exact plain_item _ _ _ _ _
    · split
      · rename_i after
        simp only [after]
        rfl
      · rename_i after
        simp only [after]
        rfl
      · rename_i noCloser after
        simp only [after]
        rw [itemsComma]
        exact plain_item _ _ _ _ _
        exact noCloser
  · rename_i noCloser noComma found
    simp only [found]
    rw [itemsHead]
    split
    · exact plain_item _ _ _ _ _
    · rfl
    · exact noCloser
    · exact noComma

theorem plain_member (before : Members) (outer text : Text) (bound : text.length < outer.length) :
    (member depth before outer text bound).plain = memberOf depth before text := by
  rw [member]
  split
  · rename_i failed
    rw [memberOf, failed]
    rfl
  · rename_i key rest read
    have keyed : memberOf depth before text = memberColon depth before key (skipSpace rest) := by
      rw [memberOf, read]
      rfl
    rw [keyed]
    dsimp only
    split
    · rename_i found
      simp only [found]
      rfl
    · rename_i found
      simp only [found, memberColon, memberValue, valueOf]
      split
      · rename_i failed
        simp only [failed]
        rfl
      · rename_i done
        simp only [done]
        exact Reading.plain_widen _ _
    · rename_i noColon found
      simp only [found]
      rw [memberColon]
      · rfl
      · exact noColon

/-- What follows a comma in an object. -/
def membersComma (before : Members) : Reader Json
  | [] => stopBefore .unfinishedValue []
  | '"' :: more => memberOf depth before more
  | '\x7d' :: more => stopIn .trailingComma ('\x7d' :: more)
  | char :: more => stopIn .keyNotString (char :: more)

/-- The members of an object with no blanks before them. -/
def membersHead (before : Members) (first : Bool) : Reader Json
  | [] => stopBefore .unfinishedObject []
  | '\x7d' :: rest => .ok (.object before, rest)
  | '"' :: rest =>
    if first then memberOf depth before rest else stopIn .missingObjectDelimiter ('"' :: rest)
  | ',' :: rest =>
    if first then stopIn .keyNotString (',' :: rest)
    else membersComma depth before (skipSpace rest)
  | char :: rest =>
    if first then stopIn .keyNotString (char :: rest)
    else stopIn .missingObjectDelimiter (char :: rest)

theorem memberColon_other (before : Members) (key : Text) {char : Char} (noColon : char ≠ ':') :
    memberColon depth before key (char :: rest) =
      .error ⟨.missingColon, Text.size (char :: rest) - 1⟩ := by
  rw [memberColon]
  · rfl
  · exact noColon

theorem membersComma_other (before : Members) {char : Char} (noQuote : char ≠ '"') :
    ∃ stop, membersComma depth before (char :: rest) = .error stop := by
  unfold membersComma
  split
  · exact ⟨_, rfl⟩
  · rename_i same
    exact absurd (List.cons.inj same).1 noQuote
  · exact ⟨_, rfl⟩
  · exact ⟨_, rfl⟩

theorem membersHead_other (before : Members) (first : Bool) {char : Char}
    (noCloser : char ≠ '\x7d') (noQuote : char ≠ '"') (noComma : char ≠ ',') :
    ∃ stop, membersHead depth before first (char :: rest) = .error stop := by
  rw [membersHead]
  · split
    · exact ⟨_, rfl⟩
    · exact ⟨_, rfl⟩
  · exact noCloser
  · exact noQuote
  · exact noComma

theorem membersOf_eq (before : Members) (first : Bool) (text : Text) :
    membersOf depth before first text = membersHead depth before first (skipSpace text) := by
  rw [membersOf, members]
  split
  · rename_i found
    simp only [found]
    rfl
  · rename_i found
    simp only [found]
    rfl
  · rename_i found
    simp only [found, membersHead]
    split
    · exact plain_member _ _ _ _ _
    · rfl
  · rename_i found
    simp only [found, membersHead]
    split
    · rfl
    · split
      · rename_i after
        simp only [after]
        rfl
      · rename_i after
        simp only [after]
        exact plain_member _ _ _ _ _
      · rename_i after
        simp only [after]
        rfl
      · rename_i noQuote noCloser after
        simp only [after]
        rw [membersComma]
        · rfl
        · exact noQuote
        · exact noCloser
  · rename_i noCloser noQuote noComma found
    simp only [found]
    rw [membersHead]
    · split <;> rfl
    · exact noCloser
    · exact noQuote
    · exact noComma

end Equations

/-! ### Objects -/

theorem valueOf_shorter {depth : Nat} {text rest : Text} {item : Json}
    (found : valueOf depth text = .ok (item, rest)) : rest.length < text.length := by
  obtain ⟨⟨read, last, shorter⟩, -, same⟩ := map_eq_ok_iff.mp found
  obtain ⟨rfl, rfl⟩ := Prod.mk.inj same
  exact shorter

theorem exists_array_of_itemsOf {depth : Nat} {before : List Json} {first : Bool}
    {text rest : Text} {item : Json}
    (found : itemsOf depth before first text = .ok (item, rest)) : ∃ list, item = .array list := by
  induction bound : text.length using Nat.strongRecOn generalizing before first text with
  | _ length ih =>
    subst bound
    have read : ∀ {inner : Text}, inner.length ≤ text.length →
        itemOf depth before inner = .ok (item, rest) → ∃ list, item = .array list := by
      intro inner fits found
      obtain ⟨⟨value, after⟩, done, continued⟩ := bind_eq_ok_iff.mp found
      exact ih after.length (Nat.lt_of_lt_of_le (valueOf_shorter done) fits) continued rfl
    have spaced := skipSpace_length text
    rw [itemsOf_eq] at found
    unfold itemsHead at found
    split at found
    · cases found
    · cases found
      exact ⟨_, rfl⟩
    · rename_i following skipped
      rw [skipped] at spaced
      split at found
      · exact read spaced found
      · have after := Nat.le_trans (skipSpace_length following) (Nat.le_of_lt spaced)
        unfold itemsComma at found
        split at found
        · cases found
        · cases found
        · rename_i skipped
          exact read (skipped ▸ after) found
    · rename_i skipped
      split at found
      · exact read (skipped ▸ spaced) found
      · cases found

theorem scalar_ne_object {text rest : Text} {members : Members} :
    scalar text ≠ .ok (.object members, rest) := by
  intro found
  unfold scalar at found
  split at found
  case h_1 => cases found
  case h_7 =>
    split at found
    · obtain ⟨_, -, same⟩ := map_eq_ok_iff.mp found
      cases same
    · cases found
  all_goals
    obtain ⟨_, -, same⟩ := map_eq_ok_iff.mp found
    cases same

/-- An object starts with its bracket. -/
theorem valueOf_eq_object_iff {depth : Nat} {text rest : Text} {members : Members} :
    valueOf (depth + 1) text = .ok (.object members, rest) ↔
      ∃ after, text = '\x7b' :: after ∧
        membersOf depth [] true after = .ok (.object members, rest) := by
  constructor
  · intro found
    by_cases list : text.head? = some '['
    · obtain ⟨after, rfl⟩ := List.head?_eq_some_iff.mp list
      rw [valueOf_list] at found
      obtain ⟨items, same⟩ := exists_array_of_itemsOf found
      cases same
    by_cases object : text.head? = some '\x7b'
    · obtain ⟨after, rfl⟩ := List.head?_eq_some_iff.mp object
      rw [valueOf_object] at found
      exact ⟨after, rfl, found⟩
    · rw [valueOf_scalar _ list object] at found
      exact absurd found scalar_ne_object
  · rintro ⟨after, rfl, found⟩
    rw [valueOf_object, found]

/-- A literal is a value with blanks around it. -/
theorem parse_eq_ok_iff {literal : Text} {item : Json} : parse literal = .ok item ↔
    ∃ rest, valueOf depthLimit (skipSpace literal) = .ok (item, rest) ∧ skipSpace rest = [] := by
  rw [parse, valueOf]
  cases value depthLimit (skipSpace literal) with
  | error stop => exact ⟨nofun, fun ⟨_, read, _⟩ => nomatch read⟩
  | ok read =>
    obtain ⟨first, rest, shorter⟩ := read
    dsimp only [Reading.plain, Except.map]
    cases ended : skipSpace rest with
    | nil =>
      refine ⟨fun same => ?_, fun ⟨_, same, _⟩ => ?_⟩
      · cases same
        exact ⟨rest, rfl, ended⟩
      · cases same
        rfl
    | cons char more =>
      refine ⟨nofun, fun ⟨_, same, done⟩ => ?_⟩
      cases same
      exact absurd (ended.symm.trans done) (List.cons_ne_nil _ _)

end Scaffold.Json
