/-
**Lists and objects are groups.**

What a reader of JSON takes for a list or an object is a balanced group, whose end the scan for
groups finds as well, and it takes the same whatever follows the closing bracket. So the literal of
an object can be found without reading JSON, and reading it alone gives the same object:

* `isLocal_valueOf`: values are local, and a scan for the end of a group passes them;
* `group_of_parse`: a literal that is an object is one group with blanks around it.
-/

import Scaffold.Proofs.Json.Scalars
import Scaffold.Proofs.Json.Values

namespace Scaffold.Json

open Excerpt (Nesting closerOf?)

/-! ### Readers up to a bracket -/

/-- A scan for the end of a group of JSON passes the text. -/
abbrev IsNeutral (text : Text) : Prop := Nesting.IsNeutral ['"'] text

theorem isNeutral_nil : IsNeutral [] := Nesting.isNeutral_nil _

/-- A character without a meaning, and a text that is passed. -/
theorem isNeutral_char {char : Char} {text : Text}
    (plain : char ∉ ['"'] ∧ closerOf? char = none ∧ char ∉ Nesting.closerMarks)
    (neutral : IsNeutral text) : IsNeutral (char :: text) :=
  (Nesting.isNeutral_of_forall (List.forall_mem_singleton.mpr plain)).append neutral

theorem isNeutral_of_isSpace {text : Text} (spaces : ∀ char ∈ text, isSpace char = true) :
    IsNeutral text := by
  refine Nesting.isNeutral_of_forall fun char member => ?_
  have space := spaces char member
  simp only [isSpace, Bool.or_eq_true, beq_iff_eq] at space
  obtain ((rfl | rfl) | rfl) | rfl := space <;> decide

/-- What the reader takes off this text is good up to the closing bracket, and it takes the same
whatever follows. -/
def ClosesAt {α : Type} (closer : Char) (good : Text → Prop) (read : Reader α) (text : Text) :
    Prop :=
  ∀ item rest, read text = .ok (item, rest) → ∃ inner, text = inner ++ closer :: rest ∧
    good inner ∧ ∀ other, read (inner ++ closer :: other) = .ok (item, other)

namespace ClosesAt

variable {α β : Type} {closer : Char} {good : Text → Prop} {read : Reader α} {text : Text}

theorem fail {stop : Stop} (failed : read text = .error stop) : ClosesAt closer good read text := by
  intro item rest found
  rw [failed] at found
  cases found

/-- The closing bracket itself. -/
theorem close {rest : Text} {item : α} (nothing : good [])
    (closes : ∀ other, read (closer :: other) = .ok (item, other)) :
    ClosesAt closer good read (closer :: rest) := by
  intro other after found
  rw [closes] at found
  cases found
  exact ⟨[], rfl, nothing, closes⟩

/-- Another reader that does the same with texts of the same first character. -/
theorem congr {inner : Reader α} (closes : ClosesAt closer good inner text)
    (same : ∀ other, other.head? = text.head? → read other = inner other) :
    ClosesAt closer good read text := by
  intro item rest found
  rw [same text rfl] at found
  obtain ⟨taken, rfl, isGood, again⟩ := closes item rest found
  refine ⟨taken, rfl, isGood, fun other => ?_⟩
  have follows : (closer :: other).head? = (closer :: rest).head? := rfl
  rw [same _ (head?_append_of_head? follows), again other]

/-- A character, and what a reader takes after it. -/
theorem past {char : Char} {rest : Text} {inner : Reader α} {after : Text → Prop}
    (closes : ClosesAt closer after inner rest)
    (more : ∀ taken, after taken → good (char :: taken))
    (same : ∀ other, read (char :: other) = inner other) :
    ClosesAt closer good read (char :: rest) := by
  intro item left found
  rw [same] at found
  obtain ⟨taken, rfl, isGood, again⟩ := closes item left found
  refine ⟨char :: taken, rfl, more taken isGood, fun other => ?_⟩
  rw [List.cons_append, same, again other]

/-- A reader after one that is local. -/
theorem bind {first : Reader β} (next : β → Reader α) {front back : Text → Prop}
    (isLocal : IsLocal front first)
    (closes : ∀ value rest, first text = .ok (value, rest) →
      ClosesAt closer back (next value) rest)
    (append : ∀ {one two : Text}, front one → back two → good (one ++ two)) :
    ClosesAt closer good (fun text => first text >>= fun pair => next pair.1 pair.2) text := by
  intro item rest found
  obtain ⟨⟨value, after⟩, done, continued⟩ := bind_eq_ok_iff.mp found
  obtain ⟨inner, rfl, isGoodInner, again⟩ := closes value after done item rest continued
  obtain ⟨taken, rfl, isGood, againFirst⟩ := isLocal _ _ _ done
  refine ⟨taken ++ inner, (List.append_assoc ..).symm, append isGood isGoodInner, fun other => ?_⟩
  refine bind_eq_ok_iff.mpr ⟨(value, inner ++ closer :: other), ?_, again other⟩
  have follows : (closer :: other).head? = (closer :: rest).head? := rfl
  rw [List.append_assoc, againFirst _ (head?_append_of_head? follows)]

/-- The blanks before what a reader takes. -/
theorem blanks {next : Reader α} (closes : ClosesAt closer IsNeutral next (skipSpace text))
    (same : ∀ other, read other = next (skipSpace other)) :
    ClosesAt closer IsNeutral read text := by
  intro item rest found
  rw [same] at found
  obtain ⟨inner, after, neutral, again⟩ := closes item rest found
  obtain ⟨split, spaces, stops⟩ := Tag.takeWhile_eq_and_dropWhile_eq_iff.mp
    ⟨(rfl : text.takeWhile isSpace = _), (after : text.dropWhile isSpace = _)⟩
  refine ⟨text.takeWhile isSpace ++ inner, ?_, (isNeutral_of_isSpace spaces).append neutral,
    fun other => ?_⟩
  · rw [List.append_assoc, ← split]
  · have follows : (closer :: other).head? = (closer :: rest).head? := rfl
    have skipped : skipSpace (text.takeWhile isSpace ++ (inner ++ closer :: other)) =
        inner ++ closer :: other := by
      refine (Tag.takeWhile_eq_and_dropWhile_eq_iff.mpr ⟨rfl, spaces, fun char starts => ?_⟩).2
      exact stops char (head?_append_of_head? follows ▸ starts)
    rw [same, List.append_assoc, skipped, again other]

end ClosesAt

section Groups

variable {depth : Nat} (isLocal : IsLocal IsNeutral (valueOf depth)) {text : Text}

include isLocal

/-- An item closes with the list if what follows it does. -/
theorem closesAt_itemOf (before : List Json)
    (after : ∀ rest : Text, rest.length < text.length → ∀ before,
      ClosesAt ']' IsNeutral (itemsOf depth before false) rest) :
    ClosesAt ']' IsNeutral (itemOf depth before) text :=
  .bind (fun item => itemsOf depth (item :: before) false) isLocal
    (fun item rest found => after rest (valueOf_shorter found) (item :: before))
    Nesting.IsNeutral.append

theorem closesAt_itemsOf (before : List Json) (first : Bool) (text : Text) :
    ClosesAt ']' IsNeutral (itemsOf depth before first) text := by
  -- an item takes at least one character, so what follows it is shorter
  induction bound : text.length using Nat.strongRecOn generalizing before first text with
  | _ length ih =>
    subst bound
    have item : ∀ char rest, (char :: rest).length ≤ text.length → ∀ read : Reader Json,
        (∀ other, read (char :: other) = itemOf depth before (char :: other)) →
        ClosesAt ']' IsNeutral read (char :: rest) := by
      intro char rest fits read same
      refine .congr (closesAt_itemOf isLocal before fun rest shorter before =>
        ih rest.length (Nat.lt_of_lt_of_le shorter fits) before false rest rfl) fun other head => ?_
      obtain ⟨others, rfl⟩ := List.head?_eq_some_iff.mp head
      exact same others
    have spaced := skipSpace_length text
    refine .blanks ?_ (itemsOf_eq depth before first)
    cases found : skipSpace text with
    | nil => exact .fail rfl
    | cons char rest =>
      rw [found] at spaced
      by_cases closes : char = ']'
      · subst closes
        exact .close isNeutral_nil fun other => rfl
      cases first with
      | true => exact item char rest spaced _ fun other => itemsHead_first depth other before closes
      | false =>
        by_cases comma : char = ','
        · subst comma
          have after : ClosesAt ']' IsNeutral
              (fun other => itemsComma depth before (skipSpace other)) rest := by
            refine .blanks ?_ fun other => rfl
            have bound := Nat.le_trans (skipSpace_length rest) (Nat.le_of_lt spaced)
            cases following : skipSpace rest with
            | nil => exact .fail rfl
            | cons char more =>
              rw [following] at bound
              by_cases closes : char = ']'
              · subst closes
                exact .fail rfl
              · exact item char more bound _ fun other => itemsComma_item depth other before closes
          exact .past after (fun taken => isNeutral_char (by decide)) fun other => rfl
        · exact .fail (itemsHead_next depth rest before closes comma)

/-- The value of a member closes with the object if what follows it does. -/
theorem closesAt_memberOf (before : Members)
    (after : ∀ rest : Text, rest.length < text.length → ∀ before,
      ClosesAt '\x7d' IsNeutral (membersOf depth before false) rest) :
    ClosesAt '\x7d' (fun inner => IsNeutral ('"' :: inner)) (memberOf depth before) text := by
  refine .bind (fun key other => memberColon depth before key (skipSpace other))
    isLocal_stringBody (fun key rest found => ?_) fun quoted =>
      (Nesting.isNeutral_literal (by decide) (by decide) quoted).append
  have shorter := Nat.lt_of_le_of_lt (skipSpace_length rest) (stringBody_shorter found)
  refine .blanks ?_ fun other => rfl
  cases following : skipSpace rest with
  | nil => exact .fail rfl
  | cons char more =>
    rw [following] at shorter
    by_cases colon : char = ':'
    · subst colon
      have value : ClosesAt '\x7d' IsNeutral
          (fun other => memberValue depth before key (skipSpace other)) more := by
        refine .blanks ?_ fun other => rfl
        refine .bind (fun item => membersOf depth (Keyed.insert key item before) false) isLocal
          (fun item rest found => after rest ?_ _) Nesting.IsNeutral.append
        have := valueOf_shorter found
        have := skipSpace_length more
        simp only [List.length_cons] at shorter
        omega
      exact .past value (fun taken => isNeutral_char (by decide)) fun other => rfl
    · exact .fail (memberColon_other depth more before key colon)

theorem closesAt_membersOf (before : Members) (first : Bool) (text : Text) :
    ClosesAt '\x7d' IsNeutral (membersOf depth before first) text := by
  induction bound : text.length using Nat.strongRecOn generalizing before first text with
  | _ length ih =>
    subst bound
    have member : ∀ rest, rest.length < text.length → ∀ read : Reader Json,
        (∀ other, read ('"' :: other) = memberOf depth before other) →
        ClosesAt '\x7d' IsNeutral read ('"' :: rest) := by
      intro rest fits read same
      exact .past (closesAt_memberOf isLocal before fun rest shorter before =>
        ih rest.length (Nat.lt_trans shorter fits) before false rest rfl) (fun _ => id) same
    have spaced := skipSpace_length text
    refine .blanks ?_ (membersOf_eq depth before first)
    cases found : skipSpace text with
    | nil => exact .fail rfl
    | cons char rest =>
      rw [found] at spaced
      by_cases closes : char = '\x7d'
      · subst closes
        exact .close isNeutral_nil fun other => rfl
      by_cases quote : char = '"'
      · subst quote
        cases first with
        | true => exact member rest spaced _ fun other => rfl
        | false => exact .fail rfl
      by_cases comma : char = ','
      · subst comma
        cases first with
        | true => exact .fail rfl
        | false =>
          have after : ClosesAt '\x7d' IsNeutral
              (fun other => membersComma depth before (skipSpace other)) rest := by
            refine .blanks ?_ fun other => rfl
            have bound := Nat.lt_of_le_of_lt (skipSpace_length rest) spaced
            cases following : skipSpace rest with
            | nil => exact .fail rfl
            | cons char more =>
              rw [following] at bound
              by_cases quote : char = '"'
              · subst quote
                exact member more (Nat.lt_of_succ_lt bound) _ fun other => rfl
              · obtain ⟨stop, failed⟩ := membersComma_other depth more before quote
                exact .fail failed
          exact .past after (fun taken => isNeutral_char (by decide)) fun other => rfl
      · obtain ⟨stop, failed⟩ := membersHead_other depth rest before first closes quote comma
        exact .fail failed

end Groups

/-! ### Values -/

/-- A group, read by what its first character leads to. -/
theorem IsLocalAt.group {α : Type} {opener closer : Char} {read inner : Reader α}
    (closes : ∀ text, ClosesAt closer IsNeutral inner text)
    (opens : closerOf? opener = some closer) (noQuote : opener ∉ ['"'])
    (noQuoteEither : closer ∉ ['"']) (same : ∀ rest, read (opener :: rest) = inner rest) :
    IsLocalAt (some opener) IsNeutral read := by
  intro text starts item rest found
  obtain ⟨following, rfl⟩ := List.head?_eq_some_iff.mp starts
  rw [same] at found
  obtain ⟨taken, rfl, neutral, again⟩ := closes following item rest found
  refine ⟨opener :: (taken ++ [closer]), ?_, neutral.group opens noQuote noQuoteEither,
    fun other _ => ?_⟩
  · rw [List.cons_append, List.append_assoc, List.singleton_append]
  · rw [List.cons_append, List.append_assoc, List.singleton_append, same, again other]

/-- **Values are local**, and what they take is passed by the scan for the end of a group. -/
theorem isLocal_valueOf (depth : Nat) : IsLocal IsNeutral (valueOf depth) := by
  have other : ∀ depth head, head ≠ some '[' → head ≠ some '\x7b' →
      IsLocalAt head IsNeutral (valueOf depth) := fun depth head noList noObject =>
    .of_isLocal isLocal_scalar fun text starts =>
      valueOf_scalar depth (starts ▸ noList) (starts ▸ noObject)
  induction depth with
  | zero =>
    refine .of_head fun head => ?_
    by_cases list : head = some '['
    · rw [list]
      refine .fail fun text starts => ?_
      obtain ⟨rest, rfl⟩ := List.head?_eq_some_iff.mp starts
      exact ⟨_, by rw [valueOf, value]; rfl⟩
    by_cases object : head = some '\x7b'
    · rw [object]
      refine .fail fun text starts => ?_
      obtain ⟨rest, rfl⟩ := List.head?_eq_some_iff.mp starts
      exact ⟨_, by rw [valueOf, value]; rfl⟩
    · exact other 0 head list object
  | succ depth ih =>
    refine .of_head fun head => ?_
    by_cases list : head = some '['
    · rw [list]
      exact .group (closesAt_itemsOf ih [] true) rfl (by decide) (by decide) (valueOf_list depth)
    by_cases object : head = some '\x7b'
    · rw [object]
      exact .group (closesAt_membersOf ih [] true) rfl (by decide) (by decide)
        (valueOf_object depth)
    · exact other (depth + 1) head list object

/-- **An object's literal** is one group with blanks around it, and the group alone is a literal of
the same object. -/
theorem group_of_parse {literal : Text} {members : Members}
    (parsed : parse literal = .ok (.object members)) :
    ∃ lead inner trail, literal = lead ++ ('\x7b' :: (inner ++ ['\x7d']) ++ trail) ∧
      (∀ char ∈ lead, isSpace char = true) ∧ IsNeutral inner ∧
      (∀ char ∈ trail, isSpace char = true) ∧
      parse ('\x7b' :: (inner ++ ['\x7d'])) = .ok (.object members) := by
  obtain ⟨rest, read, ended⟩ := parse_eq_ok_iff.mp parsed
  obtain ⟨after, starts, found⟩ := valueOf_eq_object_iff.mp read
  obtain ⟨inner, rfl, neutral, again⟩ :=
    closesAt_membersOf (isLocal_valueOf _) [] true after _ _ found
  obtain ⟨split, spaces, -⟩ := Tag.takeWhile_eq_and_dropWhile_eq_iff.mp
    ⟨(rfl : literal.takeWhile isSpace = _), (starts : literal.dropWhile isSpace = _)⟩
  refine ⟨_, inner, rest, ?_, spaces, neutral, List.dropWhile_eq_nil_iff.mp ended, ?_⟩
  · simpa using split
  · refine parse_eq_ok_iff.mpr ⟨[], valueOf_eq_object_iff.mpr ⟨inner ++ ['\x7d'], rfl, again []⟩, rfl⟩

end Scaffold.Json
