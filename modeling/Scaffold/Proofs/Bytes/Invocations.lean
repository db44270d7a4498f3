/-
**Macro invocations by byte offsets.**

The inside of an invocation is its group without the first and the last byte, and each argument is a
slice between two commas. The group starts with its parenthesis and ends with the closer of it, and
both take one byte, as a comma does, so these ranges are between characters.

* `groupFrom_ends`: a group ends with a closer;
* `arguments?_eq`: the ranges between commas are the segments;
* `ofGroup?_eq`, `surplus?_eq`: the invocation is that of the model, and so is the number of
  arguments without a slot.
-/

import Scaffold.Extraction.Slots
import Scaffold.Proofs.Bytes.Slices
import Scaffold.Proofs.Extraction.Excerpts

namespace Scaffold

namespace Excerpt

/-! ### Arguments -/

/-- The ranges between separating commas. The scan has come to `index`, and the range that it is in
starts at `start`; the last range ends at `stop`. -/
def ranges (stop : Nat) (state : Enclosure) (start index : Nat) : Text → List (Nat × Nat)
  | [] => [(start, stop)]
  | char :: rest =>
    if char = ',' ∧ state.isOutermost then
      (start, index) :: ranges stop state (index + 1) (index + 1) rest
    else ranges stop (state.step char) start (index + char.utf8Size) rest

/-- The argument in a range. -/
def argument? (inner : Excerpt) (range : Nat × Nat) : Option Excerpt := do
  let text ← inner.text.slice? range.1 range.2
  return ⟨text.trim, inner.offset + range.1⟩

/-- The arguments between the parentheses of an invocation. -/
def arguments? (inner : Excerpt) : Option (List Excerpt) :=
  if inner.text.trim = [] then some []
  else (ranges inner.text.size .outermost 0 0 inner.text).mapM inner.argument?

theorem argument?_append {inner : Excerpt} {before piece after : Text}
    (whole : inner.text = before ++ (piece ++ after)) :
    inner.argument? (before.size, before.size + piece.size) =
      some ⟨piece.trim, inner.offset + before.size⟩ := by
  rw [argument?]
  dsimp only
  rw [whole, Text.slice?_append]
  rfl

/-- **The ranges are the segments**: the scan is behind `before` and `current`, and the range that it
is in starts with `current`. -/
theorem mapM_argument? {inner : Excerpt} (state : Enclosure) (before current text : Text)
    (whole : inner.text = before ++ (current ++ text)) :
    (ranges inner.text.size state before.size (before.size + current.size) text).mapM
        inner.argument? =
      some (placed (inner.offset + before.size)
        ((current ++ (segmentsFrom state text).1) :: (segmentsFrom state text).2)) := by
  induction text generalizing state before current with
  | nil =>
    have stop : inner.text.size = before.size + current.size := by
      rw [whole, List.append_nil, Text.size_append]
    rw [ranges, stop, List.mapM_cons, argument?_append whole, segmentsFrom, List.append_nil]
    rfl
  | cons char rest ih =>
    rw [ranges, segmentsFrom]
    split
    · rename_i separates
      obtain ⟨rfl, -⟩ := separates
      have again : inner.text = (before ++ current ++ [',']) ++ ([] ++ rest) := by
        rw [whole, List.nil_append, List.append_assoc, List.append_assoc, List.singleton_append]
      have next : (before ++ current ++ [',']).size = before.size + current.size + 1 := by
        rw [Text.size_append, Text.size_append]
        rfl
      have later := ih state (before ++ current ++ [',']) [] again
      rw [List.nil_append, Text.size_nil, Nat.add_zero, next, ← Nat.add_assoc, ← Nat.add_assoc]
        at later
      rw [List.mapM_cons, argument?_append whole, later, List.append_nil, placed]
      rfl
    · have again : inner.text = before ++ ((current ++ [char]) ++ rest) := by
        rw [whole, List.append_assoc current, List.singleton_append]
      have next : (current ++ [char]).size = current.size + char.utf8Size := Text.size_append _ _
      have later := ih (state.step char) before (current ++ [char]) again
      rw [next, ← Nat.add_assoc, List.append_assoc, List.singleton_append] at later
      exact later

/-- **Every argument is a slice** of what is between the parentheses. -/
theorem arguments?_eq (inner : Excerpt) : inner.arguments? = some inner.arguments := by
  rw [arguments?, arguments]
  split
  · rfl
  · exact mapM_argument? .outermost [] [] inner.text rfl

/-! ### Ends of groups -/

/-- **A group ends** with a closer. -/
theorem groupFrom_ends {quotes : List Char} {state : Nesting} {text group rest : Text}
    (isClosing : state.IsClosing) (found : groupFrom quotes state text = some (group, rest)) :
    ∃ inner closer, group = inner ++ [closer] ∧ closer.utf8Size = 1 := by
  induction text generalizing state group with
  | nil => cases found
  | cons char text ih =>
    rw [groupFrom] at found
    split at found
    · rename_i next goesOn
      obtain ⟨parts, later, same⟩ := Option.map_eq_some_iff.mp found
      cases same
      obtain ⟨inner, closer, split, narrow⟩ := ih (isClosing.step goesOn) later
      exact ⟨char :: inner, closer, by rw [split, List.cons_append], narrow⟩
    · rename_i ends
      cases found
      refine ⟨[], char, rfl, ?_⟩
      have closes := isClosing char (Nesting.mem_closers_of_ended ends)
      simp only [List.mem_cons, List.not_mem_nil, or_false] at closes
      rcases closes with rfl | rfl | rfl <;> rfl
    · cases found

/-- The group of an invocation is what is between its parenthesis and a closer. -/
theorem balanced?_parenthesis {excerpt after : Excerpt} {more group : Text}
    (opens : excerpt.text = '(' :: more)
    (found : excerpt.balanced? Invocation.quotes = some (group, after)) :
    ∃ inner closer, group = '(' :: (inner ++ [closer]) ∧ closer.utf8Size = 1 := by
  obtain ⟨parts, split, same⟩ := Option.map_eq_some_iff.mp found
  cases same
  rw [opens] at split
  have opened : Nesting.step Invocation.quotes .outside '(' = .inside ⟨[')'], none, false⟩ := rfl
  rw [groupFrom, opened] at split
  obtain ⟨later, scanned, same⟩ := Option.map_eq_some_iff.mp split
  have waits : Nesting.IsClosing ⟨[')'], none, false⟩ :=
    List.forall_mem_singleton.mpr List.mem_cons_self
  obtain ⟨inner, closer, ends, size⟩ := groupFrom_ends waits scanned
  refine ⟨inner, closer, ?_, size⟩
  rw [← same, ← ends]

end Excerpt

namespace Invocation

/-! ### Invocations -/

/-- The invocation that a keyword and a group at an offset are. -/
def ofGroup? (keyword group : Text) (offset : Nat) : Option Invocation := do
  let closeOffset ← minus? (offset + group.size) 1
  let stop ← minus? group.size 1
  let inner ← group.slice? 1 stop
  let arguments ← Excerpt.arguments? ⟨inner, offset + 1⟩
  return ⟨keyword, arguments, closeOffset⟩

/-- How many arguments have no slot. -/
def surplus? (invocation : Invocation) (type : MacroType) : Option Nat :=
  match slotCount? type with
  | some count =>
    if count < invocation.arguments.length then minus? invocation.arguments.length count else some 0
  | none => some 0

/-- **The inside of a group** is a slice, as the group starts and ends with characters of one
byte. -/
theorem ofGroup?_eq {closer : Char} (narrow : closer.utf8Size = 1) (keyword inner : Text)
    (offset : Nat) :
    ofGroup? keyword ('(' :: (inner ++ [closer])) offset =
      some (ofGroup keyword ('(' :: (inner ++ [closer])) offset) := by
  have size : Text.size ('(' :: (inner ++ [closer])) = 1 + inner.size + 1 := by
    rw [Text.size_cons, Text.size_append, Text.size_cons, Text.size_nil, narrow, ← Nat.add_assoc]
    rfl
  have close : minus? (offset + (1 + inner.size + 1)) 1 = some (offset + (1 + inner.size)) :=
    minus?_eq_some_iff.mpr (by omega)
  have stop : minus? (1 + inner.size + 1) 1 = some (1 + inner.size) :=
    minus?_eq_some_iff.mpr (by omega)
  have inside : Text.slice? ('(' :: (inner ++ [closer])) 1 (1 + inner.size) = some inner :=
    Text.slice?_append ['('] inner [closer]
  have middle : (('(' :: (inner ++ [closer])).drop 1).dropLast = inner := List.dropLast_concat
  rw [ofGroup?, ofGroup, size, close, Option.bind_eq_bind, Option.bind_some, stop,
    Option.bind_some, inside, Option.bind_eq_bind, Option.bind_some, Excerpt.arguments?_eq, middle]
  rfl

theorem surplus?_eq (invocation : Invocation) (type : MacroType) :
    invocation.surplus? type = some (invocation.surplus type) := by
  rw [surplus?, surplus]
  cases slotCount? type with
  | none => rfl
  | some count =>
    dsimp only
    split
    · exact minus?_eq_some_iff.mpr (by omega)
    · rw [Nat.sub_eq_zero_of_le (by omega)]

end Invocation

end Scaffold
