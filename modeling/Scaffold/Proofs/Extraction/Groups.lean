/-
**What a group is, and where it ends.**

A group is an opener and what goes up to its closer (`ClosesWith`): characters without a meaning,
whole literals, and groups inside, each up to a closer of its own. The scan finds exactly that
(`groupFrom_eq_some_iff`): its stack holds the closers that are due, and what it has yet to read
completes them from the innermost on (`Completes`).

A scan looks at one character after the other, so it finds a group whatever follows. A group is thus
the only one at its place: no part of it is a group itself, and where there is none, there is none
in any part of the text (`takeGroup_local`).
-/

import Scaffold.Proofs.Extraction.Closed

namespace Scaffold.Excerpt

open Text (QuotedFrom)

/-! ### Groups by what is written -/

/-- The text goes up to the closer and ends with it. -/
inductive ClosesWith (quotes : List Char) : (closer : Char) → Text → Prop
  | ended (closer : Char) : ClosesWith quotes closer [closer]
  | char {closer char : Char} {rest : Text} : char ∉ quotes → closerOf? char = none →
      char ≠ closer → ClosesWith quotes closer rest → ClosesWith quotes closer (char :: rest)
  | literal {closer quote : Char} {body rest : Text} : quote ∈ quotes → QuotedFrom quote body →
      ClosesWith quotes closer rest → ClosesWith quotes closer (quote :: (body ++ rest))
  | group {closer opener other : Char} {inner rest : Text} : opener ∉ quotes →
      closerOf? opener = some other → ClosesWith quotes other inner →
      ClosesWith quotes closer rest → ClosesWith quotes closer (opener :: (inner ++ rest))

/-- The text is one group: an opener, and what goes up to its closer. -/
def IsGroup (quotes : List Char) (group : Text) : Prop :=
  ∃ opener closer inner, closerOf? opener = some closer ∧ ClosesWith quotes closer inner ∧
    group = opener :: inner

/-- No bracket is a quote, and neither is the backslash. -/
def AreApart (quotes : List Char) : Prop :=
  ∀ quote ∈ quotes, quote ∉ ['(', ')', '[', ']', '\x7b', '\x7d', '\\']

section Apart

variable {quotes closers outer : List Char} {opener closer quote : Char} {text group rest : Text}
  (apart : AreApart quotes)

include apart

theorem not_mem_of_closerOf? (opens : closerOf? opener = some closer) :
    opener ∉ quotes ∧ closer ∉ quotes := by
  unfold closerOf? at opens
  constructor
  · intro member
    apply apart opener member
    split at opens <;> simp_all
  · intro member
    apply apart closer member
    split at opens <;> cases opens <;> decide

/-! ### The scan finds what is written -/

/-- What goes up to a closer is passed but for the closer, whatever else is open. -/
theorem ClosesWith.exists_passes (closes : ClosesWith quotes closer text) :
    ∃ body, text = body ++ [closer] ∧ ∀ outer,
      Nesting.Passes quotes (.awaiting (closer :: outer)) body (.awaiting (closer :: outer)) := by
  induction closes with
  | ended closer => exact ⟨[], rfl, fun outer => .nil _⟩
  | @char closer char rest noQuote noOpener other _ ih =>
    obtain ⟨body, rfl, passes⟩ := ih
    refine ⟨char :: body, rfl, fun outer => .cons ?_ (passes outer)⟩
    simp only [Nesting.step, noQuote, noOpener, other, if_false]
  | @literal closer quote body rest isQuote quoted _ ih =>
    obtain ⟨later, rfl, passes⟩ := ih
    have noEscape : quote ≠ '\\' := by
      rintro rfl
      exact apart _ isQuote (by decide)
    refine ⟨quote :: (body ++ later), by simp only [List.cons_append, List.append_assoc],
      fun outer => .cons ?_ ((Nesting.passes_quotedFrom _ quoted noEscape).append (passes outer))⟩
    simp only [Nesting.step, isQuote, if_true]
  | @group closer opener other inner rest noQuote opens _ _ ihInner ih =>
    obtain ⟨first, rfl, passesFirst⟩ := ihInner
    obtain ⟨later, rfl, passes⟩ := ih
    refine ⟨opener :: (first ++ other :: later), by simp, fun outer =>
      .cons (Nesting.step_opener noQuote opens)
        ((passesFirst (closer :: outer)).append (.cons ?_ (passes outer)))⟩
    have noQuoteEither := (not_mem_of_closerOf? apart opens).2
    simp [Nesting.step, noQuoteEither, (Nesting.closer_of_closerOf? opens).2]

theorem IsGroup.groupFrom (isGroup : IsGroup quotes group) (rest : Text) :
    groupFrom quotes .outside (group ++ rest) = some (group, rest) := by
  obtain ⟨opener, closer, inner, opens, closes, rfl⟩ := isGroup
  obtain ⟨body, rfl, passes⟩ := closes.exists_passes apart
  obtain ⟨noQuote, noQuoteEither⟩ := not_mem_of_closerOf? apart opens
  rw [List.cons_append, List.append_assoc]
  exact groupFrom_of_passes (passes []) opens noQuote noQuoteEither rest

end Apart

/-! ### What the scan finds is a group -/

variable {quotes closers : List Char} {state next : Nesting} {closer char : Char}
  {text group rest : Text}

/-- The text goes up to each of the closers in turn. -/
inductive ClosesAll (quotes : List Char) : List Char → Text → Prop
  | nil : ClosesAll quotes [] []
  | cons {closer : Char} {closers : List Char} {first later : Text} :
      ClosesWith quotes closer first → ClosesAll quotes closers later →
      ClosesAll quotes (closer :: closers) (first ++ later)

namespace ClosesAll

/-- What goes up to the first closer may have something before it that the closer allows there. -/
theorem prepend (lead : Text) (closes : ClosesAll quotes (closer :: closers) text)
    (leads : ∀ first, ClosesWith quotes closer first →
      ClosesWith quotes closer (char :: (lead ++ first))) :
    ClosesAll quotes (closer :: closers) (char :: (lead ++ text)) := by
  cases closes with
  | cons first later =>
    rw [← List.append_assoc, ← List.cons_append]
    exact .cons (leads _ first) later

theorem singleton (closes : ClosesAll quotes [closer] text) : ClosesWith quotes closer text := by
  cases closes with
  | cons first later =>
    cases later
    rwa [List.append_nil]

end ClosesAll

/-- The text completes what is open in the state: its literal, and then all that closers are due
for. -/
def Completes (quotes : List Char) (state : Nesting) (text : Text) : Prop :=
  match state.literal with
  | none => ClosesAll quotes state.closers text
  | some quote => ∃ body later, text = body ++ later ∧ ClosesAll quotes state.closers later ∧
      QuotedFrom quote (if state.escaped then '\\' :: body else body)

namespace Nesting

/-- A closer is due, and only characters of literals are escaped. -/
def IsOpen (state : Nesting) : Prop :=
  state.closers ≠ [] ∧ (state.literal = none → state.escaped = false)

/-- A character of a literal belongs to what completes the literal. -/
theorem completes_stepLiteral {quote : Char} (isOpen : state.IsOpen)
    (inside : state.literal = some quote) :
    (state.stepLiteral quote char).IsOpen ∧
      (Completes quotes (state.stepLiteral quote char) text →
        Completes quotes state (char :: text)) := by
  obtain ⟨closers, literal, escaped⟩ := state
  obtain ⟨due, -⟩ := isOpen
  cases inside
  unfold stepLiteral
  cases escaped with
  | true =>
    refine ⟨⟨due, nofun⟩, ?_⟩
    rintro ⟨body, later, rfl, closes, quoted⟩
    exact ⟨char :: body, later, rfl, closes, .escaped char quoted⟩
  | false =>
    simp only [Bool.false_eq_true, if_false]
    by_cases escapes : char = '\\'
    · rw [if_pos escapes]
      refine ⟨⟨due, nofun⟩, ?_⟩
      rintro ⟨body, later, rfl, closes, quoted⟩
      exact ⟨char :: body, later, rfl, closes, escapes ▸ quoted⟩
    rw [if_neg escapes]
    by_cases ends : char = quote
    · rw [if_pos ends]
      refine ⟨⟨due, fun _ => rfl⟩, fun closes => ?_⟩
      exact ⟨[char], text, rfl, closes, ends ▸ .ended⟩
    · rw [if_neg ends]
      refine ⟨⟨due, nofun⟩, ?_⟩
      rintro ⟨body, later, rfl, closes, quoted⟩
      exact ⟨char :: body, later, rfl, closes, .char ends escapes quoted⟩

/-- **What one character does**: a closer is still due after it, and what completes the state after
it completes the state before it together with the character. -/
theorem completes_step (isOpen : state.IsOpen) (goesOn : state.step quotes char = .inside next) :
    next.IsOpen ∧ (Completes quotes next text → Completes quotes state (char :: text)) := by
  unfold step at goesOn
  split at goesOn
  · rename_i quote inside
    cases goesOn
    exact completes_stepLiteral isOpen inside
  rename_i outside
  obtain ⟨closers, literal, escaped⟩ := state
  cases outside
  obtain ⟨due, calm⟩ := isOpen
  obtain rfl : escaped = false := calm rfl
  obtain ⟨expected, outer, rfl⟩ := List.exists_cons_of_ne_nil due
  split at goesOn
  · rename_i isQuote
    cases goesOn
    refine ⟨⟨due, nofun⟩, ?_⟩
    rintro ⟨body, later, rfl, closes, quoted⟩
    exact closes.prepend body fun first due => .literal isQuote quoted due
  rename_i noQuote
  split at goesOn
  · rename_i opens
    cases goesOn
    refine ⟨⟨List.cons_ne_nil _ _, fun _ => rfl⟩, fun closes => ?_⟩
    cases closes with
    | cons inner later =>
      exact later.prepend _ fun first due => .group noQuote opens inner due
  rename_i noOpener
  dsimp only at goesOn
  split at goesOn
  · rename_i same
    split at goesOn
    · cases goesOn
    · rename_i more
      cases goesOn
      refine ⟨⟨more, fun _ => rfl⟩, fun closes => ?_⟩
      rw [← same]
      exact .cons (.ended char) closes
  · rename_i other
    cases goesOn
    refine ⟨⟨due, fun _ => rfl⟩, fun closes => ?_⟩
    exact closes.prepend [] fun first due => .char noQuote noOpener other due

end Nesting

/-- **What a scan finds completes the state** that it starts in. -/
theorem completes_of_groupFrom (isOpen : state.IsOpen)
    (found : groupFrom quotes state text = some (group, rest)) : Completes quotes state group := by
  induction text generalizing state group with
  | nil => cases found
  | cons char text ih =>
    rw [groupFrom] at found
    cases progress : state.step quotes char with
    | inside next =>
      rw [progress] at found
      obtain ⟨parts, later, same⟩ := Option.map_eq_some_iff.mp found
      cases same
      obtain ⟨isOpenNext, completes⟩ := Nesting.completes_step isOpen progress
      exact completes (ih isOpenNext later)
    | ended =>
      rw [progress] at found
      cases found
      obtain ⟨outside, last⟩ := Nesting.eq_of_ended progress
      unfold Completes
      rw [outside, last]
      exact .cons (.ended char) .nil
    | stray =>
      rw [progress] at found
      cases found

/-- **The scan finds the group** that the text starts with, and nothing else. -/
theorem groupFrom_eq_some_iff (apart : AreApart quotes) {opener : Char} {more : Text}
    (opens : closerOf? opener = some closer) :
    groupFrom quotes .outside (opener :: more) = some (group, rest) ↔
      opener :: more = group ++ rest ∧ IsGroup quotes group := by
  constructor
  · intro found
    refine ⟨(groupFrom_append found).symm, ?_⟩
    have started : Nesting.outside.step quotes opener = .inside (.awaiting [closer]) :=
      Nesting.step_opener (not_mem_of_closerOf? apart opens).1 opens
    rw [groupFrom, started] at found
    obtain ⟨parts, inner, same⟩ := Option.map_eq_some_iff.mp found
    cases same
    have completes := completes_of_groupFrom ⟨List.cons_ne_nil _ _, fun _ => rfl⟩ inner
    exact ⟨opener, closer, parts.1, opens, ClosesAll.singleton completes, rfl⟩
  · rintro ⟨whole, isGroup⟩
    rw [whole]
    exact isGroup.groupFrom apart rest

/-! ### Groups at their places -/

/-- **No part of what is found is found**, unless it is all of it. -/
theorem groupFrom_eq_none_of_part {part : Text}
    (found : groupFrom quotes state text = some (group, rest)) (leads : part <+: group)
    (proper : part ≠ group) : groupFrom quotes state part = none := by
  cases shorter : groupFrom quotes state part with
  | none => rfl
  | some parts =>
    exfalso
    obtain ⟨more, whole⟩ := leads
    have again := groupFrom_of_some found []
    have within := groupFrom_of_some shorter (parts.2 ++ more)
    rw [← List.append_assoc, groupFrom_append shorter, whole, ← List.append_nil group, again]
      at within
    have none : parts.2 ++ more = [] := congrArg Prod.snd (Option.some.inj within).symm
    apply proper
    rw [← whole, (List.append_eq_nil_iff.mp none).2, List.append_nil]

/-- **Where nothing is found, nothing is found in any part** of the text. -/
theorem groupFrom_eq_none_of_none {part : Text} (missing : groupFrom quotes state text = none)
    (leads : part <+: text) : groupFrom quotes state part = none := by
  cases found : groupFrom quotes state part with
  | none => rfl
  | some parts =>
    exfalso
    obtain ⟨more, rfl⟩ := leads
    have longer := groupFrom_of_some found (parts.2 ++ more)
    rw [← List.append_assoc, groupFrom_append found, missing] at longer
    cases longer

/-- The group at the cursor, and what is left once it is taken. Without a group everything is
left. -/
def takeGroup (quotes : List Char) (excerpt : Excerpt) : Option Text × Excerpt :=
  match excerpt.balanced? quotes with
  | some (group, left) => (some group, left)
  | none => (none, excerpt)

section Taken

variable {quotes : List Char} {excerpt left : Excerpt} {group : Text}

theorem takeGroup_eq_some_iff :
    takeGroup quotes excerpt = (some group, left) ↔
      ∃ rest, groupFrom quotes .outside excerpt.text = some (group, rest) ∧
        left = ⟨rest, excerpt.offset + group.size⟩ := by
  unfold takeGroup balanced?
  cases groupFrom quotes .outside excerpt.text with
  | none => exact ⟨nofun, fun ⟨_, found, _⟩ => nomatch found⟩
  | some parts =>
    constructor
    · rintro ⟨⟩
      exact ⟨parts.2, rfl, rfl⟩
    · rintro ⟨rest, ⟨⟩, rfl⟩
      rfl

theorem takeGroup_eq_none_iff :
    takeGroup quotes excerpt = (none, left) ↔
      groupFrom quotes .outside excerpt.text = none ∧ left = excerpt := by
  unfold takeGroup balanced?
  cases groupFrom quotes .outside excerpt.text with
  | none =>
    exact ⟨fun same => ⟨rfl, (congrArg Prod.snd same).symm⟩, fun both => by rw [both.2]; rfl⟩
  | some parts => exact ⟨nofun, fun both => nomatch both.1⟩

theorem fst_takeGroup_of_none (missing : groupFrom quotes .outside excerpt.text = none) :
    (takeGroup quotes excerpt).1 = none :=
  congrArg Prod.fst (takeGroup_eq_none_iff.mpr ⟨missing, rfl⟩)

end Taken

/-- **A group is the shortest one at its place, and up to nothing else.** At an opener, what is
taken is the group that the text starts with, if there is one: it ends with the closer of the opener, the
cursor moves behind it, no shorter part of it would be taken, and it is taken whatever follows. If
nothing is taken the cursor stays, and nothing would be taken of any part of the text either. -/
theorem takeGroup_local {quotes : List Char} (apart : AreApart quotes) {opener closer : Char}
    (pair : (opener, closer) ∈ [('(', ')'), ('[', ']'), ('\x7b', '\x7d')]) (more : Text)
    (offset : Nat) :
    (∀ group, (∃ left, takeGroup quotes ⟨opener :: more, offset⟩ = (some group, left)) ↔
        group <+: opener :: more ∧ IsGroup quotes group) ∧
      (∀ group left, takeGroup quotes ⟨opener :: more, offset⟩ = (some group, left) →
        (∃ inner, group = opener :: (inner ++ [closer])) ∧
        (∃ rest, opener :: more = group ++ rest ∧ left = ⟨rest, offset + group.size⟩) ∧
        (∀ part start, part <+: group → part ≠ group →
          (takeGroup quotes ⟨part, start⟩).1 = none) ∧
        ∀ further start, takeGroup quotes ⟨group ++ further, start⟩ =
          (some group, ⟨further, start + group.size⟩)) ∧
      ∀ left, takeGroup quotes ⟨opener :: more, offset⟩ = (none, left) →
        left = ⟨opener :: more, offset⟩ ∧
        ∀ part start, part <+: opener :: more → part.head? = some opener →
          (takeGroup quotes ⟨part, start⟩).1 = none := by
  have opens : closerOf? opener = some closer := by
    simp only [List.mem_cons, Prod.mk.injEq, List.not_mem_nil, or_false] at pair
    rcases pair with ⟨rfl, rfl⟩ | ⟨rfl, rfl⟩ | ⟨rfl, rfl⟩ <;> rfl
  refine ⟨fun group => ?_, fun group left taken => ?_, fun left missed => ?_⟩
  · constructor
    · rintro ⟨left, taken⟩
      obtain ⟨rest, found, -⟩ := takeGroup_eq_some_iff.mp taken
      obtain ⟨whole, isGroup⟩ := (groupFrom_eq_some_iff apart opens).mp found
      exact ⟨⟨rest, whole.symm⟩, isGroup⟩
    · rintro ⟨⟨rest, whole⟩, isGroup⟩
      have found := (groupFrom_eq_some_iff apart opens).mpr ⟨whole.symm, isGroup⟩
      exact ⟨_, takeGroup_eq_some_iff.mpr ⟨rest, found, rfl⟩⟩
  · obtain ⟨rest, found, rfl⟩ := takeGroup_eq_some_iff.mp taken
    obtain ⟨whole, isGroup⟩ := (groupFrom_eq_some_iff apart opens).mp found
    refine ⟨?_, ⟨rest, whole, rfl⟩, fun part start leads proper =>
      fst_takeGroup_of_none (groupFrom_eq_none_of_part found leads proper),
      fun further start =>
        takeGroup_eq_some_iff.mpr ⟨further, groupFrom_of_some found further, rfl⟩⟩
    obtain ⟨first, last, inner, opensFirst, closes, rfl⟩ := isGroup
    obtain ⟨rfl, -⟩ := List.cons.inj whole
    obtain rfl : closer = last := Option.some.inj (opens.symm.trans opensFirst)
    obtain ⟨body, rfl, -⟩ := closes.exists_passes apart
    exact ⟨body, rfl⟩
  · obtain ⟨missing, rfl⟩ := takeGroup_eq_none_iff.mp missed
    exact ⟨rfl, fun part start leads _ =>
      fst_takeGroup_of_none (groupFrom_eq_none_of_none missing leads)⟩

/-- A group with a closer that closes nothing, a closer in a literal with an escaped quote and a
group inside, and an opener whose only closer is in a literal. -/
theorem takeGroup_local_nested :
    let quotes : List Char := ['"', '\'']
    let group : Text := '(' :: "é[1], \"q\\\")\" x])".toList
    AreApart quotes ∧ ('(', ')') ∈ [('(', ')'), ('[', ']'), ('\x7b', '\x7d')] ∧
      takeGroup quotes ⟨group ++ " tail)".toList, 10⟩ = (some group, ⟨" tail)".toList, 28⟩) ∧
      IsGroup quotes group ∧
      group.dropLast <+: group ∧ group.dropLast ≠ group ∧
      (takeGroup quotes ⟨group.dropLast, 3⟩).1 = none ∧
      takeGroup quotes ⟨'\x7b' :: "1, \"\x7d\"".toList, 0⟩ =
        (none, ⟨'\x7b' :: "1, \"\x7d\"".toList, 0⟩) ∧
      (takeGroup quotes ⟨'\x7b' :: "1, \"".toList, 7⟩).1 = none := by
  intro quotes group
  have apart : AreApart quotes := List.forall_iff_forall_mem.mp (by decide)
  have taken : takeGroup quotes ⟨group ++ " tail)".toList, 10⟩ =
      (some group, ⟨" tail)".toList, 28⟩) := by decide +kernel
  have missed : takeGroup quotes ⟨'\x7b' :: "1, \"\x7d\"".toList, 0⟩ =
      (none, ⟨'\x7b' :: "1, \"\x7d\"".toList, 0⟩) := by decide +kernel
  have round := takeGroup_local apart (by decide : ('(', ')') ∈ _)
    ("é[1], \"q\\\")\" x])".toList ++ " tail)".toList) 10
  have curly := takeGroup_local apart (by decide : ('\x7b', '\x7d') ∈ _)
    "1, \"\x7d\"".toList 0
  refine ⟨apart, by decide, taken, ((round.1 group).mp ⟨_, taken⟩).2, List.dropLast_prefix group,
    by decide, ?_, missed, ?_⟩
  · exact (round.2.1 group _ taken).2.2.1 _ 3 (List.dropLast_prefix group) (by decide)
  · exact (curly.2.2 _ missed).2 _ 7 ⟨"\x7d\"".toList, by decide⟩ rfl

end Scaffold.Excerpt
