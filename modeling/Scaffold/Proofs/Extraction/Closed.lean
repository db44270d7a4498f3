/-
**Closed texts.**

A text is closed if its quotes open whole literals, its brackets stand in pairs with closed texts in
them, and its commas are inside such pairs. It is bracketed if that is so but for its angle
brackets. Neither of the two scans of a macro invocation stops in a closed text, whatever surrounds
it, and each one leaves it in the state that it entered it in:

* `Nesting.isNeutral_bracketed`: the scan for the end of the group, which knows no angle brackets;
* `Enclosure.passes_closed`: the scan for commas.

So both see what was written: the group ends at its own parenthesis (`groupFrom_of_passes`), and
the segments of closed texts with commas between them are these texts (`segments_join_closed`).
-/

import Mathlib.Data.List.Basic
import Scaffold.Excerpt.Arguments
import Scaffold.Excerpt.Balanced

namespace Scaffold

namespace Text

/-- The rest of a literal after its opening quote, up to the quote that ends it. -/
inductive QuotedFrom (quote : Char) : Text → Prop
  | ended : QuotedFrom quote [quote]
  | char {char : Char} {rest : Text} : char ≠ quote → char ≠ '\\' → QuotedFrom quote rest →
      QuotedFrom quote (char :: rest)
  | escaped {rest : Text} (char : Char) : QuotedFrom quote rest →
      QuotedFrom quote ('\\' :: char :: rest)

/-- A character that is neither a comma, nor a quote, nor a bracket. -/
def IsPlain (char : Char) : Prop :=
  char ∉ [',', '"', '\'', '(', ')', '[', ']', '\x7b', '\x7d', '<', '>']

instance (char : Char) : Decidable (IsPlain char) := by
  unfold IsPlain
  infer_instance

/-- A pair of brackets. -/
inductive Brackets : Char → Char → Prop
  | parentheses : Brackets '(' ')'
  | square : Brackets '[' ']'
  | curly : Brackets '\x7b' '}'
  | angle : Brackets '<' '>'

/-- The text is closed; it may hold commas outside of all brackets if `commas` is true. -/
inductive Closed : (commas : Bool) → Text → Prop
  | nil (commas : Bool) : Closed commas []
  | plain {commas : Bool} {char : Char} {rest : Text} : IsPlain char → Closed commas rest →
      Closed commas (char :: rest)
  | comma {rest : Text} : Closed true rest → Closed true (',' :: rest)
  | literal {commas : Bool} {quote : Char} {body rest : Text} : quote = '"' ∨ quote = '\'' →
      QuotedFrom quote body → Closed commas rest → Closed commas (quote :: (body ++ rest))
  | group {commas : Bool} {opener closer : Char} {inner rest : Text} : Brackets opener closer →
      Closed true inner → Closed commas rest →
      Closed commas (opener :: (inner ++ closer :: rest))

variable {commas : Bool} {text rest : Text}

theorem Closed.of_forall (plain : text.Forall IsPlain) : Closed commas text := by
  induction text with
  | nil => exact .nil commas
  | cons char rest ih =>
    obtain ⟨first, others⟩ := List.forall_cons _ _ _ |>.mp plain
    exact .plain first (ih others)

theorem Closed.append (closed : Closed commas text) (others : Closed commas rest) :
    Closed commas (text ++ rest) := by
  induction closed with
  | nil => exact others
  | plain isPlain _ ih => exact .plain isPlain (ih others)
  | comma _ ih => exact .comma (ih others)
  | literal isQuote quoted _ ih =>
    rw [List.cons_append, List.append_assoc]
    exact .literal isQuote quoted (ih others)
  | group brackets inner _ _ ih =>
    rw [List.cons_append, List.append_assoc]
    exact .group brackets inner (ih others)

/-! ### Angle brackets that are none -/

/-- A character that is neither a comma, nor a quote, nor a bracket other than an angle bracket. -/
def IsOrdinary (char : Char) : Prop :=
  char ∉ [',', '"', '\'', '(', ')', '[', ']', '\x7b', '\x7d']

instance (char : Char) : Decidable (IsOrdinary char) := by
  unfold IsOrdinary
  infer_instance

/-- The text is bracketed: it is closed, but for its angle brackets, which can stand anywhere. -/
inductive Bracketed : (commas : Bool) → Text → Prop
  | nil (commas : Bool) : Bracketed commas []
  | ordinary {commas : Bool} {char : Char} {rest : Text} : IsOrdinary char →
      Bracketed commas rest → Bracketed commas (char :: rest)
  | comma {rest : Text} : Bracketed true rest → Bracketed true (',' :: rest)
  | literal {commas : Bool} {quote : Char} {body rest : Text} : quote = '"' ∨ quote = '\'' →
      QuotedFrom quote body → Bracketed commas rest → Bracketed commas (quote :: (body ++ rest))
  | group {commas : Bool} {opener closer : Char} {inner rest : Text} :
      Excerpt.closerOf? opener = some closer → Bracketed true inner → Bracketed commas rest →
      Bracketed commas (opener :: (inner ++ closer :: rest))

theorem Bracketed.of_forall (ordinary : text.Forall IsOrdinary) : Bracketed commas text := by
  induction text with
  | nil => exact .nil commas
  | cons char rest ih =>
    obtain ⟨first, others⟩ := List.forall_cons _ _ _ |>.mp ordinary
    exact .ordinary first (ih others)

theorem Bracketed.append (bracketed : Bracketed commas text) (others : Bracketed commas rest) :
    Bracketed commas (text ++ rest) := by
  induction bracketed with
  | nil => exact others
  | ordinary isOrdinary _ ih => exact .ordinary isOrdinary (ih others)
  | comma _ ih => exact .comma (ih others)
  | literal isQuote quoted _ ih =>
    rw [List.cons_append, List.append_assoc]
    exact .literal isQuote quoted (ih others)
  | group opens inner _ _ ih =>
    rw [List.cons_append, List.append_assoc]
    exact .group opens inner (ih others)

/-- Nothing is asked of commas that is not asked of other texts. -/
theorem Bracketed.withCommas (bracketed : Bracketed commas text) : Bracketed true text := by
  induction bracketed with
  | nil => exact .nil true
  | ordinary isOrdinary _ ih => exact .ordinary isOrdinary ih
  | comma _ ih => exact .comma ih
  | literal isQuote quoted _ ih => exact .literal isQuote quoted ih
  | group opens inner _ _ ih => exact .group opens inner ih

/-- A closed text is bracketed; what its angle brackets enclose may have commas. -/
theorem Closed.bracketed (closed : Closed commas text) : Bracketed true text := by
  induction closed with
  | nil => exact .nil true
  | @plain commas char rest isPlain _ ih =>
    have among : [',', '"', '\'', '(', ')', '[', ']', '\x7b', '\x7d'].Sublist
        [',', '"', '\'', '(', ')', '[', ']', '\x7b', '\x7d', '<', '>'] := by decide
    exact .ordinary (fun member => isPlain (among.subset member)) ih
  | comma _ ih => exact .comma ih
  | literal isQuote quoted _ ih => exact .literal isQuote quoted ih
  | group brackets _ _ ihInner ih =>
    cases brackets with
    | angle =>
      exact .ordinary (by decide) (ihInner.append (.ordinary (by decide) ih))
    | parentheses | square | curly => exact .group rfl ihInner ih

/-- Bracketed texts with commas between them are bracketed. -/
theorem Bracketed.join {parts : List Text} (bracketed : ∀ part ∈ parts, Bracketed true part) :
    Bracketed true (Text.join [','] parts) := by
  induction parts with
  | nil => exact .nil true
  | cons first others ih =>
    obtain ⟨firstBracketed, othersBracketed⟩ := List.forall_mem_cons.mp bracketed
    cases others with
    | nil =>
      rw [Text.join, List.intercalate_singleton]
      exact firstBracketed
    | cons second others =>
      rw [Text.join, List.intercalate_cons_cons, List.append_assoc]
      exact firstBracketed.append (.comma (ih othersBracketed))

end Text

namespace Excerpt

/-! ### The end of a group -/

namespace Nesting

/-- The scan goes on from one state to another over the text. -/
inductive Passes (quotes : List Char) : Nesting → Text → Nesting → Prop
  | nil (state : Nesting) : Passes quotes state [] state
  | cons {state next last : Nesting} {char : Char} {rest : Text} :
      state.step quotes char = .inside next → Passes quotes next rest last →
      Passes quotes state (char :: rest) last

variable {quotes closers : List Char} {state next last : Nesting} {text rest : Text}
  {quote opener closer : Char}

theorem Passes.append (first : Passes quotes state text next)
    (second : Passes quotes next rest last) : Passes quotes state (text ++ rest) last := by
  induction first with
  | nil => exact second
  | cons step _ ih => exact .cons step (ih second)

/-- What is passed is in the group. -/
theorem Passes.groupFrom (passes : Passes quotes state text last) (rest : Text) :
    groupFrom quotes state (text ++ rest) =
      (Excerpt.groupFrom quotes last rest).map fun parts => (text ++ parts.1, parts.2) := by
  induction passes with
  | nil => exact (Option.map_id' ..).symm
  | cons step _ ih =>
    rw [List.cons_append, Excerpt.groupFrom, step]
    dsimp only
    rw [ih, Option.map_map]
    rfl

/-- Waiting for these closers, outside of every literal. -/
abbrev awaiting (closers : List Char) : Nesting := ⟨closers, none, false⟩

/-- The closers that there are. -/
def closerMarks : List Char := [')', ']', '\x7d']

/-- A closer of brackets is none of their openers, and a scan may wait for it. -/
theorem closer_of_closerOf? {opener closer : Char} (opens : closerOf? opener = some closer) :
    closer ∈ closerMarks ∧ closerOf? closer = none := by
  unfold closerOf? at opens
  split at opens <;> cases opens <;> decide

/-- A scan ends with the only closer that is due, outside of every literal. -/
theorem eq_of_ended {char : Char} (ends : state.step quotes char = .ended) :
    state.literal = none ∧ state.closers = [char] := by
  unfold step at ends
  split at ends
  · cases ends
  rename_i outside
  split at ends
  · cases ends
  split at ends
  · cases ends
  split at ends
  · cases ends
  rename_i expected outer waits
  split at ends
  · rename_i same
    split at ends
    · rename_i last
      exact ⟨outside, by rw [waits, same, last]⟩
    · cases ends
  · cases ends

/-- Wherever the text stands in a group, it is passed and changes nothing. -/
def IsNeutral (quotes : List Char) (text : Text) : Prop :=
  ∀ closer outer, closer ∈ closerMarks →
    Passes quotes (awaiting (closer :: outer)) text (awaiting (closer :: outer))

theorem isNeutral_nil (quotes : List Char) : IsNeutral quotes [] := fun _ _ _ => .nil _

theorem IsNeutral.append (first : IsNeutral quotes text) (second : IsNeutral quotes rest) :
    IsNeutral quotes (text ++ rest) :=
  fun closer outer isCloser => (first closer outer isCloser).append (second closer outer isCloser)

/-- Characters without a meaning are passed. -/
theorem isNeutral_of_forall
    (plain : ∀ char ∈ text, char ∉ quotes ∧ closerOf? char = none ∧ char ∉ closerMarks) :
    IsNeutral quotes text := by
  intro closer outer isCloser
  induction text with
  | nil => exact .nil _
  | cons char rest ih =>
    obtain ⟨⟨noQuote, noOpener, noCloser⟩, others⟩ := List.forall_mem_cons.mp plain
    have other : char ≠ closer := by
      rintro rfl
      exact noCloser isCloser
    refine .cons ?_ (ih others)
    simp only [step, noQuote, noOpener, other, if_false]

/-- A literal is passed up to its end. -/
theorem passes_quotedFrom (closers : List Char) (quoted : Text.QuotedFrom quote text)
    (noEscape : quote ≠ '\\') :
    Passes quotes ⟨closers, some quote, false⟩ text (awaiting closers) := by
  induction quoted with
  | ended =>
    refine .cons ?_ (.nil _)
    simp only [step, stepLiteral, noEscape, if_true, if_false, Bool.false_eq_true]
  | char isOther noSlash _ ih =>
    refine .cons ?_ ih
    simp only [step, stepLiteral, isOther, noSlash, if_false, Bool.false_eq_true]
  | escaped char _ ih => exact .cons rfl (.cons (rfl : step _ ⟨_, some quote, true⟩ char = _) ih)

/-- A whole literal is passed. -/
theorem isNeutral_literal (isQuote : quote ∈ quotes) (noEscape : quote ≠ '\\')
    (quoted : Text.QuotedFrom quote text) : IsNeutral quotes (quote :: text) := by
  intro closer outer _
  refine .cons ?_ (passes_quotedFrom (closer :: outer) quoted noEscape)
  simp only [step, isQuote, if_true]

theorem step_opener (noQuote : opener ∉ quotes) (opens : closerOf? opener = some closer) :
    (awaiting closers).step quotes opener = .inside (awaiting (closer :: closers)) := by
  simp only [step, noQuote, if_false, opens]

/-- A pair of brackets around a text that is passed. -/
theorem IsNeutral.group (inner : IsNeutral quotes text) (opens : closerOf? opener = some closer)
    (noQuote : opener ∉ quotes) (noQuoteEither : closer ∉ quotes) :
    IsNeutral quotes (opener :: (text ++ [closer])) := by
  intro expected outer isCloser
  have known := closer_of_closerOf? opens
  refine .cons (step_opener noQuote opens) ((inner closer _ known.1).append (.cons ?_ (.nil _)))
  simp [step, noQuoteEither, known.2]

/-- **A bracketed text is passed** by the scan for the end of a group: it does not know angle
brackets. -/
theorem isNeutral_bracketed {commas : Bool} (bracketed : Text.Bracketed commas text) :
    IsNeutral ['"', '\''] text := by
  have meaningless : ∀ char, char ∉ ['"', '\'', '(', ')', '[', ']', '\x7b', '\x7d'] →
      IsNeutral ['"', '\''] [char] := by
    intro char other
    simp only [List.mem_cons, List.not_mem_nil, or_false, not_or] at other
    refine isNeutral_of_forall (List.forall_mem_singleton.mpr ?_)
    simp [closerMarks, closerOf?, other]
  induction bracketed with
  | nil => exact isNeutral_nil _
  | @ordinary commas char rest isOrdinary _ ih =>
    exact (meaningless char fun member => isOrdinary (List.mem_cons_of_mem _ member)).append ih
  | comma _ ih => exact (meaningless ',' (by decide)).append ih
  | @literal commas quote body rest isQuote quoted _ ih =>
    have noEscape : quote ≠ '\\' := by
      rcases isQuote with rfl | rfl <;> decide
    exact (isNeutral_literal (by simpa using isQuote) noEscape quoted).append ih
  | @group commas opener closer inner rest opens _ _ ihInner ih =>
    have split : opener :: (inner ++ closer :: rest) = opener :: (inner ++ [closer]) ++ rest := by
      rw [List.cons_append, List.append_assoc, List.singleton_append]
    have noQuotes : opener ∉ ['"', '\''] ∧ closer ∉ ['"', '\''] := by
      unfold closerOf? at opens
      split at opens <;> cases opens <;> decide
    rw [split]
    exact (ihInner.group opens noQuotes.1 noQuotes.2).append ih

end Nesting

/-- **A group ends** at the closer of its opener if the text between them is passed. -/
theorem groupFrom_of_passes {quotes : List Char} {text : Text} {opener closer : Char}
    (inner : Nesting.Passes quotes (.awaiting [closer]) text (.awaiting [closer]))
    (opens : closerOf? opener = some closer) (noQuote : opener ∉ quotes)
    (noQuoteEither : closer ∉ quotes) (rest : Text) :
    groupFrom quotes .outside (opener :: (text ++ closer :: rest)) =
      some (opener :: (text ++ [closer]), rest) := by
  have ended : (Nesting.awaiting [closer]).step quotes closer = .ended := by
    simp [Nesting.step, noQuoteEither, (Nesting.closer_of_closerOf? opens).2]
  have started : Nesting.outside.step quotes opener = .inside (.awaiting [closer]) :=
    Nesting.step_opener noQuote opens
  rw [groupFrom, started]
  dsimp only
  rw [inner.groupFrom, groupFrom, ended]
  rfl

theorem groupFrom_of_isNeutral {quotes : List Char} {text : Text} {opener closer : Char}
    (inner : Nesting.IsNeutral quotes text) (opens : closerOf? opener = some closer)
    (noQuote : opener ∉ quotes) (noQuoteEither : closer ∉ quotes) (rest : Text) :
    groupFrom quotes .outside (opener :: (text ++ closer :: rest)) =
      some (opener :: (text ++ [closer]), rest) :=
  groupFrom_of_passes (inner closer [] (Nesting.closer_of_closerOf? opens).1) opens noQuote noQuoteEither
    rest

/-- **A group is found whatever follows it.** -/
theorem groupFrom_of_some {quotes : List Char} {state : Nesting} {text group rest : Text}
    (found : groupFrom quotes state text = some (group, rest)) (further : Text) :
    groupFrom quotes state (group ++ further) = some (group, further) := by
  induction text generalizing state group with
  | nil => cases found
  | cons char text ih =>
    rw [groupFrom] at found
    cases progress : state.step quotes char with
    | inside next =>
      rw [progress] at found
      obtain ⟨parts, inner, same⟩ := Option.map_eq_some_iff.mp found
      cases same
      rw [List.cons_append, groupFrom, progress]
      exact Option.map_eq_some_iff.mpr ⟨_, ih inner, rfl⟩
    | ended =>
      rw [progress] at found
      cases found
      rw [List.singleton_append, groupFrom, progress]
    | stray =>
      rw [progress] at found
      cases found

/-! ### The commas of a group -/

namespace Enclosure

/-- The scan goes on from one state to another over the text and meets no separating comma. -/
inductive Passes : Enclosure → Text → Enclosure → Prop
  | nil (state : Enclosure) : Passes state [] state
  | cons {state last : Enclosure} {char : Char} {rest : Text} :
      ¬ (char = ',' ∧ state.isOutermost = true) → Passes (state.step char) rest last →
      Passes state (char :: rest) last

variable {state next last : Enclosure} {text rest : Text} {quote : Char}

theorem Passes.append (first : Passes state text next) (second : Passes next rest last) :
    Passes state (text ++ rest) last := by
  induction first with
  | nil => exact second
  | cons inside _ ih => exact .cons inside (ih second)

/-- What is passed is in one segment. -/
theorem Passes.segmentsFrom (passes : Passes state text last) (rest : Text) :
    segmentsFrom state (text ++ rest) =
      (text ++ (Excerpt.segmentsFrom last rest).1, (Excerpt.segmentsFrom last rest).2) := by
  induction passes with
  | nil => rfl
  | cons inside _ ih => rw [List.cons_append, Excerpt.segmentsFrom, if_neg inside, ih]; rfl

/-- Inside so many brackets, outside of every literal. -/
abbrev within (depth angle : Nat) : Enclosure := ⟨depth, angle, none, false⟩

/-- A literal is passed up to its end. -/
theorem passes_quotedFrom (depth angle : Nat) (quoted : Text.QuotedFrom quote text)
    (noEscape : quote ≠ '\\') :
    Passes ⟨depth, angle, some quote, false⟩ text (within depth angle) := by
  have inside : ∀ (char : Char) (escaped : Bool),
      ¬ (char = ',' ∧ isOutermost ⟨depth, angle, some quote, escaped⟩ = true) := by
    intro char escaped
    simp [isOutermost]
  induction quoted with
  | ended =>
    refine .cons (inside _ _) ?_
    simp only [step, noEscape, if_true, if_false, Bool.false_eq_true]
    exact .nil _
  | char isOther noSlash _ ih =>
    refine .cons (inside _ _) ?_
    simpa only [step, isOther, noSlash, if_false, Bool.false_eq_true] using ih
  | escaped char _ ih => exact .cons (inside _ _) (.cons (inside _ _) ih)

/-- **A closed text is passed** by the scan for commas, unless it may hold some where they separate. -/
theorem passes_closed {commas : Bool} (depth angle : Nat) (closed : Text.Closed commas text)
    (inside : commas = true → (within depth angle).isOutermost = false) :
    Passes (within depth angle) text (within depth angle) := by
  induction closed generalizing depth angle with
  | nil => exact .nil _
  | @plain commas char rest isPlain _ ih =>
    simp only [Text.IsPlain, List.mem_cons, List.not_mem_nil, or_false, not_or] at isPlain
    have same : (within depth angle).step char = within depth angle := by
      simp [step, isPlain]
    refine .cons (fun separates => isPlain.1 separates.1) ?_
    rw [same]
    exact ih depth angle inside
  | comma _ ih =>
    refine .cons (fun separates => ?_) (ih depth angle inside)
    rw [inside rfl] at separates
    exact Bool.false_ne_true separates.2
  | @literal commas quote body rest isQuote quoted _ ih =>
    have noEscape : quote ≠ '\\' := by
      rcases isQuote with rfl | rfl <;> decide
    have opened : (within depth angle).step quote = ⟨depth, angle, some quote, false⟩ := by
      simp only [step, isQuote, if_true]
    refine .cons (fun separates => ?_) ?_
    · rcases isQuote with rfl | rfl <;> cases separates.1
    · rw [opened]
      exact (passes_quotedFrom depth angle quoted noEscape).append (ih depth angle inside)
  | group brackets _ _ ihInner ih =>
    -- the inner text stands in one bracket more, so none of its commas separates
    have more := ih depth angle inside
    cases brackets with
    | angle =>
      have inner := ihInner depth (angle + 1) fun _ => by simp [isOutermost]
      exact .cons (by simp) (inner.append (.cons (by simp) more))
    | parentheses | square | curly =>
      have inner := ihInner (depth + 1) angle fun _ => by simp [isOutermost]
      exact .cons (by simp) (inner.append (.cons (by simp) more))

end Enclosure

/-- A text without a separating comma is one segment. -/
theorem segments_of_passes {text : Text} {last : Enclosure}
    (passes : Enclosure.outermost.Passes text last) : segments text = [text] := by
  have alone := passes.segmentsFrom []
  rw [List.append_nil] at alone
  rw [segments, alone]
  exact congrArg (· :: []) (List.append_nil text)

/-- A comma after such a text separates it from the rest, if nothing is open there. -/
theorem segments_append {text : Text} (passes : Enclosure.outermost.Passes text .outermost)
    (rest : Text) : segments (text ++ ',' :: rest) = text :: segments rest := by
  have separated : segmentsFrom .outermost (',' :: rest) = ([], segments rest) :=
    if_pos ⟨rfl, rfl⟩
  rw [segments, passes.segmentsFrom, separated]
  exact congrArg (· :: segments rest) (List.append_nil text)

/-- **The segments** of texts that are passed, with commas between them, are these texts, if nothing
is open behind them. What is open behind the last one does not matter. -/
theorem segments_join_of_passes {parts : List Text} (filled : parts ≠ [])
    (passed : ∀ part ∈ parts, ∃ last, Enclosure.outermost.Passes part last)
    (shut : ∀ part ∈ parts.dropLast, Enclosure.outermost.Passes part .outermost) :
    segments (Text.join [','] parts) = parts := by
  induction parts with
  | nil => exact absurd rfl filled
  | cons first others ih =>
    obtain ⟨⟨last, firstPassed⟩, othersPassed⟩ := List.forall_mem_cons.mp passed
    cases others with
    | nil =>
      rw [Text.join, List.intercalate_singleton]
      exact segments_of_passes firstPassed
    | cons second others =>
      obtain ⟨firstShut, othersShut⟩ := List.forall_mem_cons.mp shut
      rw [Text.join, List.intercalate_cons_cons, List.append_assoc, List.singleton_append,
        segments_append firstShut, ← Text.join, ih (List.cons_ne_nil _ _) othersPassed othersShut]

/-- Closed texts with commas between them are the segments. -/
theorem segments_join_closed {parts : List Text} (closed : ∀ part ∈ parts, Text.Closed false part)
    (filled : parts ≠ []) : segments (Text.join [','] parts) = parts := by
  have passes : ∀ part ∈ parts, Enclosure.outermost.Passes part .outermost :=
    fun part member => Enclosure.passes_closed 0 0 (closed part member) nofun
  exact segments_join_of_passes filled (fun part member => ⟨_, passes part member⟩)
    fun part member => passes part (List.dropLast_subset _ member)

end Excerpt

end Scaffold
