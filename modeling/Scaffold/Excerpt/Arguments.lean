/-
**The arguments of a macro invocation.**

Arguments are separated by the commas outside of every bracket and literal. Parentheses, braces and
brackets share one count, angle brackets have one of their own, and neither goes below zero. The
segments between the commas, joined with commas again, are the whole text (`segments_join`).
-/

import Scaffold.Excerpt.Basic

namespace Scaffold.Excerpt

/-- Where a scan for commas stands. -/
structure Enclosure where
  /-- Open parentheses, braces and brackets. -/
  depth : Nat
  /-- Open angle brackets. -/
  angle : Nat
  /-- The quote that ends the literal. -/
  literal : Option Char
  /-- Whether the next character of the literal is escaped. -/
  escaped : Bool
  deriving DecidableEq, Repr

namespace Enclosure

/-- The state at the start of the arguments. -/
def outermost : Enclosure := ⟨0, 0, none, false⟩

/-- Whether a comma separates arguments here. -/
def isOutermost (state : Enclosure) : Bool :=
  state.depth == 0 && state.angle == 0 && state.literal.isNone

/-- One character of an argument. -/
def step (state : Enclosure) (char : Char) : Enclosure :=
  match state.literal with
  | some quote =>
    if state.escaped then { state with escaped := false }
    else if char = '\\' then { state with escaped := true }
    else if char = quote then { state with literal := none }
    else state
  | none =>
    if char = '"' ∨ char = '\'' then { state with literal := some char }
    else if char = '(' ∨ char = '\x7b' ∨ char = '[' then { state with depth := state.depth + 1 }
    else if char = ')' ∨ char = '}' ∨ char = ']' then { state with depth := state.depth - 1 }
    else if char = '<' then { state with angle := state.angle + 1 }
    else if char = '>' then { state with angle := state.angle - 1 }
    else state

end Enclosure

/-- The first segment of a text and the segments after it. -/
def segmentsFrom (state : Enclosure) : Text → Text × List Text
  | [] => ([], [])
  | char :: rest =>
    if char = ',' ∧ state.isOutermost then
      let later := segmentsFrom state rest
      ([], later.1 :: later.2)
    else
      let later := segmentsFrom (state.step char) rest
      (char :: later.1, later.2)

/-- The segments of a text, between its separating commas. -/
def segments (text : Text) : List Text :=
  let found := segmentsFrom .outermost text
  found.1 :: found.2

/-- Segments with the offset that each one starts at; a comma stands between two of them. -/
def placed (offset : Nat) : List Text → List Excerpt
  | [] => []
  | segment :: rest => ⟨segment.trim, offset⟩ :: placed (offset + segment.size + 1) rest

/-- The arguments between the parentheses of an invocation: each one trimmed, with the offset of
its untrimmed segment. A blank text has none. -/
def arguments (inner : Excerpt) : List Excerpt :=
  if inner.text.trim = [] then [] else placed inner.offset (segments inner.text)

theorem join_segmentsFrom (state : Enclosure) (text : Text) :
    Text.join [','] ((segmentsFrom state text).1 :: (segmentsFrom state text).2) = text := by
  induction text generalizing state with
  | nil => rfl
  | cons char rest ih =>
      simp only [segmentsFrom]
      split
      · rename_i separator
        have later := ih state
        simp only [Text.join] at later ⊢
        rw [List.intercalate_cons_cons, later, separator.1]
        rfl
      · have later := ih (state.step char)
        simp only [Text.join] at later ⊢
        cases more : (segmentsFrom (state.step char) rest).2 with
        | nil => simp_all [List.intercalate]
        | cons segment segments =>
            rw [more, List.intercalate_cons_cons] at later
            rw [List.intercalate_cons_cons, List.cons_append, List.cons_append, later]

/-- The segments joined with commas are the text. -/
theorem segments_join (text : Text) : Text.join [','] (segments text) = text :=
  join_segmentsFrom .outermost text

end Scaffold.Excerpt
