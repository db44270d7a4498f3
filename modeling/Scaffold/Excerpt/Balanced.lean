/-
**Balanced groups.**

A group starts with an opening parenthesis, brace or bracket and ends with the closer of that first
character. Inside, openers nest; a closer that is not the one waited for is plain text; quotes open
literals in which only the same quote, not escaped by a backslash, has a meaning. The scan looks at
one character at a time, so whether a group ends somewhere depends on the text up to there alone.
-/

import Scaffold.Excerpt.Basic

namespace Scaffold.Excerpt

/-- Where a scan stands: the closers it waits for, the innermost first, and the literal it is in. -/
structure Nesting where
  closers : List Char
  /-- The quote that ends the literal. -/
  literal : Option Char
  /-- Whether the next character of the literal is escaped. -/
  escaped : Bool
  deriving DecidableEq, Repr

/-- The state outside of everything. -/
def Nesting.outside : Nesting := ⟨[], none, false⟩

/-- What a scan knows after a character. -/
inductive Progress where
  /-- The group goes on. -/
  | inside (state : Nesting)
  /-- The character ends the group. -/
  | ended
  /-- There is no group here. -/
  | stray
  deriving DecidableEq, Repr

/-- The closer of an opener. -/
def closerOf? : Char → Option Char
  | '(' => some ')'
  | '\x7b' => some '}'
  | '[' => some ']'
  | _ => none

/-- One character inside a literal. -/
def Nesting.stepLiteral (state : Nesting) (quote char : Char) : Nesting :=
  if state.escaped then { state with escaped := false }
  else if char = '\\' then { state with escaped := true }
  else if char = quote then { state with literal := none }
  else state

/-- One character of a group. -/
def Nesting.step (quotes : List Char) (state : Nesting) (char : Char) : Progress :=
  match state.literal with
  | some quote => .inside (state.stepLiteral quote char)
  | none =>
    if char ∈ quotes then .inside { state with literal := some char }
    else match closerOf? char with
      | some closer => .inside { state with closers := closer :: state.closers }
      | none =>
        match state.closers with
        | [] => .stray
        | expected :: outer =>
          if char = expected then
            if outer = [] then .ended else .inside { state with closers := outer }
          else .inside state

/-- The rest of a group and the text after it. -/
def groupFrom (quotes : List Char) (state : Nesting) : Text → Option (Text × Text)
  | [] => none
  | char :: rest =>
    match state.step quotes char with
    | .inside next =>
      (groupFrom quotes next rest).map fun parts => (char :: parts.1, parts.2)
    | .ended => some ([char], rest)
    | .stray => none

/-- The balanced group at the front of an excerpt, its delimiters included, and the excerpt after
it. -/
def balanced? (quotes : List Char) (excerpt : Excerpt) : Option (Text × Excerpt) :=
  (groupFrom quotes .outside excerpt.text).map fun parts =>
    (parts.1, excerpt.skip parts.1 parts.2)

/-- Taking a group loses nothing. -/
theorem groupFrom_append {quotes : List Char} {state : Nesting} {text group rest : Text}
    (found : groupFrom quotes state text = some (group, rest)) : group ++ rest = text := by
  induction text generalizing state group with
  | nil => simp [groupFrom] at found
  | cons char text ih =>
      simp only [groupFrom] at found
      split at found
      · simp only [Option.map_eq_some_iff, Prod.mk.injEq] at found
        obtain ⟨parts, inner, rfl, rfl⟩ := found
        simp [ih inner]
      · simp only [Option.some.injEq, Prod.mk.injEq] at found
        obtain ⟨rfl, rfl⟩ := found
        rfl
      · simp at found

end Scaffold.Excerpt
