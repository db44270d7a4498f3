/-
**Reading a JSON literal.**

A value is a scalar, a list or an object. At most 127 lists and objects may be open at once, and the
number still allowed goes down at each of them, so reading ends for two reasons: the nesting is
bounded, and within one list or object every item leaves a shorter text.
-/

import Scaffold.Json.Scalar

namespace Scaffold.Json

/-- A value with the text after it, which is shorter than the text read. -/
abbrev Reading (α : Type) (text : Text) : Type :=
  Except Stop (α × { rest : Text // rest.length < text.length })

/-- The same reading of a text that is no shorter. -/
def Reading.widen {α : Type} {inner outer : Text} (bound : inner.length ≤ outer.length) :
    Reading α inner → Reading α outer
  | .error stop => .error stop
  | .ok (item, ⟨rest, shorter⟩) => .ok (item, ⟨rest, Nat.lt_of_lt_of_le shorter bound⟩)

mutual

/-- A value at the front of the text; `depth` lists or objects may still be opened. -/
def value (depth : Nat) (text : Text) : Reading Json text :=
  match text with
  | '[' :: rest =>
    match depth with
    | 0 => stopIn .nestedTooDeep ('[' :: rest)
    | depth + 1 =>
      (items depth [] true rest).widen (Nat.le_succ _)
  | '\x7b' :: rest =>
    match depth with
    | 0 => stopIn .nestedTooDeep ('\x7b' :: rest)
    | depth + 1 =>
      (members depth [] true rest).widen (Nat.le_succ _)
  | other =>
    match read : scalar other with
    | .error stop => .error stop
    | .ok (item, rest) => .ok (item, ⟨rest, scalar_shorter read⟩)
  termination_by (depth, text.length, 0)
  decreasing_by all_goals (simp_wf; simp only [Prod.lex_def]; omega)

/-- The items of a list from `first` on or after an item, up to the closing bracket. `before` are
the items read, the last one first. -/
def items (depth : Nat) (before : List Json) (first : Bool) (text : Text) : Reading Json text :=
  have spaced := skipSpace_length text
  match found : skipSpace text with
  | [] => stopBefore .unfinishedList []
  | ']' :: rest =>
    .ok (.array before.reverse, ⟨rest, by simp only [found, List.length_cons] at spaced; omega⟩)
  | ',' :: rest =>
    if first then item depth before text (',' :: rest) (by rw [← found]; exact spaced)
    else
      match after : skipSpace rest with
      | [] => stopBefore .unfinishedValue []
      | ']' :: more => stopIn .trailingComma (']' :: more)
      | char :: more =>
        item depth before text (char :: more) (by
          have := skipSpace_length rest
          simp only [found, after, List.length_cons] at *
          omega)
  | char :: rest =>
    if first then item depth before text (char :: rest) (by rw [← found]; exact spaced)
    else stopIn .missingListDelimiter (char :: rest)
  termination_by (depth, text.length, 2)
  decreasing_by all_goals (simp only [Prod.lex_def, true_and]; omega)

/-- One item of a list and the items after it. -/
def item (depth : Nat) (before : List Json) (outer text : Text)
    (bound : text.length ≤ outer.length) : Reading Json outer :=
  match value depth text with
  | .error stop => .error stop
  | .ok (read, ⟨rest, shorter⟩) =>
    (items depth (read :: before) false rest).widen (by omega)
  termination_by (depth, outer.length, 1)
  decreasing_by all_goals (simp only [Prod.lex_def, true_and]; omega)

/-- The members of an object, likewise. -/
def members (depth : Nat) (before : Members) (first : Bool) (text : Text) : Reading Json text :=
  have spaced := skipSpace_length text
  match found : skipSpace text with
  | [] => stopBefore .unfinishedObject []
  | '}' :: rest =>
    .ok (.object before, ⟨rest, by simp only [found, List.length_cons] at spaced; omega⟩)
  | '"' :: rest =>
    if first then
      member depth before text rest (by simp only [found, List.length_cons] at spaced; omega)
    else stopIn .missingObjectDelimiter ('"' :: rest)
  | ',' :: rest =>
    if first then stopIn .keyNotString (',' :: rest)
    else
      match after : skipSpace rest with
      | [] => stopBefore .unfinishedValue []
      | '"' :: more =>
        member depth before text more (by
          have := skipSpace_length rest
          simp only [found, after, List.length_cons] at *
          omega)
      | '}' :: more => stopIn .trailingComma ('}' :: more)
      | char :: more => stopIn .keyNotString (char :: more)
  | char :: rest =>
    if first then stopIn .keyNotString (char :: rest)
    else stopIn .missingObjectDelimiter (char :: rest)
  termination_by (depth, text.length, 2)
  decreasing_by all_goals (simp only [Prod.lex_def, true_and]; omega)

/-- One member of an object, after the quote that opens its key, and the members after it. -/
def member (depth : Nat) (before : Members) (outer text : Text)
    (bound : text.length < outer.length) : Reading Json outer :=
  match read : stringBody text with
  | .error stop => .error stop
  | .ok (key, rest) =>
    have keyed := stringBody_shorter read
    have spaced := skipSpace_length rest
    match found : skipSpace rest with
    | [] => stopBefore .unfinishedObject []
    | ':' :: after =>
      have trimmed := skipSpace_length after
      have inner : (skipSpace after).length < outer.length := by
        rw [found, List.length_cons] at spaced
        omega
      match value depth (skipSpace after) with
      | .error stop => .error stop
      | .ok (item, ⟨last, shorter⟩) =>
        (members depth (Keyed.insert key item before) false last).widen (by omega)
    | char :: after => stopIn .missingColon (char :: after)
  termination_by (depth, outer.length, 1)
  decreasing_by all_goals (simp only [Prod.lex_def, true_and]; omega)

end

/-- How many lists and objects may be open at once. -/
def depthLimit : Nat := 127

/-- The value that a whole literal stands for. -/
def parse (literal : Text) : Except Failure Json :=
  let stopped (stop : Stop) : Failure :=
    Failure.after literal (literal.size - stop.left) stop.problem
  match value depthLimit (skipSpace literal) with
  | .error stop => .error (stopped stop)
  | .ok (read, ⟨rest, _⟩) =>
    match skipSpace rest with
    | [] => .ok read
    | char :: more => .error (stopped ⟨.trailingCharacters, Text.size (char :: more) - 1⟩)

end Scaffold.Json
