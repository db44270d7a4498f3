/-
What a declaration describes, read off the end of its name. The property ending is taken off first;
what is left decides. An empty ending is no ending.
-/

import Scaffold.Named

namespace Scaffold

/-- What a declaration describes. -/
inductive ClassKind where
  | object
  | form
  | actionArgument
  | result
  deriving DecidableEq, Repr

instance : Named ClassKind where
  all := [.object, .form, .actionArgument, .result]
  name
    | .object => "Object"
    | .form => "Form"
    | .actionArgument => "ActionArgument"
    | .result => "Result"

/-- The endings of names that decide what a declaration describes. -/
structure ClassKindRules where
  /-- Taken off before the others are looked for. -/
  property : Text
  form : Text
  argument : Text
  result : Text
  deriving DecidableEq, Repr

namespace ClassKindRules

/-- The endings in force when none are given. -/
def standard : ClassKindRules where
  property := "Property".toList
  form := "Form".toList
  argument := "Argument".toList
  result := "Result".toList

/-- A name without an ending, if it has it and the ending is not empty. -/
def without? (ending name : Text) : Option Text :=
  if ending = [] then none else name.before? ending

/-- What a declaration of this name describes. -/
def classify (rules : ClassKindRules) (name : Text) : ClassKind :=
  let stem := (without? rules.property name).getD name
  if (without? rules.form stem).isSome then .form
  else if (without? rules.argument stem).isSome then .actionArgument
  else if (without? rules.result stem).isSome then .result
  else .object

end ClassKindRules

end Scaffold
