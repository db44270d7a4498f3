/-
**The arguments of a macro, by position.**

The category of a macro decides what each of its arguments is. The first one is always required, and
so is the value type of a map; a blank or missing name is the name of the member, other blank or
missing arguments are empty. Arguments beyond the last slot of a category are ignored.
-/

import Scaffold.Excerpt.Arguments
import Scaffold.Excerpt.Balanced
import Scaffold.Fault
import Scaffold.Model.Class

namespace Scaffold

/-- The arguments of an invocation and where its closing parenthesis is. -/
structure Invocation where
  keyword : Text
  arguments : List Excerpt
  closeOffset : Nat
  deriving DecidableEq, Repr

namespace Invocation

/-- The argument at a position, if there is one and it is not blank. -/
def slot? (invocation : Invocation) (index : Nat) : Option Text :=
  (invocation.arguments[index]?.map Excerpt.text).filter (· ≠ [])

/-- An argument that has to be there. -/
def required (invocation : Invocation) (index : Nat) (slot : Slot) : Except Defect Text :=
  match invocation.slot? index with
  | some text => .ok text
  | none =>
    let offset := match invocation.arguments[index]? with
      | some blank => blank.offset
      | none => invocation.closeOffset
    .error (.malformed (.missingArgument invocation.keyword slot (index == 0)) offset)

/-- An argument that is empty when it is missing. -/
def optional (invocation : Invocation) (index : Nat) : Text :=
  (invocation.slot? index).getD []

/-- An argument that is a name, or the name of the member. -/
def nameOr (invocation : Invocation) (index : Nat) (member : Text) : Text :=
  (invocation.slot? index).getD member

/-- The arguments from a position on. -/
def rest (invocation : Invocation) (start : Nat) : List Text :=
  (invocation.arguments.drop start).map Excerpt.text

/-- The number of slots of a macro type; nothing when there is no limit. -/
def slotCount? (type : MacroType) : Option Nat :=
  match type.category with
  | .none => none
  | .scalar => if type.isValidated then some 4 else if type.isObject then none else some 3
  | .collection => if type.isMap then some 4 else some 3
  | .manager => none
  | .action => some 2

/-- How many arguments have no slot. -/
def surplus (invocation : Invocation) (type : MacroType) : Nat :=
  match slotCount? type with
  | some count => invocation.arguments.length - count
  | none => 0

/-- Puts the arguments of a scalar macro into a property. -/
def fillScalar (invocation : Invocation) (type : MacroType) (property : Property) :
    Except Defect Property := do
  let type1 ← invocation.required 0 .type
  return { property with
    type1
    propertyName := invocation.nameOr 1 property.enumName
    defaultValue := invocation.optional 2
    validate := if type.isValidated then invocation.slot? 3 else property.validate
    initializeArguments :=
      if type.isObject then invocation.rest 3 else property.initializeArguments }

/-- Puts the arguments of a collection macro into a property. -/
def fillCollection (invocation : Invocation) (type : MacroType) (property : Property) :
    Except Defect Property := do
  let type1 ← invocation.required 0 .elementType
  let type2 ← if type.isMap then invocation.required 1 .valueType else pure property.type2
  let next := if type.isMap then 2 else 1
  return { property with
    type1
    type2
    propertyName := invocation.nameOr next property.enumName
    defaultValue := invocation.optional (next + 1) }

/-- Puts the arguments of a manager macro into a property. -/
def fillManager (invocation : Invocation) (property : Property) : Except Defect Property := do
  let type1 ← invocation.required 0 .managerType
  return { property with
    type1
    propertyName := invocation.nameOr 1 property.enumName
    initializeArguments := invocation.rest 2 }

/-- Puts the arguments of an action macro into a property. -/
def fillAction (invocation : Invocation) (property : Property) : Except Defect Property := do
  let propertyName ← invocation.required 0 .propertyName
  return { property with propertyName, type1 := invocation.optional 1 }

/-- Puts the arguments of a macro into a property. -/
def fill (invocation : Invocation) (type : MacroType) (property : Property) :
    Except Defect Property :=
  match type.category with
  | .none => .ok property
  | .scalar => invocation.fillScalar type property
  | .collection => invocation.fillCollection type property
  | .manager => invocation.fillManager property
  | .action => invocation.fillAction property

/-- The quotes of literals in an invocation. -/
def quotes : List Char := ['"', '\'']

/-- The parenthesised group after a keyword. -/
def group (keyword : Text) (excerpt : Excerpt) : Except Defect (Text × Excerpt) :=
  match excerpt.balanced? quotes with
  | none => .error (.malformed (.unclosedInvocation keyword) excerpt.offset)
  | some found => .ok found

/-- The invocation that a keyword and a group at an offset are. -/
def ofGroup (keyword group : Text) (offset : Nat) : Invocation where
  keyword := keyword
  arguments := Excerpt.arguments ⟨(group.drop 1).dropLast, offset + 1⟩
  closeOffset := offset + (group.size - 1)

end Invocation

end Scaffold
