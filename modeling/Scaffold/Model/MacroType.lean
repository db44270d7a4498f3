/-
**Macro types and the keywords that name them.**

A member comment names its macro by a keyword. A keyword belongs to a family by the way it starts,
and the longest start that is known decides: `ORDERED_MAP` and not `MAP`, `GETSET` and not `GET`.
Marks inside the keyword then choose among the types of the family.
-/

import Scaffold.Model.Access

namespace Scaffold

/-- The kinds of macros a member can carry. -/
inductive MacroType where
  /-- No macro. -/
  | noMacro
  | scalarReadOnly
  | scalarReadWrite
  | validatedReadOnly
  | validatedReadWrite
  | objectReadOnly
  | objectReadWrite
  | vector
  | vectorObject
  | set
  | setObject
  | map
  | mapObject
  | orderedMap
  | orderedMapObject
  | manager
  | action
  | actionWithArgument
  deriving DecidableEq, Repr

/-- How the arguments of a macro are laid out. -/
inductive MacroCategory where
  | none
  | scalar
  | collection
  | manager
  | action
  deriving DecidableEq, Repr

instance : Named MacroCategory where
  all := [.none, .scalar, .collection, .manager, .action]
  name
    | .none => "None"
    | .scalar => "Scalar"
    | .collection => "Collection"
    | .manager => "Manager"
    | .action => "Action"

/-- The families of keywords. -/
inductive KeywordFamily where
  | get
  | getSet
  | vector
  | set
  | map
  | orderedMap
  | manager
  | action
  deriving DecidableEq, Repr

namespace KeywordFamily

/-- How the keywords of each family start. A start that begins another one comes after it. -/
def starts : List (Text × KeywordFamily) :=
  [("ORDERED_MAP".toList, orderedMap), ("MAP".toList, map), ("VECTOR".toList, vector),
    ("SET".toList, set), ("MANAGER".toList, manager), ("ACTION".toList, action),
    ("GETSET".toList, getSet), ("GET".toList, get)]

/-- The family of a keyword. -/
def ofKeyword? (keyword : Text) : Option KeywordFamily :=
  (starts.find? fun start => start.1.isPrefixOf keyword).map Prod.snd

end KeywordFamily

namespace MacroType

instance : Named MacroType where
  all :=
    [noMacro, scalarReadOnly, scalarReadWrite, validatedReadOnly, validatedReadWrite,
      objectReadOnly, objectReadWrite, vector, vectorObject, set, setObject, map, mapObject,
      orderedMap, orderedMapObject, manager, action, actionWithArgument]
  name
    | noMacro => "NoMacro"
    | scalarReadOnly => "ScalarReadOnly"
    | scalarReadWrite => "ScalarReadWrite"
    | validatedReadOnly => "ValidatedReadOnly"
    | validatedReadWrite => "ValidatedReadWrite"
    | objectReadOnly => "ObjectReadOnly"
    | objectReadWrite => "ObjectReadWrite"
    | vector => "Vector"
    | vectorObject => "VectorObject"
    | set => "Set"
    | setObject => "SetObject"
    | map => "Map"
    | mapObject => "MapObject"
    | orderedMap => "OrderedMap"
    | orderedMapObject => "OrderedMapObject"
    | manager => "Manager"
    | action => "Action"
    | actionWithArgument => "ActionWithArgument"

/-- The mark of keywords for object references. -/
def objectMark : Text := "SPTR".toList

/-- The mark of keywords with a validation expression. -/
def validateMark : Text := "VALIDATE".toList

/-- The mark of action keywords with an argument type. -/
def argumentMark : Text := "ARG".toList

/-- The macro type that a keyword names, if its family is known. -/
def ofKeyword? (keyword : Text) : Option MacroType :=
  let object := Text.contains keyword objectMark
  let validated := Text.contains keyword validateMark
  (KeywordFamily.ofKeyword? keyword).map fun family =>
    match family with
    | .get =>
      if object then objectReadOnly else if validated then validatedReadOnly else scalarReadOnly
    | .getSet =>
      if object then objectReadWrite
      else if validated then validatedReadWrite
      else scalarReadWrite
    | .vector => if object then vectorObject else vector
    | .set => if object then setObject else set
    | .map => if object then mapObject else map
    | .orderedMap => if object then orderedMapObject else orderedMap
    | .manager => manager
    | .action => if Text.contains keyword argumentMark then actionWithArgument else action

/-- How the arguments of the macro are laid out. -/
def category : MacroType → MacroCategory
  | noMacro => .none
  | scalarReadOnly | scalarReadWrite | validatedReadOnly | validatedReadWrite | objectReadOnly
  | objectReadWrite => .scalar
  | vector | vectorObject | set | setObject | map | mapObject | orderedMap | orderedMapObject =>
    .collection
  | manager => .manager
  | action | actionWithArgument => .action

/-- The accessors that can be generated at all: macros without a setter allow reading only, actions
are invoked and never read. -/
def capability : MacroType → AccessMode
  | scalarReadOnly | validatedReadOnly | objectReadOnly | manager => .readOnly
  | action | actionWithArgument => .writeOnly
  | _ => .readWrite

/-- Whether the property holds many elements. -/
def isCollection (type : MacroType) : Bool := type.category == .collection

/-- Whether the property maps keys to values. -/
def isMap : MacroType → Bool
  | map | mapObject | orderedMap | orderedMapObject => true
  | _ => false

/-- Whether the property refers to objects. -/
def isObject : MacroType → Bool
  | objectReadOnly | objectReadWrite | vectorObject | setObject | mapObject | orderedMapObject
  | manager => true
  | _ => false

/-- Whether the macro has a validation expression. -/
def isValidated : MacroType → Bool
  | validatedReadOnly | validatedReadWrite => true
  | _ => false

/-- Whether the property is a manager. -/
def isManager (type : MacroType) : Bool := type == manager

/-- Whether the property is an action. -/
def isAction (type : MacroType) : Bool := type.category == .action

end MacroType

end Scaffold
