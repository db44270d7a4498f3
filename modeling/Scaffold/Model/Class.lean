/-
**The property model.**

A class is what one enum declaration describes, a property what one of its members describes. The
accessors of a property are those its comment asks for, as far as its macro type allows them.
-/

import Scaffold.Model.ClassKind
import Scaffold.Model.MacroType

namespace Scaffold

/-- What one member of a declaration describes. -/
structure Property where
  /-- The name of the member. -/
  enumName : Text
  /-- The value of the member. -/
  ordinal : Int
  /-- The macro invocation as it is written; empty without one. -/
  rawMacro : Text
  macroType : MacroType
  type1 : Text
  /-- The value type of a map. -/
  type2 : Text
  propertyName : Text
  defaultValue : Text
  validate : Option Text
  /-- The accessors that the comment asks for. -/
  requestedAccess : AccessMode
  isInherited : Bool
  initializeArguments : List Text
  isNoHistory : Bool
  redoResult : Option Text
  undoResult : Option Text
  isNoJson : Bool
  jsonAttributes : Json.Members
  /-- The free text of the comment. -/
  rawCommand : Text

namespace Property

/-- A member without a comment. -/
def plain (name : Text) (ordinal : Int) : Property where
  enumName := name
  ordinal := ordinal
  rawMacro := []
  macroType := .noMacro
  type1 := []
  type2 := []
  propertyName := []
  defaultValue := []
  validate := none
  requestedAccess := .readWrite
  isInherited := false
  initializeArguments := []
  isNoHistory := false
  redoResult := none
  undoResult := none
  isNoJson := false
  jsonAttributes := []
  rawCommand := []

/-- Whether the member carries a macro. -/
def hasMacro (property : Property) : Bool := property.macroType != .noMacro

/-- The accessors that are generated: what is asked for, as far as the macro type allows it. -/
def accessMode (property : Property) : AccessMode :=
  property.requestedAccess.restrict property.macroType.capability

/-- The same property with its accessors restricted to those of a mode. -/
def restrictAccess (property : Property) (mode : AccessMode) : Property :=
  { property with requestedAccess := property.requestedAccess.restrict mode }

/-- The JSON form of a property. -/
def toJson (property : Property) : Json :=
  .record
    [("enum_name", .string property.enumName),
      ("enum_ordinal", .ofInt property.ordinal),
      ("raw_macro", .string property.rawMacro),
      ("macro_type", Named.toJson property.macroType),
      ("type1", .string property.type1),
      ("type2", .string property.type2),
      ("property_name", .string property.propertyName),
      ("default_value", .string property.defaultValue),
      ("validate", .ofOption .string property.validate),
      ("requested_access", Named.toJson property.requestedAccess),
      ("access_mode", Named.toJson property.accessMode),
      ("is_inherited", .bool property.isInherited),
      ("initialize_arguments", .ofTexts property.initializeArguments),
      ("is_no_history", .bool property.isNoHistory),
      ("redo_result", .ofOption .string property.redoResult),
      ("undo_result", .ofOption .string property.undoResult),
      ("is_no_json", .bool property.isNoJson),
      ("json_attributes", .object property.jsonAttributes),
      ("raw_command", .string property.rawCommand)]

end Property

/-- What one enum declaration describes. -/
structure Class where
  /-- The enclosing namespaces with points between them; empty outside of all. -/
  enclosing : Text
  kind : ClassKind
  name : Text
  /-- The free text of the comments before the body. -/
  rawCommand : Text
  properties : List Property
  isJson : Bool
  jsonAttributes : Json.Members
  inheritClass : Option Text
  isLogIndependent : Bool
  isActionManagerIndependent : Bool
  isThreadManagerIndependent : Bool

namespace Class

/-- The class of a declaration without comments and members. -/
def plain (enclosing : Text) (kind : ClassKind) (name : Text) : Class where
  enclosing := enclosing
  kind := kind
  name := name
  rawCommand := []
  properties := []
  isJson := false
  jsonAttributes := []
  inheritClass := none
  isLogIndependent := false
  isActionManagerIndependent := false
  isThreadManagerIndependent := false

/-- The name with the namespaces before it. -/
def qualifiedName (cls : Class) : Text :=
  if cls.enclosing = [] then cls.name else cls.enclosing ++ '.' :: cls.name

/-- The property of a member. -/
def property? (cls : Class) (name : Text) : Option Property :=
  cls.properties.find? fun property => property.enumName == name

/-- The members that carry a macro. -/
def macroProperties (cls : Class) : List Property := cls.properties.filter Property.hasMacro

/-- Whether a member is an action. -/
def hasActions (cls : Class) : Bool :=
  cls.properties.any fun property => property.macroType.isAction

/-- Whether a member is a manager. -/
def hasManagers (cls : Class) : Bool :=
  cls.properties.any fun property => property.macroType.isManager

/-- The members of the JSON form of a class. -/
def toRecord (cls : Class) : List (String × Json) :=
  [("namespace", .string cls.enclosing),
    ("kind", Named.toJson cls.kind),
    ("name", .string cls.name),
    ("raw_command", .string cls.rawCommand),
    ("properties", .array (cls.properties.map Property.toJson)),
    ("is_json", .bool cls.isJson),
    ("json_attributes", .object cls.jsonAttributes),
    ("inherit_class", .ofOption .string cls.inheritClass),
    ("is_log_independent", .bool cls.isLogIndependent),
    ("is_action_manager_independent", .bool cls.isActionManagerIndependent),
    ("is_thread_manager_independent", .bool cls.isThreadManagerIndependent)]

/-- The JSON form of a class. -/
def toJson (cls : Class) : Json := .record cls.toRecord

end Class

end Scaffold
