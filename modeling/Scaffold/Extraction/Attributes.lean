/-
**What attributes do.**

An attribute of a member changes its property, an attribute of a declaration changes its class. Some
names mean something only in the other place, and unknown names mean nothing; both are reported and
otherwise ignored.
-/

import Scaffold.Event
import Scaffold.Extraction.Remark
import Scaffold.Json.Printer
import Scaffold.Model.Class

namespace Scaffold

/-- What the name of an attribute stands for. -/
inductive AttributeRole where
  | readOnly
  | writeOnly
  | noAccess
  | inherit
  | noHistory
  | noJson
  | command
  | json
  | actionResult
  | log
  | action
  | thread
  /-- A name that stands for nothing. -/
  | unknown
  deriving DecidableEq, Repr

/-- The names that stand for something. -/
def AttributeRole.names : List (Text × AttributeRole) :=
  [("ReadOnly".toList, readOnly), ("WriteOnly".toList, writeOnly), ("NoAccess".toList, noAccess),
    ("Inherit".toList, inherit), ("NoHistory".toList, noHistory), ("NoJson".toList, noJson),
    ("Command".toList, command), ("Json".toList, json), ("ActionResult".toList, actionResult),
    ("Log".toList, log), ("Action".toList, action), ("Thread".toList, thread)]

/-- What a name stands for. -/
def AttributeRole.ofName (name : Text) : AttributeRole := (names.lookup name).getD unknown

namespace Attribute

/-- What the attribute's name stands for. -/
def role (item : Attribute) : AttributeRole := .ofName item.name

/-- The payload; empty without one. -/
def members (item : Attribute) : Json.Members := item.payload.getD []

/-- The text of a payload value: a string is itself, anything else its JSON form. -/
def valueText : Json → Text
  | .string text => text
  | other => other.compact

/-- The text of a key's value, if the payload has the key. -/
def valueOf? (item : Attribute) (key : String) : Option Text :=
  (Keyed.get? key.toList item.members).map valueText

/-- The text of the value of a key that the payload has to have. -/
def valueOf (item : Attribute) (key : String) : Except Defect Text :=
  match item.valueOf? key with
  | some text => .ok text
  | none => .error ⟨.keyMissing item.name key.toList, item.offset⟩

/-- Whether the payload says that something is independent. -/
def isIndependent (item : Attribute) : Bool :=
  match Keyed.get? "IsIndependent".toList item.members with
  | some (.bool value) => value
  | _ => false

/-- Changes the property of a member. -/
def applyToMember (property : Property) (item : Attribute) : Except Defect Property :=
  match item.role with
  | .readOnly => .ok (property.restrictAccess .readOnly)
  | .writeOnly => .ok (property.restrictAccess .writeOnly)
  | .noAccess => .ok (property.restrictAccess .noAccess)
  | .inherit => .ok { property with isInherited := true }
  | .noHistory => .ok { property with isNoHistory := true }
  | .noJson => .ok { property with isNoJson := true }
  | .json =>
    .ok { property with jsonAttributes := Keyed.merge property.jsonAttributes item.members }
  | .actionResult => do
    let redo ← item.valueOf "Redo"
    return { property with redoResult := some redo, undoResult := item.valueOf? "Undo" }
  | .command | .log | .action | .thread | .unknown => .ok property

/-- What is reported about an attribute of a member. -/
def memberReport? (member : Text) (item : Attribute) : Option Event :=
  match item.role with
  | .log | .action | .thread =>
    some ⟨.warn, "class attribute on a member is ignored",
      [("attribute", item.name), ("member", member)]⟩
  | .unknown =>
    some ⟨.warn, "unknown attribute ignored", [("attribute", item.name), ("member", member)]⟩
  | _ => none

/-- Changes the class of a declaration. -/
def applyToClass (cls : Class) (item : Attribute) : Except Defect Class :=
  match item.role with
  | .json =>
    .ok { cls with
      isJson := true, jsonAttributes := Keyed.merge cls.jsonAttributes item.members }
  | .inherit => do
    let base ← item.valueOf "Class"
    return { cls with inheritClass := some base }
  | .log => .ok { cls with isLogIndependent := item.isIndependent }
  | .action => .ok { cls with isActionManagerIndependent := item.isIndependent }
  | .thread => .ok { cls with isThreadManagerIndependent := item.isIndependent }
  | _ => .ok cls

/-- What is reported about an attribute of a declaration. -/
def classReport? (cls : Text) (item : Attribute) : Option Event :=
  match item.role with
  | .readOnly | .writeOnly | .noAccess | .noHistory | .noJson | .actionResult =>
    some ⟨.debug, "member attribute on a declaration is ignored",
      [("attribute", item.name), ("class", cls)]⟩
  | .unknown =>
    some ⟨.warn, "unknown attribute ignored", [("attribute", item.name), ("class", cls)]⟩
  | _ => none

end Attribute

/-- One step after another over a list, each step reported before what it does is known. -/
def Outcome.foldReporting {ε α β : Type} (report? : β → Option Event) (step : α → β → Except ε α) :
    α → List β → Outcome ε α
  | state, [] => pure state
  | state, item :: rest => do
    Outcome.reportIf (report? item)
    let next ← Outcome.lift (step state item)
    foldReporting report? step next rest

/-- Reports do not take part in the result. -/
theorem Outcome.result_foldReporting {ε α β : Type} (report? : β → Option Event)
    (step : α → β → Except ε α) (state : α) (items : List β) :
    (Outcome.foldReporting report? step state items).result = items.foldlM step state := by
  induction items generalizing state with
  | nil => rfl
  | cons item rest ih =>
      simp only [foldReporting, result_bind, result_lift, List.foldlM_cons, ih]
      rfl

namespace Remark

/-- Changes the property of a member as its comment says. -/
def applyToMember (remark : Remark) (property : Property) : Outcome Defect Property := do
  let changed ← Outcome.foldReporting (Attribute.memberReport? property.enumName)
    Attribute.applyToMember property remark.attributes
  return { changed with rawCommand := remark.rawCommand }

/-- Changes the class of a declaration as one of its comments says. -/
def applyToClass (remark : Remark) (cls : Class) : Outcome Defect Class :=
  Outcome.foldReporting (Attribute.classReport? cls.name) Attribute.applyToClass cls
    remark.attributes

end Remark

end Scaffold
