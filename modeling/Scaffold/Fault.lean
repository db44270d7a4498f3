/-
**What can be wrong with a source.**

Readers find a defect: a cause and the offset it belongs to. For whoever wrote the source a defect
becomes a fault, in which the offset is a location that shows the text around it. A cause says what
is wrong, its message says it in words.
-/

import Scaffold.Json.Problem
import Scaffold.Location

namespace Scaffold

/-- What a macro argument that is missing would have held. -/
inductive Slot where
  | type
  | elementType
  | valueType
  | managerType
  | propertyName
  deriving DecidableEq, Repr

/-- The wording of a slot. -/
def Slot.text : Slot → String
  | type => "a type"
  | elementType => "an element type"
  | valueType => "a value type"
  | managerType => "a manager type"
  | propertyName => "a property name"

/-- Something that is not written the way it has to be. -/
inductive Flaw where
  /-- A block comment without its end. -/
  | unterminatedComment
  /-- An identifier is missing; `what` says for what. -/
  | missingIdentifier (what : Text)
  /-- Neither a body nor an end after the name of a namespace. -/
  | missingNamespaceBody
  /-- A declaration without its body. -/
  | missingBody (declaration : Text)
  /-- A body that never ends. -/
  | unclosedBody (declaration : Text)
  /-- Something in a body that is no member. -/
  | missingMember (declaration : Text)
  /-- A member's value that is no integer literal. -/
  | valueNotInteger (member : Text)
  /-- A macro invocation without its closing parenthesis. -/
  | unclosedInvocation (keyword : Text)
  /-- A macro argument that has to be there; `first` tells whether it is the first one. -/
  | missingArgument (keyword : Text) (slot : Slot) (first : Bool)
  /-- An attribute marker without a name. -/
  | missingAttributeName
  /-- An attribute payload that never ends. -/
  | unterminatedPayload (name : Text)
  /-- An attribute payload that is JSON but no object. -/
  | payloadNotObject (name : Text)
  /-- An attribute payload that is not JSON. -/
  | invalidPayload (name : Text) (failure : Json.Failure)
  /-- A section name that no marker can carry. -/
  | invalidSectionName (name : Text)
  /-- A flaw in the words of whoever found it. -/
  | other (message : Text)
  deriving DecidableEq, Repr

/-- The wording of a flaw. -/
def Flaw.text : Flaw → String
  | unterminatedComment => "unterminated block comment"
  | missingIdentifier what => "expected " ++ what.string
  | missingNamespaceBody => "expected `\x7b` after namespace name"
  | missingBody declaration => "expected `\x7b` to open `" ++ declaration.string ++ "`"
  | unclosedBody declaration => "expected `\x7d` to close `" ++ declaration.string ++ "`"
  | missingMember declaration =>
    "expected enumerator name or `\x7d` in `" ++ declaration.string ++ "`"
  | valueNotInteger member => "value of `" ++ member.string ++ "` must be an integer literal"
  | unclosedInvocation keyword => "expected `)` to close `" ++ keyword.string ++ "(`"
  | missingArgument keyword slot first =>
    "`" ++ keyword.string ++ "` expects " ++ slot.text ++ " before `" ++
      (if first then ")" else ",") ++ "`"
  | missingAttributeName => "expected attribute name after `@@`"
  | unterminatedPayload name => "unterminated payload of `@@" ++ name.string ++ "`"
  | payloadNotObject name => "payload of `@@" ++ name.string ++ "` must be an object"
  | invalidPayload name failure =>
    "invalid payload of `@@" ++ name.string ++ "`: " ++ failure.text
  | invalidSectionName name => "`" ++ name.string ++ "` is not a valid section name"
  | other message => message.string

/-- Why a tag has no partner. -/
inductive Mismatch where
  /-- A close marker names a tag that is open around the innermost one. -/
  | stillOpen (inner : Text)
  /-- The text ends inside the tag. -/
  | neverClosed
  deriving DecidableEq, Repr

/-- The wording of a mismatch. -/
def Mismatch.text : Mismatch → String
  | stillOpen inner => "`" ++ inner.string ++ "` is still open"
  | neverClosed => "opened but never closed"

/-- What is wrong with a source. -/
inductive Cause where
  /-- Something is malformed. -/
  | malformed (flaw : Flaw)
  /-- An attribute's payload lacks a key. -/
  | keyMissing (name key : Text)
  /-- A key or a name that has to be unique comes again. -/
  | keyRepeated (key : Text)
  /-- A tag lacks its partner. -/
  | tagUnmatched (name : Text) (reason : Mismatch)
  deriving DecidableEq, Repr

/-- The wording of a cause. -/
def Cause.text : Cause → String
  | malformed flaw => flaw.text
  | keyMissing name key =>
    "`@@" ++ name.string ++ "` payload is missing required key `" ++ key.string ++ "`"
  | keyRepeated key => "duplicated key `" ++ key.string ++ "`"
  | tagUnmatched name reason => "unmatched tag `" ++ name.string ++ "`: " ++ reason.text

/-- A cause and the offset in the source it belongs to. -/
structure Defect where
  cause : Cause
  offset : Nat
  deriving DecidableEq, Repr

/-- A malformed piece at an offset. -/
def Defect.malformed (flaw : Flaw) (offset : Nat) : Defect := ⟨.malformed flaw, offset⟩

/-- A cause and its location. -/
structure Fault where
  cause : Cause
  location : Location
  deriving DecidableEq, Repr

/-- The fault that a defect of a source is. -/
def Defect.locate (source : Text) (defect : Defect) : Fault :=
  ⟨defect.cause, Location.ofOffset source defect.offset⟩

/-- The message of a fault. -/
def Fault.text (fault : Fault) : String := fault.cause.text ++ " at " ++ fault.location.text

end Scaffold
