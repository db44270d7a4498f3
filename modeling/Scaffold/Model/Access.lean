/-
**Which accessors a property has.**

A mode says whether a property can be read and whether it can be written. Restricting one mode by
another keeps what both allow, so on the two capabilities it is conjunction.
-/

import Scaffold.Named

namespace Scaffold

/-- Which accessors a property has. -/
inductive AccessMode where
  | readWrite
  | readOnly
  | writeOnly
  | noAccess
  deriving DecidableEq, Repr

namespace AccessMode

instance : Named AccessMode where
  all := [readWrite, readOnly, writeOnly, noAccess]
  name
    | readWrite => "ReadWrite"
    | readOnly => "ReadOnly"
    | writeOnly => "WriteOnly"
    | noAccess => "NoAccess"

/-- Whether there is a getter. -/
def canRead : AccessMode → Bool
  | readWrite | readOnly => true
  | writeOnly | noAccess => false

/-- Whether there is a setter. -/
def canWrite : AccessMode → Bool
  | readWrite | writeOnly => true
  | readOnly | noAccess => false

/-- The mode with these capabilities. -/
def ofCapabilities : (readable writable : Bool) → AccessMode
  | true, true => readWrite
  | true, false => readOnly
  | false, true => writeOnly
  | false, false => noAccess

/-- The capabilities that both modes have. -/
def restrict (first second : AccessMode) : AccessMode :=
  ofCapabilities (first.canRead && second.canRead) (first.canWrite && second.canWrite)

@[simp] theorem canRead_restrict (first second : AccessMode) :
    (first.restrict second).canRead = (first.canRead && second.canRead) := by
  cases first <;> cases second <;> rfl

@[simp] theorem canWrite_restrict (first second : AccessMode) :
    (first.restrict second).canWrite = (first.canWrite && second.canWrite) := by
  cases first <;> cases second <;> rfl

end AccessMode

end Scaffold
