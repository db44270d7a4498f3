/-
**What a merge does, as two tables.**

The mode of a file decides which of its two versions is taken, or which one is the skeleton of a
merge. In a merge the skeleton gives the order and all plain text; for a region that says so, the
content comes from the other version.
-/

import Scaffold.Tag.Directive

namespace Scaffold

/-- Which version gives the order and the plain text. -/
inductive Skeleton where
  | fresh
  | existing
  deriving DecidableEq, Repr

instance : Named Skeleton where
  all := [.fresh, .existing]
  name
    | .fresh => "Fresh"
    | .existing => "Existing"

/-- What happens to a file as a whole. -/
inductive Plan where
  | keepExisting
  | takeFresh
  | merge (skeleton : Skeleton)
  deriving DecidableEq, Repr

/-- Where the content of a region comes from. -/
inductive Region where
  /-- From the skeleton, as it is. -/
  | own
  /-- From the element of the same name in the other version. -/
  | counterpart
  /-- From the skeleton, with the regions inside it decided one by one. -/
  | recurse
  deriving DecidableEq, Repr

instance : Named Region where
  all := [.own, .counterpart, .recurse]
  name
    | .own => "Own"
    | .counterpart => "Counterpart"
    | .recurse => "Recurse"

/-- The mode in effect. Forcing and skipping win when they are asked for; otherwise the existing
file decides if it declares a mode. -/
def SyncMode.effective (requested : SyncMode) (declared : Option SyncMode) : SyncMode :=
  match requested with
  | .force | .skip => requested
  | .full | .demand => declared.getD requested

/-- What a mode means for a file. -/
def Plan.ofMode : SyncMode → Plan
  | .skip => keepExisting
  | .force => takeFresh
  | .full => merge .fresh
  | .demand => merge .existing

/-- A plan, as events and answers show it. -/
def Plan.label : Plan → String
  | keepExisting => "KeepExisting"
  | takeFresh => "TakeFresh"
  | merge skeleton => "Merge(" ++ Named.name skeleton ++ ")"

/-- What a directive means for a region of the skeleton. -/
def Region.resolve : Skeleton → Option RegionSync → Region
  | .fresh, some .reserve => counterpart
  | .fresh, some .replace => own
  | .existing, some .reserve => own
  | .existing, some .replace => counterpart
  | _, none => recurse

end Scaffold
