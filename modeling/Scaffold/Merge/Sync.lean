/-
**Merging a fresh version of a file into the existing one.**

Where the plan is a merge, both versions are read as forests and the skeleton is written out again.
The content of a region that the table sends to the counterpart is what the first element of its
name holds in the other version; a region that closes itself takes that element whole, and a region
without a counterpart stays as it is.
-/

import Scaffold.Merge.Plan

namespace Scaffold

namespace Forest

/-- The skeleton with the content of its regions decided. -/
def mergeWith (skeleton : Skeleton) (counterpart : Forest) : Forest → Text
  | empty => []
  | text content next => content ++ mergeWith skeleton counterpart next
  | element tag inner next =>
    let merged :=
      match Region.resolve skeleton tag.regionSync? with
      | .own => tag.around inner.render
      | .recurse => tag.around (mergeWith skeleton counterpart inner)
      | .counterpart =>
        match counterpart.find? tag.name with
        | none => tag.around inner.render
        | some other => if tag.isSelfClosing then other.render else tag.around other.innerText
    merged ++ mergeWith skeleton counterpart next

/-- An optional value, as events show it. -/
def showOption {α : Type} [Named α] : Option α → String
  | none => "None"
  | some item => "Some(" ++ Named.name item ++ ")"

/-- What is reported while a skeleton is written out. -/
def mergeReports (skeleton : Skeleton) (counterpart : Forest) : Forest → List Event
  | empty => []
  | text _ next => mergeReports skeleton counterpart next
  | element tag inner next =>
    let region := Region.resolve skeleton tag.regionSync?
    let decided : Event := ⟨.trace, "region",
      [("name", tag.name), ("directive", (showOption tag.regionSync?).toList),
        ("region", Named.label region)]⟩
    let inside :=
      match region with
      | .own => []
      | .recurse => mergeReports skeleton counterpart inner
      | .counterpart =>
        if (counterpart.find? tag.name).isSome then []
        else [⟨.debug, "region has no counterpart, keeping skeleton content",
          [("name", tag.name)]⟩]
    decided :: inside ++ mergeReports skeleton counterpart next

end Forest

namespace Merge

/-- The mode in effect for a file. -/
def modeFor (delimiter existing : Text) (requested : SyncMode) : SyncMode :=
  requested.effective (Tag.fileSyncMode? delimiter existing)

/-- The merge of two versions that are read as forests. -/
def forests (skeleton : Skeleton) (fresh existing : Forest) : Text :=
  match skeleton with
  | .fresh => Forest.mergeWith .fresh existing fresh
  | .existing => Forest.mergeWith .existing fresh existing

/-- The existing file with the fresh version merged into it. -/
def sync (delimiter fresh existing : Text) (requested : SyncMode) : Except Fault Text :=
  match Plan.ofMode (modeFor delimiter existing requested) with
  | .keepExisting => .ok existing
  | .takeFresh => .ok fresh
  | .merge skeleton => do
    let freshForest ← Forest.parse delimiter fresh
    let existingForest ← Forest.parse delimiter existing
    return forests skeleton freshForest existingForest

/-- What is reported about the merge of two versions that are read as forests. -/
def forestReports (skeleton : Skeleton) (fresh existing : Forest) : List Event :=
  match skeleton with
  | .fresh => Forest.mergeReports .fresh existing fresh
  | .existing => Forest.mergeReports .existing fresh existing

/-- What is reported during a merge. -/
def syncReports (delimiter fresh existing : Text) (requested : SyncMode) : List Event :=
  let declared := Tag.fileSyncMode? delimiter existing
  let mode := requested.effective declared
  let plan := Plan.ofMode mode
  let planned : Event := ⟨.debug, "sync plan",
    [("default_mode", Named.label requested),
      ("declared", (Forest.showOption declared).toList), ("mode", Named.label mode),
      ("plan", plan.label.toList)]⟩
  let reading :=
    match plan with
    | .keepExisting | .takeFresh => []
    | .merge skeleton =>
      Forest.parseReports delimiter fresh ++
        match Forest.parse delimiter fresh with
        | .error _ => []
        | .ok freshForest =>
          Forest.parseReports delimiter existing ++
            match Forest.parse delimiter existing with
            | .error _ => []
            | .ok existingForest => forestReports skeleton freshForest existingForest
  planned :: reading

end Merge

end Scaffold
