/-
**When a merge or an update of a section fails.**

The mode of a file is read line by line, and a line that breaks a rule is passed over. So a file
has a mode even if it cannot be read as a forest, and a file that is skipped or forced is never
read. In every other case both texts of a merge are read, the fresh one first, and there is no other
way to fail:

* `sync_eq_error_iff`: the faults of a merge;
* `regenerate_eq_error_iff`: the faults of an update, of which a name that no tag can have comes
  first;
* `sync_and_regenerate_error_iff`: so both fail exactly when they have to read a text that cannot be
  read, or are given such a name.
-/

import Scaffold.Proofs.Merge.Graft
import Scaffold.Proofs.Merge.Regeneration

namespace Scaffold

/-- A text that cannot be read as a forest. -/
def Forest.IsUnreadable (delimiter content : Text) : Prop :=
  ∃ fault, Forest.parse delimiter content = .error fault

instance (delimiter content : Text) : Decidable (Forest.IsUnreadable delimiter content) :=
  decidable_of_iff ((Forest.parse delimiter content).toOption = none) <| by
    rw [Forest.IsUnreadable]
    cases Forest.parse delimiter content with
    | error fault => exact iff_of_true rfl ⟨fault, rfl⟩
    | ok forest => exact iff_of_false nofun nofun

/-! ### Modes -/

/-- Forcing and skipping are in effect when they are asked for. -/
theorem SyncMode.effective_of_force_or_skip {requested : SyncMode}
    (wins : requested = .force ∨ requested = .skip) (declared : Option SyncMode) :
    requested.effective declared = requested := by
  rcases wins with rfl | rfl <;> rfl

/-- The modes that merge are the two others. -/
theorem Plan.exists_merge_iff {mode : SyncMode} :
    (∃ skeleton, Plan.ofMode mode = .merge skeleton) ↔ mode = .full ∨ mode = .demand := by
  cases mode with
  | full => exact iff_of_true ⟨.fresh, rfl⟩ (Or.inl rfl)
  | demand => exact iff_of_true ⟨.existing, rfl⟩ (Or.inr rfl)
  | skip => exact iff_of_false (fun ⟨_, planned⟩ => nomatch planned) (by decide)
  | force => exact iff_of_false (fun ⟨_, planned⟩ => nomatch planned) (by decide)

/-! ### Merges -/

namespace Merge

variable {delimiter fresh existing : Text} {requested : SyncMode} {fault : Fault}

theorem sync_of_skip (mode : modeFor delimiter existing requested = .skip) :
    sync delimiter fresh existing requested = .ok existing := by
  rw [sync, mode]
  rfl

theorem sync_of_force (mode : modeFor delimiter existing requested = .force) :
    sync delimiter fresh existing requested = .ok fresh := by
  rw [sync, mode]
  rfl

/-- The fault of the text that is read first and has one. -/
def IsFirstFault (delimiter fresh existing : Text) (fault : Fault) : Prop :=
  Forest.parse delimiter fresh = .error fault ∨
    (∃ forest, Forest.parse delimiter fresh = .ok forest) ∧
      Forest.parse delimiter existing = .error fault

theorem exists_isFirstFault_iff :
    (∃ fault, IsFirstFault delimiter fresh existing fault) ↔
      Forest.IsUnreadable delimiter fresh ∨ Forest.IsUnreadable delimiter existing := by
  constructor
  · rintro ⟨fault, ofFresh | ⟨_, ofExisting⟩⟩
    · exact Or.inl ⟨fault, ofFresh⟩
    · exact Or.inr ⟨fault, ofExisting⟩
  · intro unreadable
    cases read : Forest.parse delimiter fresh with
    | error fault => exact ⟨fault, Or.inl read⟩
    | ok forest =>
      rcases unreadable with ⟨fault, ofFresh⟩ | ⟨fault, ofExisting⟩
      · rw [read] at ofFresh
        cases ofFresh
      · exact ⟨fault, Or.inr ⟨⟨forest, read⟩, ofExisting⟩⟩

/-- **The faults of a merge** are those of its texts, where it has to read them. -/
theorem sync_eq_error_iff :
    sync delimiter fresh existing requested = .error fault ↔
      (modeFor delimiter existing requested = .full ∨
          modeFor delimiter existing requested = .demand) ∧
        IsFirstFault delimiter fresh existing fault := by
  rw [← Plan.exists_merge_iff]
  cases planned : Plan.ofMode (modeFor delimiter existing requested) with
  | keepExisting =>
    rw [sync, planned]
    constructor
    · intro failed
      cases failed
    · rintro ⟨⟨_, merges⟩, _⟩
      cases merges
  | takeFresh =>
    rw [sync, planned]
    constructor
    · intro failed
      cases failed
    · rintro ⟨⟨_, merges⟩, _⟩
      cases merges
  | merge skeleton =>
    rw [and_iff_right ⟨skeleton, rfl⟩]
    unfold IsFirstFault
    cases readFresh : Forest.parse delimiter fresh with
    | error found =>
      have failed : sync delimiter fresh existing requested = .error found := by
        rw [sync, planned, readFresh]
        rfl
      simp only [failed, Except.error.injEq, reduceCtorEq, exists_false, false_and, or_false]
    | ok freshForest =>
      cases readExisting : Forest.parse delimiter existing with
      | error found =>
        have failed : sync delimiter fresh existing requested = .error found := by
          rw [sync, planned, readFresh, readExisting]
          rfl
        simp only [failed, Except.error.injEq, reduceCtorEq, Except.ok.injEq, exists_eq', true_and,
          false_or]
      | ok existingForest =>
        rw [sync_eq_graft planned readFresh readExisting]
        constructor
        · intro failed
          cases failed
        · rintro (ofFresh | ⟨_, ofExisting⟩)
          · cases ofFresh
          · cases ofExisting

end Merge

/-! ### Updates -/

namespace Section

variable {delimiter existing name content : Text} {fault : Fault}

/-- The fault of a name that no tag can have. -/
def invalidName (name : Text) : Fault := (Defect.malformed (.invalidSectionName name) 0).locate name

/-- **The faults of an update** are a name that no tag can have, and otherwise those of its text,
where it has to read it. -/
theorem regenerate_eq_error_iff :
    regenerate delimiter existing name content = .error fault ↔
      Tag.isName name = false ∧ fault = invalidName name ∨
        Tag.isName name = true ∧ modeFor delimiter existing ≠ .skip ∧
          Forest.parse delimiter existing = .error fault := by
  by_cases named : Tag.isName name = true
  · rw [named]
    by_cases mode : modeFor delimiter existing = .skip
    · rw [regenerate_of_skip named mode]
      exact ⟨nofun, fun either => either.elim nofun fun ⟨_, reads, _⟩ => absurd mode reads⟩
    · rw [regenerate_eq_map named mode]
      cases Forest.parse delimiter existing with
      | error found =>
        simp only [Except.map, Except.error.injEq, reduceCtorEq, false_and, false_or, true_and,
          mode, ne_eq, not_false_eq_true]
      | ok forest =>
        simp only [Except.map, reduceCtorEq, false_and, and_false, or_false]
  · rw [regenerate, if_neg named, Bool.eq_false_iff.mpr named]
    constructor
    · intro failed
      cases failed
      exact Or.inl ⟨rfl, rfl⟩
    · rintro (⟨_, rfl⟩ | ⟨same, _⟩)
      · rfl
      · cases same

end Section

/-! ### Both -/

namespace Merge

/-- **When merging fails.** A file that is skipped stays and one that is forced is replaced, whether
its texts can be read or not; otherwise a merge fails exactly if one of them cannot be read, with
the fault of the fresh one if it has one. An update fails exactly if no tag can have the name, or
the file is not skipped and cannot be read. -/
theorem sync_and_regenerate_error_iff (delimiter fresh existing name content : Text)
    (requested : SyncMode) :
    (requested = .force ∨ requested = .skip →
        modeFor delimiter existing requested = requested) ∧
      (modeFor delimiter existing requested = .skip →
        sync delimiter fresh existing requested = .ok existing) ∧
      (modeFor delimiter existing requested = .force →
        sync delimiter fresh existing requested = .ok fresh) ∧
      (modeFor delimiter existing requested = .full ∨
          modeFor delimiter existing requested = .demand →
        ((∃ fault, sync delimiter fresh existing requested = .error fault) ↔
            Forest.IsUnreadable delimiter fresh ∨ Forest.IsUnreadable delimiter existing) ∧
          ∀ fault, sync delimiter fresh existing requested = .error fault ↔
            Forest.parse delimiter fresh = .error fault ∨
              (∃ forest, Forest.parse delimiter fresh = .ok forest) ∧
                Forest.parse delimiter existing = .error fault) ∧
      ((∃ fault, Section.regenerate delimiter existing name content = .error fault) ↔
        Tag.isName name = false ∨
          Section.modeFor delimiter existing ≠ .skip ∧
            Forest.IsUnreadable delimiter existing) := by
  refine ⟨fun wins => SyncMode.effective_of_force_or_skip wins _, sync_of_skip, sync_of_force,
    fun merges => ?_, ?_⟩
  · have faults : ∀ fault, sync delimiter fresh existing requested = .error fault ↔
        IsFirstFault delimiter fresh existing fault := fun fault => by
      rw [sync_eq_error_iff, and_iff_right merges]
    refine ⟨?_, faults⟩
    rw [← exists_isFirstFault_iff]
    exact exists_congr faults
  · constructor
    · rintro ⟨fault, failed⟩
      rcases Section.regenerate_eq_error_iff.mp failed with ⟨unnamed, _⟩ | ⟨_, mode, unread⟩
      · exact Or.inl unnamed
      · exact Or.inr ⟨mode, fault, unread⟩
    · by_cases named : Tag.isName name = true
      · rintro (unnamed | ⟨mode, fault, unread⟩)
        · rw [named] at unnamed
          cases unnamed
        · exact ⟨fault, Section.regenerate_eq_error_iff.mpr (Or.inr ⟨named, mode, unread⟩)⟩
      · intro _
        exact ⟨_, Section.regenerate_eq_error_iff.mpr
          (Or.inl ⟨Bool.eq_false_iff.mpr named, rfl⟩)⟩

/-- Two files that cannot be read: the existing one says that it is to be skipped, and only when it
is forced is that not heeded. -/
theorem sync_and_regenerate_error_iff_unreadable : ∃ fresh existing : Text,
    fresh = "//<a k=\"v\">\n".toList ∧
      existing = "//<b k=\"v\">\n//<c sync=\"Skip\" gen=\"Skip\"/>\n".toList ∧
      Forest.IsUnreadable "//".toList fresh ∧ Forest.IsUnreadable "//".toList existing ∧
      modeFor "//".toList existing .full = .skip ∧
      sync "//".toList fresh existing .full = .ok existing ∧
      sync "//".toList fresh existing .force = .ok fresh ∧
      ¬ ∃ fault, Section.regenerate "//".toList existing "b".toList [] = .error fault := by
  have skipped : modeFor "//".toList "//<b k=\"v\">\n//<c sync=\"Skip\" gen=\"Skip\"/>\n".toList
      .full = .skip := by
    decide +kernel
  obtain ⟨_, skips, _, _, updates⟩ := sync_and_regenerate_error_iff "//".toList
    "//<a k=\"v\">\n".toList "//<b k=\"v\">\n//<c sync=\"Skip\" gen=\"Skip\"/>\n".toList
    "b".toList [] .full
  obtain ⟨wins, _, forces, _⟩ := sync_and_regenerate_error_iff "//".toList
    "//<a k=\"v\">\n".toList "//<b k=\"v\">\n//<c sync=\"Skip\" gen=\"Skip\"/>\n".toList
    "b".toList [] .force
  refine ⟨_, _, rfl, rfl, by decide +kernel, by decide +kernel, skipped, skips skipped,
    forces (wins (Or.inl rfl)), ?_⟩
  rw [updates]
  decide +kernel

end Merge

end Scaffold
