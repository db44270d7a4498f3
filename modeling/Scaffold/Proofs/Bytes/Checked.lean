/-
**Steps that come to nothing where a range does not exist.**

A checked step has no result if a slice or a difference in it does not exist. If it has one, that is
a value or a failure, as for any other step (`Checked.of`). A checked step follows a step if it has a
result, and the two results are the same failure or related values (`Checked.Follows`). Following is
kept by each way to put steps together, so a whole run has a result if its parts follow theirs. A
loop goes on as long as its steps say so, and has a result only if each of them gets on
(`Checked.loop`).
-/

import Scaffold.Event

namespace Scaffold

/-- A step that may have no result; its result may be a failure. -/
abbrev Checked (ε α : Type) : Type := ExceptT ε Option α

namespace Checked

variable {ε α β γ δ : Type}

/-- The step that has this result. -/
def of (result : Except ε α) : Checked ε α := ExceptT.mk (some result)

/-- The checked step has a result: the failure of the other step, or a value related to its value. -/
def Follows (related : α → β → Prop) (checked : Checked ε α) : Except ε β → Prop
  | .ok value => ∃ own, checked = of (.ok own) ∧ related own value
  | .error failure => checked = of (.error failure)

/-- A part that exists is passed on. -/
@[simp] theorem lift_some_bind (value : α) (next : α → Checked ε β) :
    (liftM (some value) : Checked ε α) >>= next = next value := rfl

@[simp] theorem of_ok_bind (value : α) (next : α → Checked ε β) :
    of (.ok value) >>= next = next value := rfl

@[simp] theorem map_of (f : α → β) (result : Except ε α) : f <$> of result = of (result.map f) := by
  cases result <;> rfl

theorem of_bind {first : Except ε α} {next? : α → Checked ε β} {next : α → Except ε β}
    (same : ∀ value, first = .ok value → next? value = of (next value)) :
    of first >>= next? = of (first >>= next) := by
  cases first with
  | error failure => rfl
  | ok value => exact same value rfl

theorem mapM_of {step? : α → Checked ε β} {step : α → Except ε β} {items : List α}
    (same : ∀ item ∈ items, step? item = of (step item)) :
    items.mapM step? = of (items.mapM step) := by
  induction items with
  | nil => rfl
  | cons item rest ih =>
    obtain ⟨first, others⟩ := List.forall_mem_cons.mp same
    rw [List.mapM_cons, List.mapM_cons, first, ih others]
    exact of_bind fun _ _ => of_bind fun _ _ => rfl

theorem foldlM_of {step? : α → β → Checked ε α} {step : α → β → Except ε α} {items : List β}
    (same : ∀ item ∈ items, ∀ state, step? state item = of (step state item)) (state : α) :
    items.foldlM step? state = of (items.foldlM step state) := by
  induction items generalizing state with
  | nil => rfl
  | cons item rest ih =>
    obtain ⟨first, others⟩ := List.forall_mem_cons.mp same
    rw [List.foldlM_cons, List.foldlM_cons, first state]
    exact of_bind fun next _ => ih others next

/-! ### Loops -/

/-- The items of a loop: each step adds one and moves on, until one says that there are no more.
`left` measures what is left; a loop that does not get on comes to nothing. -/
def loop (step : γ → Checked ε (Option (α × γ))) (left : γ → Nat) (state : γ) : Checked ε (List α) :=
  match (step state).run with
  | none => ExceptT.mk none
  | some (.error failure) => of (.error failure)
  | some (.ok none) => of (.ok [])
  | some (.ok (some (item, next))) =>
    if left next < left state then (item :: ·) <$> loop step left next else ExceptT.mk none
  termination_by left state

section

variable {step : γ → Checked ε (Option (α × γ))} {left : γ → Nat} {state : γ}

theorem loop_ended (ended : step state = of (.ok none)) : loop step left state = of (.ok []) := by
  rw [loop, ended]
  rfl

theorem loop_failed {failure : ε} (failed : step state = of (.error failure)) :
    loop step left state = of (.error failure) := by
  rw [loop, failed]
  rfl

theorem loop_moved {item : α} {next : γ} (moved : step state = of (.ok (some (item, next))))
    (closer : left next < left state) :
    loop step left state = (item :: ·) <$> loop step left next := by
  rw [loop, moved]
  exact if_pos closer

end

/-! ### Steps that follow others -/

namespace Follows

variable {related : α → β → Prop} {linked : γ → δ → Prop}
  {checked : Checked ε α} {result : Except ε β}

theorem ok {own : α} {value : β} (holds : related own value) :
    Follows related (of (.ok own) : Checked ε α) (.ok value) := ⟨own, rfl, holds⟩

theorem error (failure : ε) :
    Follows related (of (.error failure) : Checked ε α) (.error failure) := rfl

/-- A step follows the one whose result it has. -/
theorem of_self (result : Except ε α) : Follows Eq (of result) result := by
  cases result with
  | error failure => exact error failure
  | ok value => exact ok rfl

/-- Related values are mapped to related ones. -/
theorem map (follows : Follows related checked result) {f : α → γ} {g : β → δ}
    (keeps : ∀ own value, related own value → linked (f own) (g value)) :
    Follows linked (f <$> checked) (result.map g) := by
  cases result with
  | error failure =>
    rw [show checked = of (.error failure) from follows]
    exact error failure
  | ok value =>
    obtain ⟨own, rfl, holds⟩ := follows
    exact ok (keeps own value holds)

/-- A step that follows another one follows that with its values mapped, too. -/
theorem map_right {linked : α → δ → Prop} (follows : Follows related checked result) {g : β → δ}
    (keeps : ∀ own value, related own value → linked own (g value)) :
    Follows linked checked (result.map g) := by
  cases result with
  | error failure => exact follows
  | ok value =>
    obtain ⟨own, rfl, holds⟩ := follows
    exact ok (keeps own value holds)

/-- **One step after another**: the second one follows from related values on. -/
theorem bind (follows : Follows related checked result) {next? : α → Checked ε γ}
    {next : β → Except ε δ}
    (later : ∀ own value, related own value → Follows linked (next? own) (next value)) :
    Follows linked (checked >>= next?) (result >>= next) := by
  cases result with
  | error failure =>
    rw [show checked = of (.error failure) from follows]
    exact error failure
  | ok value =>
    obtain ⟨own, rfl, holds⟩ := follows
    exact later own value holds

/-- A step after which the other run only maps its value. -/
theorem bind_map (follows : Follows related checked result) {next? : α → Checked ε γ} {f : β → δ}
    (later : ∀ own value, related own value → Follows linked (next? own) (.ok (f value))) :
    Follows linked (checked >>= next?) (result.map f) := by
  cases result with
  | error failure =>
    rw [show checked = of (.error failure) from follows]
    exact error failure
  | ok value =>
    obtain ⟨own, rfl, holds⟩ := follows
    exact later own value holds

/-- A step that goes on with the same value has the same result. -/
theorem bind_eq (follows : Follows related checked result) {next? : α → Checked ε γ}
    {next : β → Except ε γ}
    (same : ∀ own value, related own value → next? own = of (next value)) :
    checked >>= next? = of (result >>= next) := by
  cases result with
  | error failure =>
    rw [show checked = of (.error failure) from follows]
    rfl
  | ok value =>
    obtain ⟨own, rfl, holds⟩ := follows
    exact same own value holds

end Follows

end Checked

end Scaffold
