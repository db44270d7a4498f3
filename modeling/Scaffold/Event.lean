/-
**What a run reports while it works.**

An event is a message at a level with named values. A step that reports and may fail is an
`Outcome`: the events so far, and a value or the failure that ended it. Sequencing appends the
events, and on the results it is the sequencing of `Except` (`result_bind`), so a statement about
results never has to look at the events.
-/

import Scaffold.LogLevel

namespace Scaffold

/-- One report: its level, its message and its named values in order. -/
structure Event where
  level : LogLevel
  message : String
  fields : List (String × Text)
  deriving DecidableEq, Repr

/-- A step's events in order and its result. -/
structure Outcome (ε α : Type) where
  events : List Event
  result : Except ε α

namespace Outcome

/-- A value reached without a report. -/
def value {ε α : Type} (value : α) : Outcome ε α := ⟨[], .ok value⟩

/-- A failure without a report. -/
def fail {ε α : Type} (failure : ε) : Outcome ε α := ⟨[], .error failure⟩

/-- One report. -/
def report {ε : Type} (event : Event) : Outcome ε Unit := ⟨[event], .ok ()⟩

/-- A report, if there is something to report. -/
def reportIf {ε : Type} (event? : Option Event) : Outcome ε Unit := ⟨event?.toList, .ok ()⟩

/-- A result without a report. -/
def lift {ε α : Type} (result : Except ε α) : Outcome ε α := ⟨[], result⟩

/-- One step after another: a failure ends the sequence, the events stay. -/
def andThen {ε α β : Type} (first : Outcome ε α) (next : α → Outcome ε β) : Outcome ε β :=
  match first.result with
  | .error failure => ⟨first.events, .error failure⟩
  | .ok value => ⟨first.events ++ (next value).events, (next value).result⟩

instance {ε : Type} : Monad (Outcome ε) where
  pure := value
  bind := andThen

@[simp] theorem result_pure {ε α : Type} (value : α) :
    (pure value : Outcome ε α).result = .ok value := rfl

@[simp] theorem result_value {ε α : Type} (item : α) :
    (value item : Outcome ε α).result = .ok item := rfl

@[simp] theorem result_fail {ε α : Type} (failure : ε) :
    (fail failure : Outcome ε α).result = .error failure := rfl

@[simp] theorem result_report {ε : Type} (event : Event) :
    (report event : Outcome ε Unit).result = .ok () := rfl

@[simp] theorem result_reportIf {ε : Type} (event? : Option Event) :
    (reportIf event? : Outcome ε Unit).result = .ok () := rfl

@[simp] theorem result_lift {ε α : Type} (result : Except ε α) :
    (lift result).result = result := rfl

/-- Events do not take part in how results are sequenced. -/
@[simp] theorem result_bind {ε α β : Type} (first : Outcome ε α) (next : α → Outcome ε β) :
    (first >>= next).result = first.result >>= fun value => (next value).result := by
  show (andThen first next).result = _
  unfold andThen
  split <;> rename_i found <;> rw [found] <;> rfl

end Outcome

end Scaffold
