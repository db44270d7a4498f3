/-
**Results of steps in a row.**

Reports take no part in what a run results in, so a run over a list has the result of the same run
over the results alone (`Outcome.result_mapM`, `Outcome.result_foldlM`). Such a run succeeds exactly
if every step does (`mapM_eq_ok_iff`, `exists_forall₂_iff`), and what no step changes is unchanged
in the end (`foldlM_keeps`). What a run fails with has every property that the failures of its steps
have (`FailsOnly`).
-/

import Mathlib.Data.List.Forall2
import Scaffold.Event

namespace Scaffold

variable {ε α β γ : Type}

/-! ### Results alone -/

theorem bind_eq_ok_iff {first : Except ε α} {next : α → Except ε β} {result : β} :
    first >>= next = .ok result ↔ ∃ value, first = .ok value ∧ next value = .ok result := by
  cases first with
  | error failure => exact ⟨nofun, fun ⟨_, succeeded, _⟩ => nomatch succeeded⟩
  | ok value =>
    constructor
    · intro continued
      exact ⟨value, rfl, continued⟩
    · rintro ⟨_, ⟨⟩, continued⟩
      exact continued

theorem map_eq_ok_iff {result : Except ε α} {f : α → β} {image : β} :
    result.map f = .ok image ↔ ∃ value, result = .ok value ∧ f value = image := by
  cases result with
  | error failure => exact ⟨nofun, fun ⟨_, succeeded, _⟩ => nomatch succeeded⟩
  | ok value =>
    constructor
    · intro same
      exact ⟨value, rfl, Except.ok.inj same⟩
    · rintro ⟨_, ⟨⟩, rfl⟩
      rfl

theorem map_eq_error_iff {result : Except ε α} {f : α → β} {failure : ε} :
    result.map f = .error failure ↔ result = .error failure := by
  cases result with
  | error other => exact ⟨fun same => congrArg Except.error (Except.error.inj same), fun same =>
      congrArg Except.error (Except.error.inj same)⟩
  | ok value => exact ⟨nofun, nofun⟩

theorem mapError_eq_ok_iff {δ : Type} {result : Except ε α} {f : ε → δ} {value : α} :
    result.mapError f = .ok value ↔ result = .ok value := by
  cases result with
  | error failure => exact ⟨nofun, nofun⟩
  | ok other => exact ⟨fun same => congrArg Except.ok (Except.ok.inj same), fun same =>
      congrArg Except.ok (Except.ok.inj same)⟩

theorem exists_bind_ok_iff {first : Except ε α} {next : α → Except ε β} :
    (∃ result, first >>= next = .ok result) ↔
      ∃ value, first = .ok value ∧ ∃ result, next value = .ok result := by
  constructor
  · rintro ⟨result, run⟩
    obtain ⟨value, done, finished⟩ := bind_eq_ok_iff.mp run
    exact ⟨value, done, result, finished⟩
  · rintro ⟨value, done, result, finished⟩
    exact ⟨result, bind_eq_ok_iff.mpr ⟨value, done, finished⟩⟩

theorem exists_bind_pure_iff {first : Except ε α} {make : α → β} :
    (∃ result, (first >>= fun value => pure (make value)) = .ok result) ↔
      ∃ value, first = .ok value := by
  rw [exists_bind_ok_iff]
  exact exists_congr fun value => and_iff_left ⟨make value, rfl⟩

theorem ok_of_toOption {result : Except ε α} {value : α}
    (found : result.toOption = some value) : result = .ok value := by
  cases result with
  | error fault => cases found
  | ok other => exact congrArg Except.ok (Option.some.inj found)

/-- A result whose value is mapped: it is there if the value is, and then it is the image. -/
theorem ok_iff_of_toOption {result : Except ε α} {image : Except ε β} {f : α → β}
    (same : image.toOption = result.toOption.map f) :
    ((∃ value, image = .ok value) ↔ ∃ value, result = .ok value) ∧
      ∀ value, result = .ok value → image = .ok (f value) := by
  cases result with
  | error fault =>
    cases image with
    | error other => exact ⟨⟨fun found => found.elim nofun, fun found => found.elim nofun⟩, nofun⟩
    | ok value => cases same
  | ok value =>
    cases image with
    | error other => cases same
    | ok other =>
      cases same
      refine ⟨⟨fun _ => ⟨value, rfl⟩, fun _ => ⟨_, rfl⟩⟩, fun found equal => ?_⟩
      cases equal
      rfl

/-- A step for every item succeeds exactly if each of them does. -/
theorem mapM_eq_ok_iff {step : α → Except ε β} {items : List α} {results : List β} :
    items.mapM step = .ok results ↔
      List.Forall₂ (fun item result => step item = .ok result) items results := by
  induction items generalizing results with
  | nil =>
    rw [List.mapM_nil, List.forall₂_nil_left_iff]
    exact ⟨fun same => (Except.ok.inj same).symm, fun same => congrArg Except.ok same.symm⟩
  | cons item rest ih =>
    rw [List.mapM_cons, bind_eq_ok_iff, List.forall₂_cons_left_iff]
    constructor
    · rintro ⟨first, done, continued⟩
      obtain ⟨others, finished, same⟩ := bind_eq_ok_iff.mp continued
      exact ⟨first, others, done, ih.mp finished, (Except.ok.inj same).symm⟩
    · rintro ⟨first, others, done, finished, rfl⟩
      exact ⟨first, done, bind_eq_ok_iff.mpr ⟨others, ih.mpr finished, rfl⟩⟩

/-- What every result has of its item, all results have of all items. -/
theorem map_eq_of_mapM {step : α → Except ε β} {items : List α} {results : List β}
    (part : β → γ) (origin : α → γ)
    (same : ∀ item ∈ items, ∀ result, step item = .ok result → part result = origin item)
    (run : items.mapM step = .ok results) : results.map part = items.map origin := by
  have related := mapM_eq_ok_iff.mp run
  clear run
  induction related with
  | nil => rfl
  | cons done _ ih =>
    rw [List.map_cons, List.map_cons, same _ List.mem_cons_self _ done,
      ih fun item member => same item (List.mem_cons_of_mem _ member)]

/-- Two lists have the same images exactly if their items have, one by one. -/
theorem map_eq_map_iff {f : α → γ} {g : β → γ} {items : List α} {others : List β} :
    items.map f = others.map g ↔ List.Forall₂ (fun item other => f item = g other) items others := by
  rw [← List.forall₂_eq_eq_eq, List.forall₂_map_left_iff, List.forall₂_map_right_iff]

/-- Some results are found exactly if every item has one. -/
theorem exists_forall₂_iff {related : α → β → Prop} {items : List α} :
    (∃ results, List.Forall₂ related items results) ↔
      ∀ item ∈ items, ∃ result, related item result := by
  induction items with
  | nil => exact iff_of_true ⟨[], List.Forall₂.nil⟩ (fun _ absent => absurd absent List.not_mem_nil)
  | cons item rest ih =>
    rw [List.forall_mem_cons, ← ih]
    constructor
    · rintro ⟨_, holds⟩
      obtain ⟨first, others, done, finished, -⟩ := List.forall₂_cons_left_iff.mp holds
      exact ⟨⟨first, done⟩, others, finished⟩
    · rintro ⟨⟨first, done⟩, others, finished⟩
      exact ⟨first :: others, List.Forall₂.cons done finished⟩

theorem exists_mapM_iff {step : α → Except ε β} {items : List α} :
    (∃ results, items.mapM step = .ok results) ↔
      ∀ item ∈ items, ∃ result, step item = .ok result := by
  rw [← exists_forall₂_iff]
  exact exists_congr fun _ => mapM_eq_ok_iff

/-- What no step changes is the same after all of them. -/
theorem foldlM_keeps {step : α → β → Except ε α} (part : α → γ)
    (keeps : ∀ state item next, step state item = .ok next → part next = part state)
    {items : List β} {state final : α} (run : items.foldlM step state = .ok final) :
    part final = part state := by
  induction items generalizing state with
  | nil => exact congrArg part (Except.ok.inj run).symm
  | cons item rest ih =>
    rw [List.foldlM_cons] at run
    obtain ⟨next, done, finished⟩ := bind_eq_ok_iff.mp run
    rw [ih finished, keeps state item next done]

/-- If what makes a step succeed is up to its item alone, all of them succeed if each item does. -/
theorem exists_foldlM_iff {step : α → β → Except ε α} {good : β → Prop}
    (succeeds : ∀ state item, (∃ next, step state item = .ok next) ↔ good item)
    {items : List β} {state : α} :
    (∃ final, items.foldlM step state = .ok final) ↔ ∀ item ∈ items, good item := by
  induction items generalizing state with
  | nil => exact iff_of_true ⟨state, rfl⟩ (fun _ absent => absurd absent List.not_mem_nil)
  | cons item rest ih =>
    rw [List.forall_mem_cons, ← succeeds state item, List.foldlM_cons, exists_bind_ok_iff]
    constructor
    · rintro ⟨next, done, finished⟩
      exact ⟨⟨next, done⟩, ih.mp finished⟩
    · rintro ⟨⟨next, done⟩, others⟩
      exact ⟨next, done, ih.mpr others⟩

/-! ### What a step fails with -/

/-- If the step fails, what it fails with is `bad`. -/
def FailsOnly (bad : ε → Prop) (result : Except ε α) : Prop :=
  ∀ failure, result = .error failure → bad failure

namespace FailsOnly

variable {bad : ε → Prop}

theorem ok (value : α) : FailsOnly bad (.ok value) := nofun

theorem error {failure : ε} (isBad : bad failure) :
    FailsOnly bad (.error failure : Except ε α) := by
  rintro _ ⟨⟩
  exact isBad

theorem map {result : Except ε α} (fails : FailsOnly bad result) (f : α → β) :
    FailsOnly bad (result.map f) :=
  fun failure failed => fails failure (map_eq_error_iff.mp failed)

theorem bind {first : Except ε α} {next : α → Except ε β} (fails : FailsOnly bad first)
    (failsNext : ∀ value, first = .ok value → FailsOnly bad (next value)) :
    FailsOnly bad (first >>= next) := by
  cases first with
  | error failure => exact error (fails failure rfl)
  | ok value => exact failsNext value rfl

theorem mapM {step : α → Except ε β} {items : List α}
    (fails : ∀ item ∈ items, FailsOnly bad (step item)) : FailsOnly bad (items.mapM step) := by
  induction items with
  | nil => exact ok []
  | cons item rest ih =>
    rw [List.mapM_cons]
    obtain ⟨first, others⟩ := List.forall_mem_cons.mp fails
    exact first.bind fun _ _ => (ih others).bind fun _ _ => ok _

theorem foldlM {step : α → β → Except ε α} {items : List β} {state : α}
    (fails : ∀ item ∈ items, ∀ state, FailsOnly bad (step state item)) :
    FailsOnly bad (items.foldlM step state) := by
  induction items generalizing state with
  | nil => exact ok state
  | cons item rest ih =>
    rw [List.foldlM_cons]
    obtain ⟨first, others⟩ := List.forall_mem_cons.mp fails
    exact (first state).bind fun _ _ => ih others

end FailsOnly

/-! ### Results of reporting steps -/

namespace Outcome

instance : LawfulMonad (Outcome ε) :=
  LawfulMonad.mk' (Outcome ε)
    (by
      rintro α ⟨events, failure | value⟩
      · rfl
      · show (⟨events ++ [], .ok value⟩ : Outcome ε α) = _
        rw [List.append_nil])
    (fun _ _ => rfl)
    (by
      rintro α β γ ⟨events, failure | value⟩ first second
      · rfl
      · show andThen (andThen _ first) second = andThen _ fun value => andThen (first value) second
        simp only [andThen]
        cases (first value).result with
        | error failure => rfl
        | ok next => simp only [List.append_assoc])

theorem result_mapM (step : α → Outcome ε β) (items : List α) :
    (items.mapM step).result = items.mapM fun item => (step item).result := by
  induction items with
  | nil => rfl
  | cons item rest ih =>
    simp only [List.mapM_cons, result_bind, ih, result_pure]
    rfl

theorem result_foldlM (step : α → β → Outcome ε α) (state : α) (items : List β) :
    (items.foldlM step state).result =
      items.foldlM (fun state item => (step state item).result) state := by
  induction items generalizing state with
  | nil => rfl
  | cons item rest ih => simp only [List.foldlM_cons, result_bind, ih]

end Outcome

end Scaffold
