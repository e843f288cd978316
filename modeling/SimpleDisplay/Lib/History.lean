import SimpleDisplay.Lib.Run

/-!
# History variables

A record kept beside the state of a machine.  `note a s r` is the record after the step
`a` is taken in `s`; no step reads it, so that the recorded machine has the runs of the
machine and no others (`run_recorded`).
-/

namespace StateMachine

variable {σ α η : Type*} (step : α → σ → Option σ) (note : α → σ → η → η)

/-- The machine with the record beside it. -/
def recorded (a : α) (w : σ × η) : Option (σ × η) :=
  (step a w.1).map fun t => (t, note a w.1 w.2)

variable {step note}

theorem recorded_eq_some {a : α} {s t : σ} {r r' : η} :
    recorded step note a (s, r) = some (t, r') ↔ step a s = some t ∧ note a s r = r' := by
  simp [recorded]

variable (step note)

/-- **The record restricts no run.** -/
theorem run_recorded (as : List α) (w : σ × η) :
    (run (recorded step note) as w).map Prod.fst = run step as w.1 := by
  induction as generalizing w with
  | nil => rfl
  | cons a as ih =>
    simp only [run, recorded]
    cases step a w.1 with
    | none => rfl
    | some t => exact ih (t, note a w.1 w.2)

variable {step}

/-- Every run is recorded. -/
theorem run_recorded_exists {as : List α} {s t : σ} (r : η) (h : run step as s = some t) :
    ∃ r', run (recorded step note) as (s, r) = some (t, r') := by
  have hfst := run_recorded step note as (s, r)
  rw [h] at hfst
  obtain ⟨⟨t', r'⟩, hrun, ht⟩ := Option.map_eq_some_iff.1 hfst
  exact ⟨r', by rw [hrun, ← ht]⟩

end StateMachine
