import Mathlib.Logic.Relation
import Mathlib.Tactic.Common

/-!
# Runs of a partial step function

`step a s = some t` says that the labelled step `a` is enabled in `s` and leads to
`t`.  A run is a list of labels.  What one step preserves, every run preserves
(`run_invariant`); what one step preserves while a side condition on its label and
its first state holds, every run whose steps all meet the condition preserves
(`run_invariant_of_meets`).
-/

namespace StateMachine

variable {σ α : Type*} (step : α → σ → Option σ)

/-- Takes the listed steps in order; `none` when one of them is not enabled. -/
def run : List α → σ → Option σ
  | [], s => some s
  | a :: as, s => (step a s).bind (run as)

/-- Some run leads from `s` to `t`. -/
def Reaches (s t : σ) : Prop := ∃ as, run step as s = some t

/-- Every step of the run is taken at a label and a state that satisfy `ok`. -/
def Meets (ok : α → σ → Prop) : List α → σ → Prop
  | [], _ => True
  | a :: as, s => ok a s ∧ ∀ t, step a s = some t → Meets ok as t

variable {step}

/-- On a given run, a decidable condition can be checked. -/
instance Meets.decidable {ok : α → σ → Prop} [∀ a s, Decidable (ok a s)] :
    ∀ as s, Decidable (Meets step ok as s)
  | [], _ => isTrue trivial
  | a :: as, s =>
    match h : step a s with
    | none => decidable_of_iff (ok a s) (by simp [Meets, h])
    | some t =>
      have : Decidable (Meets step ok as t) := Meets.decidable as t
      decidable_of_iff (ok a s ∧ Meets step ok as t) (by simp [Meets, h])

theorem run_cons_some {a : α} {as : List α} {s u : σ} :
    run step (a :: as) s = some u ↔ ∃ t, step a s = some t ∧ run step as t = some u := by
  simp only [run, Option.bind_eq_some_iff]

theorem run_append_some {as bs : List α} {s u : σ} :
    run step (as ++ bs) s = some u ↔ ∃ t, run step as s = some t ∧ run step bs t = some u := by
  induction as generalizing s with
  | nil => simp [run]
  | cons a as ih =>
    simp only [List.cons_append, run_cons_some, ih]
    constructor
    · rintro ⟨t, h1, v, h2, h3⟩
      exact ⟨v, ⟨t, h1, h2⟩, h3⟩
    · rintro ⟨v, ⟨t, h1, h2⟩, h3⟩
      exact ⟨t, h1, v, h2, h3⟩

/-- A run evaluated on a test. -/
theorem run_any {as : List α} {s : σ} {test : σ → Bool} (h : (run step as s).any test = true) :
    ∃ t, run step as s = some t ∧ test t = true := by
  cases hr : run step as s with
  | none => simp [hr] at h
  | some t => exact ⟨t, rfl, by simpa [hr] using h⟩

theorem Reaches.refl (s : σ) : Reaches step s s := ⟨[], rfl⟩

theorem Reaches.tail {s t u : σ} {a : α} (h : Reaches step s t) (ht : step a t = some u) :
    Reaches step s u := by
  obtain ⟨as, has⟩ := h
  exact ⟨as ++ [a], run_append_some.2 ⟨t, has, by simp [run, ht]⟩⟩

theorem Reaches.trans {s t u : σ} (h : Reaches step s t) (h' : Reaches step t u) :
    Reaches step s u := by
  obtain ⟨as, has⟩ := h
  obtain ⟨bs, hbs⟩ := h'
  exact ⟨as ++ bs, run_append_some.2 ⟨t, has, hbs⟩⟩

/-- **Invariant rule.** What every step preserves holds at the end of every run. -/
theorem run_invariant {I : σ → Prop} (hI : ∀ a s t, I s → step a s = some t → I t)
    {as : List α} {s t : σ} (hs : I s) (h : run step as s = some t) : I t := by
  induction as generalizing s with
  | nil => cases h; exact hs
  | cons a as ih =>
    obtain ⟨u, h1, h2⟩ := run_cons_some.1 h
    exact ih (hI a s u hs h1) h2

theorem Reaches.invariant {I : σ → Prop} (hI : ∀ a s t, I s → step a s = some t → I t)
    {s t : σ} (hs : I s) (h : Reaches step s t) : I t := by
  obtain ⟨as, has⟩ := h
  exact run_invariant hI hs has

/-- **Refinement rule.** When every step from an invariant state is a step of an abstract
relation on the abstracted states, every run is a run of that relation. -/
theorem Reaches.refines {τ : Type*} {I : σ → Prop} {abs : σ → τ} {absStep : τ → τ → Prop}
    (hI : ∀ a s t, I s → step a s = some t → I t)
    (hsim : ∀ a s t, I s → step a s = some t → absStep (abs s) (abs t))
    {s t : σ} (hs : I s) (h : Reaches step s t) : Relation.ReflTransGen absStep (abs s) (abs t) := by
  obtain ⟨as, has⟩ := h
  induction as generalizing s with
  | nil => cases has; exact .refl
  | cons a as ih =>
    obtain ⟨u, h1, h2⟩ := run_cons_some.1 has
    exact .head (hsim a s u hs h1) (ih (hI a s u hs h1) h2)

/-- **Simulation rule.** When every step of a second system is matched by a run from a related
state, every run of it is. -/
theorem run_simulates {β τ : Type*} {step' : β → τ → Option τ} {R : σ → τ → Prop}
    (hR : ∀ b s t t', R s t → step' b t = some t' → ∃ as s', run step as s = some s' ∧ R s' t')
    {bs : List β} {s : σ} {t t' : τ} (hs : R s t) (h : run step' bs t = some t') :
    ∃ as s', run step as s = some s' ∧ R s' t' := by
  induction bs generalizing s t with
  | nil =>
    cases h
    exact ⟨[], s, rfl, hs⟩
  | cons b bs ih =>
    obtain ⟨u, h1, h2⟩ := run_cons_some.1 h
    obtain ⟨as, v, has, hv⟩ := hR b s t u hs h1
    obtain ⟨as', v', has', hv'⟩ := ih hv h2
    exact ⟨as ++ as', v', run_append_some.2 ⟨v, has, has'⟩, hv'⟩

/-- **Conditional invariant rule.** What every step that meets `ok` preserves holds at
the end of every run whose steps all meet it. -/
theorem run_invariant_of_meets {ok : α → σ → Prop} {I : σ → Prop}
    (hI : ∀ a s t, I s → ok a s → step a s = some t → I t)
    {as : List α} {s t : σ} (hs : I s) (hm : Meets step ok as s) (h : run step as s = some t) :
    I t := by
  induction as generalizing s with
  | nil => cases h; exact hs
  | cons a as ih =>
    obtain ⟨u, h1, h2⟩ := run_cons_some.1 h
    exact ih (hI a s u hs hm.1 h1) (hm.2 u h1) h2

/-- A condition on the labels alone. -/
theorem Meets.of_labels {ok : α → Prop} {as : List α} (h : ∀ a ∈ as, ok a) (s : σ) :
    Meets step (fun a _ => ok a) as s := by
  induction as generalizing s with
  | nil => trivial
  | cons a as ih =>
    refine ⟨h a List.mem_cons_self, fun t _ => ih (fun b hb => h b (List.mem_cons_of_mem _ hb)) t⟩

/-- Along a run that keeps an invariant, a condition may be replaced by one that follows
from both. -/
theorem Meets.imp_of_invariant {ok ok' : α → σ → Prop} {I : σ → Prop}
    (hI : ∀ a s t, I s → ok a s → step a s = some t → I t)
    (hok : ∀ a s, I s → ok a s → ok' a s) {as : List α} {s : σ} (hs : I s)
    (hm : Meets step ok as s) : Meets step ok' as s := by
  induction as generalizing s with
  | nil => trivial
  | cons a as ih =>
    exact ⟨hok a s hs hm.1, fun t ht => ih (hI a s t hs hm.1 ht) (hm.2 t ht)⟩

theorem Meets.append {ok : α → σ → Prop} {as bs : List α} {s t : σ}
    (h : run step as s = some t) : Meets step ok (as ++ bs) s ↔ Meets step ok as s ∧ Meets step ok bs t := by
  induction as generalizing s with
  | nil => cases h; simp [Meets]
  | cons a as ih =>
    obtain ⟨u, h1, h2⟩ := run_cons_some.1 h
    simp only [List.cons_append, Meets, h1, Option.some.injEq, forall_eq', ih h2, and_assoc]

/-- **Exact rule.** When `ok` is just what a step needs to keep `J`, the runs that have `J`
in every state they reach are those whose steps all meet it. -/
theorem meets_iff {ok : α → σ → Prop} {I J : σ → Prop}
    (hI : ∀ a s t, I s → step a s = some t → I t)
    (hJ : ∀ a s t, I s → J s → step a s = some t → (J t ↔ ok a s)) {as : List α} {s u : σ}
    (hs : I s) (hj : J s) (h : run step as s = some u) :
    (∀ bs cs t, as = bs ++ cs → run step bs s = some t → J t) ↔ Meets step ok as s := by
  induction as generalizing s with
  | nil =>
    refine ⟨fun _ => trivial, fun _ bs cs t hsplit ht => ?_⟩
    obtain ⟨rfl, -⟩ := List.append_eq_nil_iff.1 hsplit.symm
    cases ht
    exact hj
  | cons a as ih =>
    obtain ⟨v, hv, h⟩ := run_cons_some.1 h
    have hstep := hJ a s v hs hj hv
    constructor
    · intro hall
      have hjv := hall [a] as v rfl (run_cons_some.2 ⟨v, hv, rfl⟩)
      refine ⟨hstep.1 hjv, fun t ht => ?_⟩
      obtain rfl : v = t := by rw [hv] at ht; exact Option.some.inj ht
      refine (ih (hI a s v hs hv) hjv h).1 fun bs cs t hsplit ht => ?_
      exact hall (a :: bs) cs t (by rw [hsplit]; rfl) (run_cons_some.2 ⟨v, hv, ht⟩)
    · rintro ⟨hok, hrest⟩ bs cs t hsplit ht
      have hjv := hstep.2 hok
      rcases bs with _ | ⟨b, bs⟩
      · cases ht
        exact hj
      · rw [List.cons_append, List.cons.injEq] at hsplit
        obtain ⟨rfl, hsplit⟩ := hsplit
        obtain ⟨v', hv', ht⟩ := run_cons_some.1 ht
        obtain rfl : v = v' := by rw [hv] at hv'; exact Option.some.inj hv'
        exact (ih (hI a s v hs hv) hjv h).2 (hrest v hv) bs cs t hsplit ht

end StateMachine
