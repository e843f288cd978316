import Mathlib.Tactic.Common

/-!
# What a computation with failures keeps

`Keeps I x`: the stateful `x` keeps `I`, whether it returns or fails.  `Ends P x Q E`: from
a state with `P` it returns with `Q` or fails with `E`.
-/

/-- From a state with `I`, `x` ends in a state with `I`. -/
def Keeps {σ α : Type} (I : σ → Prop) (x : σ → α × σ) : Prop := ∀ s, I s → I (x s).2

namespace Keeps

variable {σ ε α β : Type} {I : σ → Prop}

/-- A computation in sequence: the rest is not run after a failure. -/
theorem bind {x : ExceptT ε (StateM σ) α} {f : α → ExceptT ε (StateM σ) β} (hx : Keeps I x)
    (hf : ∀ a, Keeps I (f a)) : Keeps I (x >>= f : ExceptT ε (StateM σ) β) := by
  intro s hs
  have hmid := hx s hs
  show I (ExceptT.bindCont f (x s).1 (x s).2).2
  cases (x s).1 with
  | error e => exact hmid
  | ok a => exact hf a _ hmid

end Keeps

section

variable {σ ε α β : Type}

/-- From a state with `P`, `x` returns to one with `Q` or fails in one with `E`. -/
def Ends (P : σ → Prop) (x : ExceptT ε (StateM σ) α) (Q : α → σ → Prop) (E : ε → σ → Prop) :
    Prop :=
  ∀ s, P s → (∀ a t, x s = (.ok a, t) → Q a t) ∧ ∀ e t, x s = (.error e, t) → E e t

namespace Ends

variable {P : σ → Prop} {E : ε → σ → Prop}

theorem pure {a : α} {Q : α → σ → Prop} (h : ∀ s, P s → Q a s) :
    Ends P (pure a : ExceptT ε (StateM σ) α) Q E := by
  intro s hs
  refine ⟨?_, ?_⟩
  · rintro _ _ ⟨⟩
    exact h s hs
  · rintro _ _ ⟨⟩

theorem throw {e : ε} {Q : α → σ → Prop} (h : ∀ s, P s → E e s) :
    Ends P (throw e : ExceptT ε (StateM σ) α) Q E := by
  intro s hs
  refine ⟨?_, ?_⟩
  · rintro _ _ ⟨⟩
  · rintro _ _ ⟨⟩
    exact h s hs

theorem bind {x : ExceptT ε (StateM σ) α} {f : α → ExceptT ε (StateM σ) β} {Q : α → σ → Prop}
    {R : β → σ → Prop} (hx : Ends P x Q E) (hf : ∀ a, Ends (Q a) (f a) R E) :
    Ends P (x >>= f : ExceptT ε (StateM σ) β) R E := by
  intro s hs
  obtain ⟨hok, herr⟩ := hx s hs
  have heq : (x >>= f : ExceptT ε (StateM σ) β) s = ExceptT.bindCont f (x s).1 (x s).2 := rfl
  rw [heq]
  rcases hrun : x s with ⟨e | a, t⟩
  · refine ⟨?_, ?_⟩
    · rintro _ _ ⟨⟩
    · rintro _ _ ⟨⟩
      exact herr e t hrun
  · exact hf a t (hok a t hrun)

theorem ite {c : Prop} [Decidable c] {x y : ExceptT ε (StateM σ) α} {Q : α → σ → Prop}
    (hx : Ends P x Q E) (hy : Ends P y Q E) : Ends P (if c then x else y) Q E := by
  by_cases hc : c
  · rw [if_pos hc]
    exact hx
  · rw [if_neg hc]
    exact hy

theorem imp {x : ExceptT ε (StateM σ) α} {P' : σ → Prop} {Q Q' : α → σ → Prop}
    {E' : ε → σ → Prop} (h : Ends P x Q E) (hP : ∀ s, P' s → P s) (hQ : ∀ a s, Q a s → Q' a s)
    (hE : ∀ e s, E e s → E' e s) : Ends P' x Q' E' := by
  intro s hs
  obtain ⟨hok, herr⟩ := h s (hP s hs)
  exact ⟨fun a t ht => hQ a t (hok a t ht), fun e t ht => hE e t (herr e t ht)⟩

end Ends

theorem bind_ok {x : ExceptT ε (StateM σ) α} {f : α → ExceptT ε (StateM σ) β} {s t : σ} {a : α}
    (h : x s = (.ok a, t)) : (x >>= f : ExceptT ε (StateM σ) β) s = f a t := by
  show ExceptT.bindCont f (x s).1 (x s).2 = _
  rw [h]
  rfl

theorem bind_error {x : ExceptT ε (StateM σ) α} {f : α → ExceptT ε (StateM σ) β} {s t : σ} {e : ε}
    (h : x s = (.error e, t)) : (x >>= f : ExceptT ε (StateM σ) β) s = (.error e, t) := by
  show ExceptT.bindCont f (x s).1 (x s).2 = _
  rw [h]
  rfl

/-- `x` keeps `I`, and fails with an error in `E` only. -/
def Spares (I : σ → Prop) (E : ε → Prop) (x : ExceptT ε (StateM σ) α) : Prop :=
  Ends I x (fun _ => I) fun e s => E e ∧ I s

namespace Spares

variable {I : σ → Prop} {E : ε → Prop}

theorem pure (a : α) : Spares I E (pure a : ExceptT ε (StateM σ) α) := Ends.pure fun _ hs => hs

theorem throw {e : ε} (he : E e) : Spares I E (throw e : ExceptT ε (StateM σ) α) :=
  Ends.throw fun _ hs => ⟨he, hs⟩

theorem bind {x : ExceptT ε (StateM σ) α} {f : α → ExceptT ε (StateM σ) β} (hx : Spares I E x)
    (hf : ∀ a, Spares I E (f a)) : Spares I E (x >>= f : ExceptT ε (StateM σ) β) := Ends.bind hx hf

theorem ite {c : Prop} [Decidable c] {x y : ExceptT ε (StateM σ) α} (hx : Spares I E x)
    (hy : Spares I E y) : Spares I E (if c then x else y) := Ends.ite hx hy

theorem forM {γ : Type} {f : γ → ExceptT ε (StateM σ) PUnit} (l : List γ)
    (h : ∀ c ∈ l, Spares I E (f c)) : Spares I E (l.forM f) := by
  induction l with
  | nil => exact pure ()
  | cons c l ih =>
    exact bind (h c List.mem_cons_self) fun _ => ih fun d hd => h d (List.mem_cons_of_mem c hd)

theorem keeps {x : ExceptT ε (StateM σ) α} (h : Spares I E x) : Keeps I x := by
  intro s hs
  obtain ⟨hok, herr⟩ := h s hs
  rcases hrun : x s with ⟨e | a, t⟩
  · exact (herr e t hrun).2
  · exact hok a t hrun

/-- An error of something that spares. -/
theorem error {x : ExceptT ε (StateM σ) α} (h : Spares I E x) {s t : σ} {e : ε} (hs : I s)
    (hrun : x s = (.error e, t)) : E e := ((h s hs).2 e t hrun).1

end Spares

end
