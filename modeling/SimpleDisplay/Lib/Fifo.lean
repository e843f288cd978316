import Mathlib.Data.List.Basic
import SimpleDisplay.Lib.Keep

/-!
# A queue that a device empties

A driver puts words into a queue of the device, and the device takes them out when it
likes; a word that is put into a full queue is lost.  A driver that has seen room in the
queue before it puts a word loses none: what the device has taken, and what still waits, is
what the driver has put (`Sent`).
-/

namespace Fifo

structure Queue (α : Type) where
  /-- what the device has taken, the oldest first -/
  gone : List α
  waiting : List α

namespace Queue

variable {α : Type} {q q' q'' : Queue α}

def all (q : Queue α) : List α := q.gone ++ q.waiting

/-- The device takes words. -/
def Drains (q q' : Queue α) : Prop := ∃ n, q' = ⟨q.gone ++ q.waiting.take n, q.waiting.drop n⟩

def put (depth : Nat) (q : Queue α) (x : α) : Queue α :=
  if q.waiting.length < depth then { q with waiting := q.waiting ++ [x] } else q

/-- A reset: what waits is thrown away. -/
def flush (q : Queue α) : Queue α := { q with waiting := [] }

theorem Drains.refl (q : Queue α) : q.Drains q := ⟨0, by simp⟩

theorem Drains.all (h : q.Drains q') : q'.all = q.all := by
  obtain ⟨n, rfl⟩ := h
  unfold Queue.all
  rw [List.append_assoc, List.take_append_drop]

theorem Drains.trans (h : q.Drains q') (h' : q'.Drains q'') : q.Drains q'' := by
  obtain ⟨n, rfl⟩ := h
  obtain ⟨m, rfl⟩ := h'
  refine ⟨n + m, ?_⟩
  rw [List.append_assoc, ← List.take_add, List.drop_drop]

theorem Drains.length_le (h : q.Drains q') : q'.waiting.length ≤ q.waiting.length := by
  obtain ⟨n, rfl⟩ := h
  rw [List.length_drop]
  omega

theorem Drains.nil (h : q.Drains q') (hq : q.waiting = []) : q'.waiting = [] := by
  have hle := h.length_le
  rw [hq] at hle
  exact List.length_eq_zero_iff.1 (Nat.le_zero.1 hle)

theorem put_all {depth : Nat} (h : q.waiting.length < depth) (x : α) :
    (q.put depth x).all = q.all ++ [x] := by
  unfold put Queue.all
  rw [if_pos h, List.append_assoc]

/-- What a reset leaves is what had been put up to some word. -/
theorem flush_all (h : q.Drains q') : ∃ n, q'.flush.all = q.gone ++ q.waiting.take n := by
  obtain ⟨n, rfl⟩ := h
  exact ⟨n, List.append_nil _⟩

end Queue

/-! ## Rules for drivers -/

section

variable {σ ε α β : Type} (queue : σ → Queue α)

/-- Everything since `base` is `ws`. -/
def Sent (base ws : List α) (s : σ) : Prop := (queue s).all = base ++ ws

/-- From a queue with `P`, `x` puts nothing; where it returns, the queue is `R`. -/
def Looks (P : Queue α → Prop) (x : ExceptT ε (StateM σ) β) (R : β → Queue α → Prop) : Prop :=
  ∀ s, P (queue s) → (queue s).Drains (queue (x s).2) ∧ ∀ b, (x s).1 = .ok b → R b (queue (x s).2)

/-- Where `x` returns it has put `w`; where it fails it has done nothing. -/
def Enqueues (depth : Nat) (x : ExceptT ε (StateM σ) Unit) (w : α) : Prop :=
  ∀ s, ∃ q, (queue s).Drains q ∧
    (((x s).1 = .ok () → (q.put depth w).Drains (queue (x s).2)) ∧
      ∀ e, (x s).1 = .error e → q.Drains (queue (x s).2))

variable {queue} {base ws : List α}

/-- A state in which some of `ws` has been sent, in order. -/
def Partly (queue : σ → Queue α) (base ws : List α) (s : σ) : Prop :=
  ∃ p, p <+: ws ∧ Sent queue base p s

theorem Sent.later {s t : σ} (h : Sent queue base ws s) (hd : (queue s).Drains (queue t)) :
    Sent queue base ws t := by
  unfold Sent at h ⊢
  rw [hd.all, h]

theorem Sent.partly {s : σ} {all : List α} (h : Sent queue base ws s) (hws : ws <+: all) :
    Partly queue base all s := ⟨ws, hws, h⟩

theorem Looks.pure {P : Queue α → Prop} {R : β → Queue α → Prop} {b : β} (h : ∀ q, P q → R b q) :
    Looks queue P (pure b : ExceptT ε (StateM σ) β) R := by
  intro s hs
  refine ⟨.refl _, ?_⟩
  rintro _ ⟨⟩
  exact h _ hs

theorem Looks.throw {P : Queue α → Prop} {R : β → Queue α → Prop} {e : ε} :
    Looks queue P (throw e : ExceptT ε (StateM σ) β) R := by
  intro s _
  refine ⟨.refl _, ?_⟩
  rintro _ ⟨⟩

theorem Looks.bind {γ : Type} {P : Queue α → Prop} {x : ExceptT ε (StateM σ) β}
    {f : β → ExceptT ε (StateM σ) γ} {Q : β → Queue α → Prop} {R : γ → Queue α → Prop}
    (hx : Looks queue P x Q) (hf : ∀ b, Looks queue (Q b) (f b) R) :
    Looks queue P (x >>= f : ExceptT ε (StateM σ) γ) R := by
  intro s hs
  obtain ⟨hd, hQ⟩ := hx s hs
  have heq : (x >>= f : ExceptT ε (StateM σ) γ) s = ExceptT.bindCont f (x s).1 (x s).2 := rfl
  rw [heq]
  rcases hrun : (x s).1 with e | b
  · refine ⟨hd, ?_⟩
    rintro _ ⟨⟩
  · obtain ⟨hd', hR⟩ := hf b _ (hQ b hrun)
    exact ⟨hd.trans hd', hR⟩

theorem Looks.imp {P P' : Queue α → Prop} {x : ExceptT ε (StateM σ) β} {R R' : β → Queue α → Prop}
    (h : Looks queue P x R) (hP : ∀ q, P' q → P q) (hR : ∀ b q, R b q → R' b q) :
    Looks queue P' x R' := by
  intro s hs
  obtain ⟨hd, hok⟩ := h s (hP _ hs)
  exact ⟨hd, fun b hb => hR b _ (hok b hb)⟩

theorem Looks.ends {P : Queue α → Prop} {x : ExceptT ε (StateM σ) β} {R : β → Queue α → Prop}
    (hx : Looks queue P x R) :
    Ends (fun s => Sent queue base ws s ∧ P (queue s)) x
      (fun b s => Sent queue base ws s ∧ R b (queue s)) fun _ => Sent queue base ws := by
  rintro s ⟨hs, hP⟩
  obtain ⟨hd, hR⟩ := hx s hP
  have hsent := hs.later hd
  refine ⟨fun b t ht => ?_, fun e t ht => ?_⟩
  · rw [ht] at hsent hR
    exact ⟨hsent, hR b rfl⟩
  · rw [ht] at hsent
    exact hsent

/-- A word put after room was seen is not lost. -/
theorem Looks.puts {P : Queue α → Prop} {depth : Nat} {w : α} {room write : ExceptT ε (StateM σ) Unit}
    (hroom : Looks queue P room fun _ q => q.waiting.length < depth)
    (hwrite : Enqueues queue depth write w) :
    Ends (fun s => Sent queue base ws s ∧ P (queue s)) (do room; write)
      (fun _ => Sent queue base (ws ++ [w])) fun _ => Sent queue base ws := by
  apply hroom.ends.bind
  rintro ⟨⟩ s ⟨hs, hlt⟩
  obtain ⟨q, hq, hok, herr⟩ := hwrite s
  have hall : q.all = base ++ ws := by rw [hq.all]; exact hs
  refine ⟨fun u t ht => ?_, fun e t ht => ?_⟩
  · rw [ht] at hok
    unfold Sent
    rw [(hok rfl).all, Queue.put_all (Nat.lt_of_le_of_lt hq.length_le hlt), hall, List.append_assoc]
  · rw [ht] at herr
    unfold Sent
    rw [(herr e rfl).all, hall]

/-- A table is sent entry by entry, and where it fails, up to some word of it. -/
theorem forM_sends {γ : Type} {f : γ → ExceptT ε (StateM σ) PUnit} {words : γ → List α}
    {R : Queue α → Prop} (table : List γ)
    (h : ∀ c ∈ table, ∀ ws, Ends (Sent queue base ws) (f c)
      (fun _ s => Sent queue base (ws ++ words c) s ∧ R (queue s))
      fun _ => Partly queue base (ws ++ words c)) :
    ∀ ws, Ends (fun s => Sent queue base ws s ∧ R (queue s)) (table.forM f)
      (fun _ s => Sent queue base (ws ++ table.flatMap words) s ∧ R (queue s))
      fun _ => Partly queue base (ws ++ table.flatMap words) := by
  induction table with
  | nil =>
    intro ws
    apply Ends.pure
    intro s hs
    rw [List.flatMap_nil, List.append_nil]
    exact hs
  | cons c table ih =>
    intro ws
    have hc := h c List.mem_cons_self ws
    have hrest := ih (fun d hd => h d (List.mem_cons_of_mem c hd)) (ws ++ words c)
    rw [List.append_assoc, ← List.flatMap_cons] at hrest
    refine Ends.bind (hc.imp (fun s hs => hs.1) (fun _ _ hs => hs) ?_) fun _ => hrest
    rintro _ s ⟨p, hp, hs⟩
    refine ⟨p, hp.trans ?_, hs⟩
    rw [List.flatMap_cons, ← List.append_assoc]
    exact List.prefix_append _ _

end

end Fifo
