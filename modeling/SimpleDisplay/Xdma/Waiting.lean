import SimpleDisplay.Xdma.Truth

/-!
# Waiting for a transfer

Two facts for the waiter of a transfer, on an engine without `eop_flush`.  An engine at work
can always be served until its list is empty.  A wait that ends while the card is still at
work on the first transfer counts that transfer as done: `engine_service` takes the threshold
that it is called with for the number of descriptors the card has completed.
-/

namespace FpgaDrm.Xdma

open StateMachine Word

/-- A chain, and whether it was done. -/
def CardRun.verdict (r : CardRun) : Nat × Bool := (r.first, r.ok)

def Xfer.verdict (x : Xfer) : Nat × Bool := (x.descBus, x.state = .completed)

namespace Served

variable {s t : Served} {past : List CardRun}

/-! ## A wait that ends early -/

theorem wbCountMask_and {n : Nat} (h : n ≤ 0x800) : n &&& wbCountMask = n := by
  rw [show wbCountMask = 2 ^ 24 - 1 from rfl, Nat.and_two_pow_sub_one_eq_mod]
  omega

theorem wbErrMask_and {n : Nat} (h : n ≤ 0x800) : n &&& wbErrMask = 0 := by
  rw [show wbErrMask = 2 ^ 31 from rfl, Nat.and_two_pow, Nat.testBit_lt_two_pow (by omega)]
  rfl

/-- A count handed to the service is believed. -/
theorem engineService_believes {x : Xfer} {l : List Xfer} (hx : Waits x)
    (heop : s.eopFlush = false) (hrun : s.running = true) (hlist : s.transferList = x :: l)
    (hdeq : s.descDequeued = 0) (hstatus : s.status &&& s.dir.errMask = 0) :
    (s.engineService x.descNum).1 = 0 ∧ (s.engineService x.descNum).2.left =
      s.left ++ [{ x with state := .completed, descCmpl := x.descNum }] := by
  have hle := hx.le
  have hpos := hx.pos
  unfold engineService
  rw [if_neg (by rw [hrun]; decide)]
  dsimp only
  rw [wbCountMask_and hle, wbErrMask_and hle]
  refine ⟨rfl, ?_⟩
  have hstopped : s.serviceStatus x.descNum 0 = s.stop := by
    have hread : (if x.descNum = 0 ∨ (0 : Nat) ≠ 0 then s.statusRead true else s) = s :=
      if_neg (by omega)
    unfold serviceStatus
    dsimp only
    rw [hread, if_pos (.inr ⟨by rw [heop]; rfl, by omega⟩)]
  rw [hstopped, if_neg (by omega)]
  unfold serviceDescs
  have hcut : u32 (x.descNum - s.stop.descDequeued) = x.descNum := by
    show u32 (x.descNum - s.descDequeued) = _
    rw [hdeq, Int.sub_zero, u32_natCast]
    omega
  have hskip : serviceTransferList s.stop.transferList x.descNum s.stop = (x.descNum, s.stop) := by
    rw [show s.stop.transferList = x :: l from hlist]
    unfold serviceTransferList
    rw [if_neg (by simp)]
  have hfinal : (s.stop.serviceFinalTransfer x.descNum).left =
      s.left ++ [{ x with state := .completed, descCmpl := x.descNum }] := by
    unfold serviceFinalTransfer
    rw [show s.stop.transferList = x :: l from hlist]
    dsimp only
    rw [if_neg (by rw [show s.stop.status &&& s.stop.dir.errMask = 0 from hstatus]; simp),
      if_neg (by omega)]
    rfl
  rw [if_neg (by omega), hcut]
  dsimp only
  rw [hskip]
  dsimp only
  split
  · rw [(resume_kept _).2.1, hfinal]
  · exact hfinal

/-- **A wait that ends early counts as a transfer done**, while the card is still at work on
it. -/
theorem early_waiter_told_done {dir : Direction} {events : List Event}
    (hm : Meets step Honest events (init dir false))
    (h : run step events (init dir false) = some s) (hrun : s.running = true)
    (hbusy : s.card.busy = true) (dumped : Bool) :
    ∃ x ∈ s.transferList.head?, s.card.first = x.descBus ∧ s.card.count < x.descNum ∧
      (s.waitOver x dumped).1 = .ok true := by
  obtain ⟨past, hs⟩ := run_truthful hm h
  obtain ⟨hin, -⟩ := run_orderly h (init_inOrder dir false)
  cases hs.phase with
  | idle hidle => simp_all
  | ended _ _ _ _ _ _ _ hidle => simp_all
  | busy x l _ hlist hfirst hdeq _ hcount _ _ _ hstatus =>
    refine ⟨x, by simp [hlist], hfirst, hcount, ?_⟩
    have hx := hs.chains.waits x (by rw [hlist]; exact List.mem_cons_self)
    obtain ⟨hret, hleft⟩ := engineService_believes hx hs.eopFlush hrun hlist hdeq hstatus
    have hfresh : s.left.find? (·.id = x.id) = none := by
      rw [List.find?_eq_none]
      intro y hy hid
      have hnodup := hin.ids ▸ List.nodup_range (n := s.queued)
      rw [hlist, List.map_append, List.nodup_append] at hnodup
      exact hnodup.2.2 y.id (List.mem_map_of_mem hy) x.id (by simp) (by simpa using hid)
    unfold waitOver
    dsimp only
    rw [hx.cmplTh, hret, if_neg (by decide), hleft, List.find?_append, hfresh]
    simp

theorem early_waiter_told_done_one : ∃ s, run step [.queue oneDesc] (init .toDevice false) = some s ∧
    ∃ x ∈ s.transferList.head?, s.card.first = x.descBus ∧ s.card.count < x.descNum ∧
      (s.waitOver x true).1 = .ok true :=
  ⟨_, rfl, early_waiter_told_done queue_honest rfl rfl rfl true⟩

/-! ## Serving to the end -/

theorem agrees_verdicts {xs : List Xfer} {rs : List CardRun} (h : List.Forall₂ Agrees xs rs) :
    xs.map Xfer.verdict = rs.map CardRun.verdict := by
  induction h with
  | nil => rfl
  | cons hone _ ih =>
    rw [List.map_cons, List.map_cons, ih]
    congr 1
    unfold Xfer.verdict CardRun.verdict
    rw [hone.first]
    congr 1
    exact Bool.eq_iff_iff.2 (by simpa using hone.completed)

/-- The interrupt is masked just while the work item is queued. -/
def Masked (s : Served) : Prop := s.irqEnabled = !s.workQueued

/-- The card when it has done what was left of a chain of `n` descriptors. -/
def finished (n : Nat) (c : Card) : Card :=
  { c with
    count := n
    busy := false
    latched := c.latched ||| (statDescStopped ||| statDescCompleted)
    ended := c.ended ++ [⟨c.first, n, true⟩] }

theorem card_finishes {x : Xfer} (n : Nat) (h : Truthful s past) (hx : x ∈ s.transferList)
    (hat : s.card.first = x.descBus) (hbusy : s.card.busy = true)
    (hn : s.card.count + n + 1 = x.descNum) :
    ∃ events, Meets step Honest events s ∧
      run step events s = some { s with card := finished x.descNum s.card } ∧
      Truthful { s with card := finished x.descNum s.card } past := by
  induction n generalizing s with
  | zero =>
    have hlast : s.card.count + 1 = x.descNum := by omega
    have hnext : Card.Next s.dir.errMask x.descNum s.card _ := .finish s.card hbusy hlast
    rw [hlast] at hnext
    exact ⟨[.card (finished x.descNum s.card)], ⟨⟨x, hx, hat, hnext⟩, fun _ _ => trivial⟩,
      run_cons_some.2 ⟨_, step_some.2 ⟨h.chains.live, rfl⟩, rfl⟩, card_truthful h hx hat hnext⟩
  | succ n ih =>
    have hnext : Card.Next s.dir.errMask x.descNum s.card _ := .advance s.card hbusy (by omega)
    obtain ⟨events, hmeets, hrun, htruth⟩ :=
      ih (card_truthful h hx hat hnext) hx hat hbusy (by dsimp only; omega)
    have hstep : step (.card { s.card with count := s.card.count + 1 }) s = some _ :=
      step_some.2 ⟨h.chains.live, rfl⟩
    refine ⟨.card _ :: events, ⟨⟨x, hx, hat, hnext⟩, fun t ht => ?_⟩,
      run_cons_some.2 ⟨_, hstep, hrun⟩, htruth⟩
    obtain rfl := Option.some.inj (hstep.symm.trans ht)
    exact hmeets

/-- A cleared status has no work left to do. -/
theorem Truthful.workQueued_of_clear (h : Truthful s past) (hclear : s.card.latched = 0) :
    s.workQueued = false := by
  cases h.phase with
  | idle _ _ _ hwork => exact hwork
  | busy _ _ _ _ _ _ _ _ _ hwork => exact hwork
  | ended _ _ _ _ _ _ _ _ _ hlatched => exact absurd hclear hlatched

/-- After a run that was done, the engine is at work on what is left. -/
theorem Truthful.at_work {r : CardRun} (h : Truthful s (past ++ [r]))
    (hclear : s.card.latched = 0) (hok : r.ok = true) (hlist : s.transferList ≠ []) :
    s.running = true ∧ s.card.busy = true := by
  cases h.phase with
  | idle _ _ _ _ _ hstalled =>
    obtain ⟨x, l, hcons⟩ := List.exists_cons_of_ne_nil hlist
    have hlast := hstalled x (by rw [hcons]; rfl)
    rw [Stalled, List.getLast?_concat, Option.some.injEq] at hlast
    rw [hlast] at hok
    cases hok
  | busy _ _ hrun _ _ _ hbusy => exact ⟨hrun, hbusy⟩
  | ended _ _ _ _ _ _ _ _ _ hlatched => exact absurd hclear hlatched

theorem masked_queue (x : Xfer) (h : Masked s) : Masked (s.transferQueue x).2 := by
  have hstart : ∀ t : Served, Masked t → Masked t.start := by
    intro t ht
    unfold start
    split <;> exact ht
  unfold transferQueue
  split
  · exact h
  split
  · exact h
  dsimp only
  split
  · exact hstart _ h
  · exact h

/-- The first transfer can be served. -/
theorem first_leaves {x : Xfer} {l : List Xfer} (h : Truthful s past) (hbusy : s.card.busy = true)
    (hirq : s.irqEnabled = true) (hlist : s.transferList = x :: l) :
    ∃ events t, Meets step Honest events s ∧ run step events s = some t ∧
      Truthful t (s.card.ended ++ [⟨x.descBus, x.descNum, true⟩]) ∧ t.card.latched = 0 ∧
      t.irqEnabled = true ∧ t.transferList = l ∧
      t.left.map Xfer.verdict = s.left.map Xfer.verdict ++ [(x.descBus, true)] := by
  cases h.phase with
  | idle _ hidle => simp_all
  | ended _ _ _ _ _ _ _ hidle => simp_all
  | busy x' l' _ hlist' hfirst hdeq _ hcount hlatched hwork hended hstatus =>
    obtain ⟨rfl, rfl⟩ := List.cons.inj (hlist'.symm.trans hlist)
    have hin : x' ∈ s.transferList := by rw [hlist]; exact List.mem_cons_self
    have hx := h.chains.waits x' hin
    obtain ⟨events, hmeets, hrun, htruth⟩ :=
      card_finishes (x'.descNum - s.card.count - 1) h hin hfirst hbusy (by omega)
    set u : Served := { s with card := finished x'.descNum s.card } with hu
    have hirq' : u.card.latched ≠ 0 := by
      show s.card.latched ||| _ ≠ 0
      rw [hlatched]
      decide
    have htruth' := isr_truthful htruth hirq'
    obtain ⟨y, m, hlist'', hdone, hclear, htail⟩ := serviceWork_truthful htruth' rfl
    obtain ⟨-, rfl⟩ := List.cons.inj (hlist.symm.trans hlist'')
    have hruns : u.card.ended = s.card.ended ++ [⟨x'.descBus, x'.descNum, true⟩] := by
      show s.card.ended ++ [⟨s.card.first, x'.descNum, true⟩] = _
      rw [hfirst]
    have hserve : Meets step Honest [.isr, .work] u :=
      ⟨hirq', fun _ _ => ⟨trivial, fun _ _ => trivial⟩⟩
    refine ⟨events ++ [.isr, .work], _, (Meets.append hrun).2 ⟨hmeets, hserve⟩,
      run_append_some.2 ⟨u, hrun, ?_⟩, hruns ▸ hdone, hclear, ?_, htail ?_, ?_⟩
    · have hone : step .isr u = some { u with irqEnabled := false, workQueued := true } :=
        step_some.2 ⟨htruth.chains.live, if_pos hirq⟩
      exact run_cons_some.2 ⟨_, hone, run_cons_some.2 ⟨_, step_some.2 ⟨htruth'.chains.live, rfl⟩, rfl⟩⟩
    · rw [serviceWork_eq]
    · show x'.descNum ≠ 0
      have hpos := hx.pos
      omega
    · have hmoved : (⟨x'.descBus, x'.descNum, true⟩ : CardRun).moved = true := by
        have hpos := hx.pos
        simp only [CardRun.moved, decide_eq_true_eq]
        omega
      rw [agrees_verdicts hdone.verdicts, agrees_verdicts h.verdicts]
      show ((u.card.ended.filter (·.moved)).map CardRun.verdict) = _
      rw [hruns, hended, List.filter_append, List.map_append]
      simp [hmoved, CardRun.verdict]

/-- An engine at work has its interrupt on. -/
theorem run_masked {dir : Direction} {events : List Event}
    (hm : Meets step Honest events (init dir false))
    (h : run step events (init dir false) = some s) :
    (∃ past, Truthful s past) ∧ Masked s := by
  refine run_invariant_of_meets (I := fun u => (∃ past, Truthful u past) ∧ Masked u) ?_
    ⟨⟨[], init_truthful dir⟩, rfl⟩ hm h
  rintro e u v ⟨⟨past, hu⟩, hmask⟩ he hstep
  refine ⟨step_truthful hu he hstep, ?_⟩
  obtain ⟨-, hstep⟩ := step_some.1 hstep
  cases e with
  | queue x =>
    obtain ⟨-, hstep⟩ := Option.ite_none_left_eq_some.1 hstep
    obtain rfl := Option.some.inj hstep
    exact masked_queue x hmask
  | card c =>
    obtain rfl := Option.some.inj hstep
    exact hmask
  | isr =>
    obtain ⟨-, hstep⟩ := Option.ite_none_right_eq_some.1 hstep
    obtain rfl := Option.some.inj hstep
    rfl
  | work =>
    obtain ⟨hwork, hstep⟩ := Option.ite_none_right_eq_some.1 hstep
    obtain rfl := Option.some.inj hstep
    obtain ⟨x, l, -, htruth, hclear, -⟩ := serviceWork_truthful hu hwork
    show _ = !_
    rw [htruth.workQueued_of_clear hclear, serviceWork_eq]
    rfl
  | requestFree req =>
    obtain rfl := Option.some.inj hstep
    exact hmask
  | poll _ | waitOver _ _ | completionOver _ _ | offline => exact he.elim

/-- **An engine at work can be served to the end.** -/
theorem drains {dir : Direction} {events : List Event}
    (hm : Meets step Honest events (init dir false))
    (h : run step events (init dir false) = some s) (hrun : s.running = true)
    (hbusy : s.card.busy = true) :
    ∃ events' t, Meets step Honest events' s ∧ run step events' s = some t ∧
      t.transferList = [] ∧ t.left.map Xfer.verdict =
        s.left.map Xfer.verdict ++ s.transferList.map fun x => (x.descBus, true) := by
  obtain ⟨⟨past, hs⟩, hmask⟩ := run_masked hm h
  have hwork : s.workQueued = false := by
    cases hs.phase with
    | idle hidle => simp_all
    | ended _ _ _ _ _ _ _ hidle => simp_all
    | busy _ _ _ _ _ _ _ _ _ hwork => exact hwork
  have hirq : s.irqEnabled = true := by
    rw [hmask, hwork]
    rfl
  clear hm h hmask hwork
  induction hlist : s.transferList generalizing s past with
  | nil => exact ⟨[], s, trivial, rfl, hlist, by simp⟩
  | cons x l ih =>
    obtain ⟨events₁, u, hm₁, hrun₁, htruth, hclear, hirq', hlist', hleft⟩ :=
      first_leaves hs hbusy hirq hlist
    by_cases hl : l = []
    · exact ⟨events₁, u, hm₁, hrun₁, by rw [hlist', hl], by rw [hleft, hl]; rfl⟩
    · -- the next transfer is at work
      obtain ⟨hrun', hbusy'⟩ := htruth.at_work hclear rfl (by rw [hlist']; exact hl)
      obtain ⟨events₂, t, hm₂, hrun₂, hempty, hleft'⟩ := ih hrun' hbusy' _ htruth hirq' hlist'
      refine ⟨events₁ ++ events₂, t, (Meets.append hrun₁).2 ⟨hm₁, hm₂⟩,
        run_append_some.2 ⟨u, hrun₁, hrun₂⟩, hempty, ?_⟩
      rw [hleft', hleft, List.append_assoc]
      rfl

theorem drains_one : ∃ s, run step [.queue oneDesc] (init .toDevice false) = some s ∧
    ∃ events' t, Meets step Honest events' s ∧ run step events' s = some t ∧
      t.transferList = [] ∧ t.left.map Xfer.verdict =
        s.left.map Xfer.verdict ++ s.transferList.map fun x => (x.descBus, true) :=
  ⟨_, rfl, drains queue_honest rfl rfl rfl⟩

end Served

end FpgaDrm.Xdma
