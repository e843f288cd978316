import SimpleDisplay.Drm.ActiveMode

/-!
# The end of `fpga_drm_stop_uploads`

A completion that is pending is queued for `dma_complete_work`, or a call that set it is
about to queue it (`Signalled`); and once the timer is disarmed its handler has returned.

That no request is outstanding after the CRTC disable rests on the last flush: what is
pending when it begins must be queued for `dma_complete_work` (`Drained`).  The timeout
handler is waited for before that flush.  The callback is not: one that has set
`dma_completion_pending` and not called `schedule_work` lets the flush return at once.
-/

namespace FpgaDrm

open Work StateMachine

/-! ## Pending completions -/

/-- A run of `dma_complete_work` that has not cleared the flags. -/
def CompletePc.looks : CompletePc → Bool
  | .finished _ _ => false
  | _ => true

/-- The wait for idle is over, and a completion was forced if need be. -/
def StopPc.forcedPast : StopPc → Bool
  | .cancelUpload | .waitIdle | .force => false
  | _ => true

/-- The timer is disarmed and its handler waited for. -/
def StopPc.timerDone : StopPc → Bool
  | .beginLastFlush | .lastFlush _ | .clear => true
  | _ => false

namespace Sys

/-- `dma_complete_work` will still look at the flags. -/
def CompleteLooks (s : Sys) : Prop := ∃ pc, s.complete.running = some pc ∧ pc.looks = true

def callbackMarked (s : Sys) : Bool := s.callback.any fun h => decide (h.2 = .marked)

def timeoutMarked (s : Sys) : Bool := s.timeout.running.any fun h => decide (h.2 = .marked)

def stopForced (s : Sys) : Bool :=
  match s.commit with
  | .stop _ .forced => true
  | _ => false

end Sys

/-- A pending completion is queued for `dma_complete_work`, or about to be. -/
structure Signalled (s : Sys) : Prop where
  scheduled : s.dmaCompletionPending = true → s.complete.queued = true ∨ s.CompleteLooks ∨
    s.callbackMarked = true ∨ s.timeoutMarked = true ∨ s.stopForced = true
  stopped : ∀ caller pc, s.commit = .stop caller pc → pc.forcedPast = true →
    s.dma.Idle ∨ s.dmaCompletionPending = true
  disarmed : ∀ caller pc, s.commit = .stop caller pc → pc.timerDone = true →
    s.timeout.running = none ∧ s.timeout.pending = none

namespace Signalled

open Sys

variable {p : Params} {s t : Sys}

theorem init : Signalled init where
  scheduled h := by cases h
  stopped _ _ h := by cases h
  disarmed _ _ h := by cases h

/-- With both flags down DMA is idle, whoever holds the lock. -/
theorem idle_of_flags (ho : Owned s) (hin : s.dmaInflight = false) : s.dma.Idle := by
  obtain h | h | h | h := ho.phase
  · exact h
  all_goals
    have hup : s.dmaInflight = true := h.inflight
    rw [hin] at hup
    cases hup

theorem not_idle_of_takes (ht : s.takesCompletion = true) : ¬ s.dma.Idle := by
  intro h
  have hin : s.dmaInflight = false := h.inflight
  have hup : s.dmaInflight = true := (Bool.and_eq_true_iff.1 ht).1
  rw [hin] at hup
  cases hup

/-- Once the pipe is halted, idle DMA stays idle. -/
theorem idle_stays (hm : ModeOk p s) (hh : s.Halted) (hd : s.dma.Idle) (h : Move p s t) :
    t.dma.Idle := by
  cases h with
  | upload h =>
    cases h with
    | start hr hq => exact hd
    | captureNone hr hc => exact hd
    | capture hr hp he => exact hd
    | inflight l mode hr => exact absurd hh (hm.not_halted hr (by simp))
    | accept l mode hr hcb => exact absurd hh (hm.not_halted hr (by simp))
    | prepare l hr => exact absurd hh (hm.not_halted hr (by simp))
    | refuse l mode hr => exact absurd hh (hm.not_halted hr (by simp))
    | rollBack l hr => exact absurd hh (hm.not_halted hr (by simp))
    | _ => exact hd
  | complete h =>
    cases h with
    | release err n hr hf =>
      have hnil : s.reqs = [] := hd.reqs
      exact ⟨hd.inflight, hd.pending, by simp [dma, releaseRequest, hnil]⟩
    | finish mode ret hr => exact ⟨rfl, rfl, hd.reqs⟩
    | _ => exact hd
  | signal h =>
    cases h with
    | service r st hcb hr hs =>
      have hnil : s.reqs = [] := hd.reqs
      rw [hnil] at hr
      cases hr
    | callback n hcb ht => exact absurd hd (not_idle_of_takes ht)
    | timeout n hr ht => exact absurd hd (not_idle_of_takes ht)
    | _ => exact hd
  | commit h =>
    cases h with
    | stop caller pc hc ht =>
      cases ht with
      | force ht => exact absurd hd (not_idle_of_takes ht)
      | _ => exact hd
    | _ => exact hd

/-- A pending completion stays pending until DMA is idle. -/
theorem pending_stays (ho : Owned s) (hm : ModeOk p s) (hh : s.Halted)
    (hd : s.dma.Idle ∨ s.dmaCompletionPending = true) (h : Move p s t) :
    t.dma.Idle ∨ t.dmaCompletionPending = true := by
  obtain hd | hp := hd
  · exact .inl (idle_stays hm hh hd h)
  cases h with
  | upload h =>
    cases h with
    | inflight l mode hr => exact absurd hh (hm.not_halted hr (by simp))
    | rollBack l hr => exact absurd hh (hm.not_halted hr (by simp))
    | _ => exact .inr hp
  | complete h =>
    cases h with
    | finish mode ret hr =>
      have hrel : s.dma.Released := ho.complete _ hr rfl
      exact .inl ⟨rfl, rfl, hrel.reqs⟩
    | _ => exact .inr hp
  | signal h =>
    cases h with
    | callback n hcb ht => exact .inr rfl
    | timeout n hr ht => exact .inr rfl
    | _ => exact .inr hp
  | commit h =>
    cases h with
    | stop caller pc hc ht =>
      cases ht with
      | force ht => exact .inr rfl
      | _ => exact .inr hp
    | _ => exact .inr hp

/-- Past its first wait, `fpga_drm_stop_uploads` runs with the pipe halted. -/
theorem halted_of_stop (hm : ModeOk p s) {caller : StopCaller} {pc : StopPc}
    (hc : s.commit = .stop caller pc) (hne : pc ≠ .cancelUpload) : s.Halted := by
  have htail := hm.tail
  rw [hc] at htail
  refine ⟨?_, ?_⟩
  · cases caller <;> exact htail.1
  · rw [hc]
    cases caller <;> cases pc <;> first | rfl | exact absurd rfl hne

/-- Where `dma_complete_work` is left alone, a pending completion is on its way as before if
no handler has given up. -/
theorem scheduled_imp (hi : Signalled s) (hp : s.dmaCompletionPending = true)
    (hc : t.complete = s.complete) (hcb : s.callbackMarked = true → t.callbackMarked = true)
    (hto : s.timeoutMarked = true → t.timeoutMarked = true)
    (hs : s.stopForced = true → t.stopForced = true) :
    t.complete.queued = true ∨ t.CompleteLooks ∨ t.callbackMarked = true ∨ t.timeoutMarked = true ∨
      t.stopForced = true := by
  unfold CompleteLooks
  rw [hc]
  obtain h | h | h | h | h := hi.scheduled hp
  · exact .inl h
  · exact .inr (.inl h)
  · exact .inr (.inr (.inl (hcb h)))
  · exact .inr (.inr (.inr (.inl (hto h))))
  · exact .inr (.inr (.inr (.inr (hs h))))

/-- The run of `dma_complete_work` that was to look goes on to look. -/
theorem scheduled_looks {pc pc' : CompletePc} (hr : s.complete.running = some pc)
    (hl : pc'.looks = true) (ht : t.complete = s.complete.goto pc') : t.CompleteLooks :=
  ⟨pc', by rw [ht]; exact WorkItem.goto_running_of_some hr, hl⟩

/-- No handler, or one that has only begun, owes no call of `schedule_work`. -/
theorem not_callbackMarked {n : Option (Nat × HandlerPc)} (hcb : s.callback = n)
    (hn : n.any (fun h => decide (h.2 = .marked)) = false) : ¬ s.callbackMarked = true := by
  unfold callbackMarked
  rw [hcb, hn]
  exact Bool.false_ne_true

theorem not_timeoutMarked {n : Option (Nat × HandlerPc)} (hr : s.timeout.running = n)
    (hn : n.any (fun h => decide (h.2 = .marked)) = false) : ¬ s.timeoutMarked = true := by
  unfold timeoutMarked
  rw [hr, hn]
  exact Bool.false_ne_true

/-- The forced completion is the only call that the tail leaves open. -/
theorem not_stopForced {pc : CommitPc} (hc : s.commit = pc) (hne : ∀ caller, pc ≠ .stop caller .forced) :
    ¬ s.stopForced = true := by
  unfold stopForced
  rw [hc]
  split
  · exact absurd rfl (hne _)
  · exact Bool.false_ne_true

theorem scheduled_completeMove (ho : Owned s) (h : CompleteMove s t)
    (hp : t.dmaCompletionPending = true) : t.complete.queued = true ∨ t.CompleteLooks := by
  cases h with
  | start hr hq => exact .inr ⟨.entry, rfl, rfl⟩
  | lock hr hu => exact .inr (scheduled_looks hr rfl rfl)
  | nothing hr hpend =>
    have hp : s.dmaCompletionPending = true := hp
    rw [hpend] at hp
    cases hp
  | found hr hpend => exact .inr (scheduled_looks hr rfl rfl)
  | cancel err hr => exact .inr (scheduled_looks hr rfl rfl)
  | noRequest err hr hf => exact .inr (scheduled_looks hr rfl rfl)
  | release err n hr hf => exact .inr (scheduled_looks hr rfl rfl)
  | compare err len ret hr hret => exact .inr (scheduled_looks hr rfl rfl)
  | finish mode ret hr => cases hp
  | count ret up hr =>
    have hidle : s.dma.Idle := ho.complete _ hr rfl
    have hp : s.dma.pending = true := hp
    rw [hidle.pending] at hp
    cases hp

theorem scheduled_move (ho : Owned s) (hi : Signalled s) (h : Move p s t)
    (hp : t.dmaCompletionPending = true) :
    t.complete.queued = true ∨ t.CompleteLooks ∨ t.callbackMarked = true ∨ t.timeoutMarked = true ∨
      t.stopForced = true := by
  cases h with
  | upload h =>
    cases h with
    | inflight l mode hr => cases hp
    | rollBack l hr => cases hp
    | _ => exact hi.scheduled_imp hp rfl id id id
  | complete h =>
    obtain h | h := scheduled_completeMove ho h hp
    · exact .inl h
    · exact .inr (.inl h)
  | signal h =>
    cases h with
    | service r st hcb hr hs =>
      exact hi.scheduled_imp hp rfl (fun h => absurd h (not_callbackMarked hcb rfl)) id id
    | callback n hcb ht => exact .inr (.inr (.inl (by simp [callbackMarked])))
    | callbackDrop n hcb ht =>
      exact hi.scheduled_imp hp rfl (fun h => absurd h (not_callbackMarked hcb rfl)) id id
    | callbackSchedule n hcb => exact .inl (WorkItem.schedule_queued _)
    | timeoutBegin n hpend hr =>
      exact hi.scheduled_imp hp rfl id (fun h => absurd h (not_timeoutMarked hr rfl)) id
    | timeout n hr ht => exact .inr (.inr (.inr (.inl (by simp [timeoutMarked]))))
    | timeoutDrop n hr ht =>
      exact hi.scheduled_imp hp rfl id (fun h => absurd h (not_timeoutMarked hr rfl)) id
    | timeoutSchedule n hr => exact .inl (WorkItem.schedule_queued _)
  | commit h =>
    cases h with
    | stop caller pc hc ht =>
      cases ht with
      | force ht => exact .inr (.inr (.inr (.inr rfl)))
      | schedule => exact .inl (WorkItem.schedule_queued _)
      | _ => exact hi.scheduled_imp hp rfl id id (fun h => absurd h (not_stopForced hc (by simp)))
    | _ => exact hi.scheduled_imp hp rfl id id (fun h => absurd h (not_stopForced ‹_› (by simp)))

/-- Only the tail moves the tail. -/
theorem commit_of_move (h : Move p s t) : t.commit = s.commit ∨ CommitMove p s t := by
  cases h with
  | upload h => cases h <;> exact .inl rfl
  | complete h => cases h <;> exact .inl rfl
  | signal h => cases h <;> exact .inl rfl
  | commit h => exact .inr h

/-- A tail inside `fpga_drm_stop_uploads` has just entered it, or went on inside it. -/
theorem stop_of_move (h : CommitMove p s t) {caller : StopCaller} {pc : StopPc}
    (hc : t.commit = .stop caller pc) :
    pc = .cancelUpload ∨ ∃ pc', s.commit = .stop caller pc' ∧ StopMove s caller pc' t := by
  have hite : ∀ (b : Bool) (c : Commit), (if b then CommitPc.enable c else .done c) ≠ .stop caller pc := by
    intro b c
    cases b <;> simp
  have hite' : ∀ (b : Bool) (c : Commit), (if b then CommitPc.disable c else .flush c) ≠ .stop caller pc := by
    intro b c
    cases b <;> simp
  cases h with
  | stop caller' pc' hc' ht =>
    have hsame : caller' = caller := by
      cases ht with
      | clear b => cases caller' <;> cases hc
      | _ => cases hc; rfl
    subst hsame
    exact .inr ⟨pc', hc', ht⟩
  | disable c hc' => cases hc; exact .inl rfl
  | enable c mode hc' hm' => cases hc; exact .inl rfl
  | remove hc' ha => cases hc; exact .inl rfl
  | queue c hc' => exact absurd hc (hite _ c)
  | unchanged c hc' => exact absurd hc (hite _ c)
  | begin c hc' hrem ha => exact absurd hc (hite' _ c)
  | _ => cases hc

theorem stopped_move (ho : Owned s) (hm : ModeOk p s) (hi : Signalled s) (h : Move p s t)
    {caller : StopCaller} {pc : StopPc} (hc : t.commit = .stop caller pc)
    (hf : pc.forcedPast = true) : t.dma.Idle ∨ t.dmaCompletionPending = true := by
  have hkeep : ∀ {pc'}, s.commit = .stop caller pc' → pc'.forcedPast = true →
      t.dma.Idle ∨ t.dmaCompletionPending = true := by
    intro pc' hc' hf'
    have hne : pc' ≠ .cancelUpload := by
      rintro rfl
      cases hf'
    exact pending_stays ho hm (halted_of_stop hm hc' hne) (hi.stopped caller pc' hc' hf') h
  obtain heq | hmove := commit_of_move h
  · exact hkeep (heq ▸ hc) hf
  obtain rfl | ⟨pc', hc', ht⟩ := stop_of_move hmove hc
  · cases hf
  cases ht with
  | cancelUpload hu => cases hc; cases hf
  | idle hidle =>
    have hbusy : s.dmaBusy = false := by simpa [dmaIdle] using hidle
    have hd : s.dma.Idle := idle_of_flags ho (Bool.or_eq_false_iff.1 hbusy).1
    exact .inl hd
  | waitOut hidle => cases hc; cases hf
  | force ht => exact .inr rfl
  | forceDrop ht =>
    by_cases hin : s.dmaInflight = true
    · refine .inr ?_
      simpa [takesCompletion, hin] using ht
    · have hd : s.dma.Idle := idle_of_flags ho (by simpa using hin)
      exact .inl hd
  | clear b => cases caller <;> cases hc
  | _ => exact hkeep hc' rfl

theorem disarmed_move (hm : ModeOk p s) (hi : Signalled s) (h : Move p s t)
    {caller : StopCaller} {pc : StopPc} (hc : t.commit = .stop caller pc)
    (hf : pc.timerDone = true) : t.timeout.running = none ∧ t.timeout.pending = none := by
  obtain heq | hmove := commit_of_move h
  · have hc' : s.commit = .stop caller pc := heq ▸ hc
    obtain ⟨h1, h2⟩ := hi.disarmed caller pc hc' hf
    have hne : pc ≠ .cancelUpload := by
      rintro rfl
      cases hf
    have hh := halted_of_stop hm hc' hne
    cases h with
    | upload h =>
      cases h with
      | arm l hr => exact absurd hh (hm.not_halted hr (by simp))
      | _ => exact ⟨h1, h2⟩
    | complete h =>
      cases h with
      | cancel err hr => exact ⟨h1, rfl⟩
      | _ => exact ⟨h1, h2⟩
    | signal h =>
      cases h with
      | timeoutBegin n hpend hr => rw [h2] at hpend; cases hpend
      | timeout n hr ht => rw [h1] at hr; cases hr
      | timeoutDrop n hr ht => rw [h1] at hr; cases hr
      | timeoutSchedule n hr => rw [h1] at hr; cases hr
      | _ => exact ⟨h1, h2⟩
    | commit h =>
      cases h with
      | stop caller pc hc ht =>
        cases ht with
        | cancelTimeout hr => exact ⟨hr, rfl⟩
        | _ => exact ⟨h1, h2⟩
      | _ => exact ⟨h1, h2⟩
  · obtain rfl | ⟨pc', hc', ht⟩ := stop_of_move hmove hc
    · cases hf
    cases ht with
    | cancelTimeout hr => exact ⟨hr, rfl⟩
    | beginLastFlush => exact hi.disarmed _ _ hc' rfl
    | lastFlushed n hfl => exact hi.disarmed _ _ hc' rfl
    | clear b => cases caller <;> cases hc
    | _ => cases hc; cases hf

theorem move (ho : Owned s) (hm : ModeOk p s) (hi : Signalled s) (h : Move p s t) : Signalled t where
  scheduled := scheduled_move ho hi h
  stopped _ _ := stopped_move ho hm hi h
  disarmed _ _ := disarmed_move hm hi h

end Signalled

/-! ## The window is empty -/

/-- The step is the beginning of the last flush in the CRTC disable. -/
def Sys.beginsLastFlush (s : Sys) : Act → Bool
  | .commit _ =>
    match s.commit with
    | .stop (.disable _) .beginLastFlush => true
    | _ => false
  | _ => false

/-- When the last flush begins, no callback stands between setting
`dma_completion_pending` and calling `schedule_work`. -/
def CallbackScheduled (a : Act) (s : Sys) : Prop :=
  s.beginsLastFlush a = true → s.callbackMarked = false

instance (a : Act) (s : Sys) : Decidable (CallbackScheduled a s) :=
  inferInstanceAs (Decidable (_ → _))

/-- An instance of `dma_complete_work` up to number `n` will look at the flags. -/
def Sys.Covered (s : Sys) (n : Nat) : Prop :=
  (s.complete.queued = true ∧ s.complete.seq ≤ n) ∨ (s.CompleteLooks ∧ s.complete.runSeq ≤ n)

structure Drained (s : Sys) : Prop where
  lastFlush : ∀ c n, s.commit = .stop (.disable c) (.lastFlush n) →
    s.dma.Idle ∨ (s.dmaCompletionPending = true ∧ s.Covered n)
  cleared : ∀ c, s.commit = .stop (.disable c) .clear → s.dma.Idle
  window : s.InWindow → s.dma.Idle

namespace Drained

open Sys

variable {p : Params} {s t : Sys}

theorem init : Drained init where
  lastFlush _ _ h := by cases h
  cleared _ h := by cases h
  window _ := ⟨rfl, rfl, rfl⟩

/-- A flush that has ended has seen the instances it waited for. -/
theorem not_covered {n : Nat} (h : s.complete.flushed n = true) : ¬ s.Covered n := by
  rintro (⟨hq, hle⟩ | ⟨⟨pc, hr, -⟩, hle⟩)
  · rw [WorkItem.not_flushed_of_queued hq hle] at h
    cases h
  · rw [WorkItem.not_flushed_of_running (by rw [hr]; rfl) hle] at h
    cases h

/-- Whatever is queued or runs when a wait begins is covered by it. -/
theorem covered_now (h : s.complete.queued = true ∨ s.CompleteLooks) :
    s.Covered s.complete.seq := by
  obtain h | h := h
  · exact .inl ⟨h, Nat.le_refl _⟩
  · obtain ⟨pc, hr, hl⟩ := h
    exact .inr ⟨⟨pc, hr, hl⟩, s.complete.runSeq_le (by rw [hr]; rfl)⟩

theorem covered_schedule {n : Nat} (h : s.Covered n) (ht : t.complete = s.complete.schedule) :
    t.Covered n := by
  unfold Covered CompleteLooks at h ⊢
  rw [ht]
  obtain ⟨hq, hle⟩ | ⟨hl, hle⟩ := h
  · refine .inl ⟨WorkItem.schedule_queued _, ?_⟩
    simpa [WorkItem.schedule, hq] using hle
  · refine .inr ⟨?_, ?_⟩
    · simpa using hl
    · simpa using hle

theorem covered_same {n : Nat} (h : s.Covered n) (ht : t.complete = s.complete) : t.Covered n := by
  unfold Covered CompleteLooks at h ⊢
  rw [ht]
  exact h

theorem covered_goto {n : Nat} {pc pc' : CompletePc} (h : s.Covered n)
    (hr : s.complete.running = some pc) (hl : pc'.looks = true)
    (ht : t.complete = s.complete.goto pc') : t.Covered n := by
  unfold Covered at h ⊢
  rw [ht, WorkItem.goto_queued, WorkItem.goto_seq, WorkItem.goto_runSeq]
  obtain h | ⟨-, hle⟩ := h
  · exact .inl h
  · exact .inr ⟨Signalled.scheduled_looks hr hl ht, hle⟩

/-- A pending completion under a flush stays covered until DMA is idle. -/
theorem covered_move (ho : Owned s) {n : Nat} (hp : s.dmaCompletionPending = true)
    (hc : s.Covered n) (h : Move p s t) : t.dma.Idle ∨ t.Covered n := by
  cases h with
  | upload h => cases h <;> exact .inr (covered_same hc rfl)
  | complete h =>
    cases h with
    | start hr hq =>
      obtain ⟨-, hle⟩ | ⟨⟨pc, hr', -⟩, -⟩ := hc
      · exact .inr (.inr ⟨⟨.entry, rfl, rfl⟩, hle⟩)
      · rw [hr] at hr'
        cases hr'
    | lock hr hu => exact .inr (covered_goto hc hr rfl rfl)
    | nothing hr hpend => rw [hp] at hpend; cases hpend
    | found hr hpend => exact .inr (covered_goto hc hr rfl rfl)
    | cancel err hr => exact .inr (covered_goto hc hr rfl rfl)
    | noRequest err hr hf => exact .inr (covered_goto hc hr rfl rfl)
    | release err n hr hf => exact .inr (covered_goto hc hr rfl rfl)
    | compare err len ret hr hret => exact .inr (covered_goto hc hr rfl rfl)
    | finish mode ret hr =>
      have hrel : s.dma.Released := ho.complete _ hr rfl
      exact .inl ⟨rfl, rfl, hrel.reqs⟩
    | count ret up hr =>
      have hidle : s.dma.Idle := ho.complete _ hr rfl
      exact .inl hidle
  | signal h =>
    cases h with
    | callbackSchedule m hcb => exact .inr (covered_schedule hc rfl)
    | timeoutSchedule m hr => exact .inr (covered_schedule hc rfl)
    | _ => exact .inr (covered_same hc rfl)
  | commit h =>
    cases h with
    | stop caller pc hcm ht =>
      cases ht with
      | schedule => exact .inr (covered_schedule hc rfl)
      | _ => exact .inr (covered_same hc rfl)
    | _ => exact .inr (covered_same hc rfl)

theorem lastFlush_move (ho : Owned s) (hm : ModeOk p s) (hs : Signalled s) (hi : Drained s)
    (hok : ∀ c, s.commit = .stop (.disable c) .beginLastFlush → t.commit ≠ s.commit →
      s.callbackMarked = false)
    (h : Move p s t) {c : Commit} {n : Nat} (hc : t.commit = .stop (.disable c) (.lastFlush n)) :
    t.dma.Idle ∨ (t.dmaCompletionPending = true ∧ t.Covered n) := by
  obtain heq | hmove := Signalled.commit_of_move h
  · have hc' : s.commit = .stop (.disable c) (.lastFlush n) := heq ▸ hc
    have hh := Signalled.halted_of_stop hm hc' (by simp)
    obtain hidle | ⟨hp, hcov⟩ := hi.lastFlush c n hc'
    · exact .inl (Signalled.idle_stays hm hh hidle h)
    · obtain hidle | hp' := Signalled.pending_stays ho hm hh (.inr hp) h
      · exact .inl hidle
      · exact (covered_move ho hp hcov h).imp_right fun hcov' => ⟨hp', hcov'⟩
  · obtain hpc | ⟨pc', hc', ht⟩ := Signalled.stop_of_move hmove hc
    · cases hpc
    cases ht with
    | beginLastFlush =>
      cases hc
      obtain hidle | hp := hs.stopped _ _ hc' rfl
      · exact .inl hidle
      · -- nobody but `dma_complete_work` can be left to look
        have hcb := hok c hc' (by rw [hc']; simp)
        have hto : s.timeoutMarked = false := by
          unfold timeoutMarked
          rw [(hs.disarmed _ _ hc' rfl).1]
          rfl
        have hnf : s.stopForced = false := by
          unfold stopForced
          rw [hc']
        have hsched := hs.scheduled hp
        rw [hcb, hto, hnf] at hsched
        obtain h | h | h | h | h := hsched
        · exact .inr ⟨hp, covered_now (.inl h)⟩
        · exact .inr ⟨hp, covered_now (.inr h)⟩
        all_goals cases h
    | _ => cases hc

theorem cleared_move (hm : ModeOk p s) (hi : Drained s) (h : Move p s t) {c : Commit}
    (hc : t.commit = .stop (.disable c) .clear) : t.dma.Idle := by
  obtain heq | hmove := Signalled.commit_of_move h
  · have hc' : s.commit = .stop (.disable c) .clear := heq ▸ hc
    exact Signalled.idle_stays hm (Signalled.halted_of_stop hm hc' (by simp)) (hi.cleared c hc') h
  · obtain hpc | ⟨pc', hc', ht⟩ := Signalled.stop_of_move hmove hc
    · cases hpc
    cases ht with
    | lastFlushed n hf =>
      obtain hidle | ⟨-, hcov⟩ := hi.lastFlush c n hc'
      · exact hidle
      · exact absurd hcov (not_covered hf)
    | _ => cases hc

/-- The window is entered where the CRTC disable returns, and left where the CRTC enable
sets `pipe_enabled` or the next disable begins. -/
theorem window_of_move (h : CommitMove p s t) (hw : t.InWindow) :
    s.InWindow ∨ ∃ c, s.commit = .stop (.disable c) .clear := by
  obtain ⟨hpipe, hdis⟩ := hw
  cases h with
  | disable c hc => cases hdis
  | enabled c mode hc => cases hpipe
  | stop caller pc hc ht =>
    cases caller with
    | disable c =>
      cases ht with
      | clear b => exact .inr ⟨c, hc⟩
      | _ => cases hdis
    | enable c mode =>
      refine .inl ⟨?_, by rw [hc]; rfl⟩
      cases ht <;> exact hpipe
    | remove =>
      refine .inl ⟨?_, by rw [hc]; rfl⟩
      cases ht <;> exact hpipe
  | _ => exact .inl ⟨hpipe, by rw [‹s.commit = _›]; rfl⟩

theorem window_move (hm : ModeOk p s) (hi : Drained s) (h : Move p s t) (hw : t.InWindow) :
    t.dma.Idle := by
  have hstay : s.InWindow → t.dma.Idle := fun hs =>
    Signalled.idle_stays hm hs.halted (hi.window hs) h
  cases h with
  | upload h =>
    refine hstay ?_
    cases h <;> exact hw
  | complete h =>
    refine hstay ?_
    cases h <;> exact hw
  | signal h =>
    refine hstay ?_
    cases h <;> exact hw
  | commit h =>
    obtain hs | ⟨c, hc⟩ := window_of_move h hw
    · exact hstay hs
    · exact Signalled.idle_stays hm (Signalled.halted_of_stop hm hc (by simp)) (hi.cleared c hc)
        (.commit h)

/-- Only a step of the tail leaves a point inside `fpga_drm_stop_uploads`. -/
theorem commit_eq_of_step {a : Act} (h : step p a s = some t) {caller : StopCaller} {pc : StopPc}
    (hc : s.commit = .stop caller pc) : t.commit = s.commit ∨ ∃ r, a = .commit r := by
  cases a with
  | commit r => exact .inr ⟨r, rfl⟩
  | begin c =>
    have h : s.beginCommit c = some t := h
    simp [beginCommit, hc] at h
  | remove =>
    have h : s.beginRemove = some t := h
    simp [beginRemove, hc] at h
  | upload ret => cases uploadStep_move h <;> exact .inl rfl
  | complete => cases completeStep_move h <;> exact .inl rfl
  | service ok => cases serviceStep_move h <;> exact .inl rfl
  | callback => cases callbackStep_move h <;> exact .inl rfl
  | timeoutBegin => cases timeoutBegin_move h <;> exact .inl rfl
  | timeout => cases timeoutStep_move h <;> exact .inl rfl

theorem step (ho : Owned s) (hm : ModeOk p s) (hs : Signalled s) (hi : Drained s) {a : Act}
    (hok : CallbackScheduled a s) (h : step p a s = some t) : Drained t := by
  have hmove := step_move h
  refine ⟨fun c n => hi.lastFlush_move ho hm hs (fun c' hc' hne => ?_) hmove,
    fun c => hi.cleared_move hm hmove, hi.window_move hm hmove⟩
  obtain heq | ⟨r, rfl⟩ := commit_eq_of_step h hc'
  · exact absurd heq hne
  · refine hok ?_
    unfold beginsLastFlush
    rw [hc']

end Drained

end FpgaDrm
