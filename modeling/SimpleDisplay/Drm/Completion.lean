import SimpleDisplay.Drm.Ownership

/-!
# Which frame a completion signal ends

`dma_completion_pending` carries no frame number, and `dma_complete_work` disarms the
timer with `cancel_delayed_work`, which does not wait for a handler that has begun; the
callback of an aborted transfer is not waited for either.  A handler that has begun for
frame `n` and reaches its lock section after frame `n + 1` was flagged therefore ends
frame `n + 1` (`stale_timeout_ends_next_frame`).

The timer itself is never stale (`TimerOk`): it is disarmed before the request it was
armed for is released.  What is missing is that no handler stands before its lock
section when `dma_inflight` is set; while that holds, every completion belongs to the
frame in flight (`completion_attributed`).
-/

namespace FpgaDrm

open Work StateMachine

/-! ## The timer -/

/-- The timer is armed for the frame in flight only, and disarmed when its request is
about to be released. -/
structure TimerOk (s : Sys) : Prop where
  armed : ∀ n, s.timeout.pending = some n → n = s.frame ∧ s.dma.Flying
  disarmed : ∀ err, s.complete.running = some (.cancelled err) → s.timeout.pending = none

namespace TimerOk

open Sys

variable {p : Params} {s t : Sys}

theorem init : TimerOk init :=
  ⟨fun _ h => (nomatch h), fun _ h => (nomatch h)⟩

theorem none_of_reqs_nil (hi : TimerOk s) (hr : s.reqs = []) : s.timeout.pending = none := by
  cases h : s.timeout.pending with
  | none => rfl
  | some n =>
    obtain ⟨-, hfly⟩ := hi.armed n h
    obtain ⟨r, hreqs, -⟩ := hfly.reqs
    have hreqs : s.reqs = [r] := hreqs
    rw [hr] at hreqs
    cases hreqs

theorem of_none (h : t.timeout.pending = none) : TimerOk t where
  armed n hn := by rw [h] at hn; cases hn
  disarmed _ _ := h

/-- What leaves the timer, the frame and `dma_complete_work` alone and ends no flight. -/
theorem same (hi : TimerOk s) (ht : t.timeout.pending = s.timeout.pending) (hf : t.frame = s.frame)
    (hd : s.dma.Flying → t.dma.Flying)
    (hc : ∀ err, t.complete.running = some (.cancelled err) →
      s.complete.running = some (.cancelled err)) : TimerOk t where
  armed n hn := by
    obtain ⟨h1, h2⟩ := hi.armed n (ht ▸ hn)
    exact ⟨hf ▸ h1, hd h2⟩
  disarmed err he := by rw [ht]; exact hi.disarmed err (hc err he)

theorem uploadMove (ho : Owned s) (hi : TimerOk s) (h : UploadMove p s t) : TimerOk t := by
  cases h with
  | prepare l hr =>
    have hidle : s.dma.Idle := ho.upload _ hr rfl
    exact of_none (hi.none_of_reqs_nil hidle.reqs)
  | inflight l mode hr =>
    have hidle : s.dma.Idle := ho.upload _ hr rfl
    exact of_none (hi.none_of_reqs_nil hidle.reqs)
  | refuse l mode hr =>
    have hoff : s.dma.Offered := ho.upload _ hr rfl
    exact of_none (hi.none_of_reqs_nil hoff.reqs)
  | accept l mode hr hcb =>
    have hoff : s.dma.Offered := ho.upload _ hr rfl
    exact of_none (hi.none_of_reqs_nil hoff.reqs)
  | rollBack l hr =>
    have hoff : s.dma.Offered := ho.upload _ hr rfl
    exact of_none (hi.none_of_reqs_nil hoff.reqs)
  | arm l hr =>
    have hfly : s.dma.Flying := ho.upload _ hr rfl
    have hlock := ho.upload_excludes hr rfl
    constructor
    · intro n hn
      have hn : some (s.timeout.pending.getD s.frame) = some n := hn
      cases hp : s.timeout.pending with
      | none => simp [hp] at hn; exact ⟨hn.symm, hfly⟩
      | some m =>
        simp [hp] at hn
        exact ⟨hn ▸ (hi.armed m hp).1, hfly⟩
    · intro err he
      rw [completeHolds_eq (s := s) he] at hlock
      cases hlock
  | _ => exact hi.same rfl rfl id fun _ => id

theorem completeMove (ho : Owned s) (hi : TimerOk s) (h : CompleteMove s t) : TimerOk t := by
  have hgo : ∀ pc, s.complete.running = some pc → ∀ pc', (∀ err, pc' ≠ .cancelled err) → ∀ err,
      (s.complete.goto pc').running = some (.cancelled err) →
        s.complete.running = some (.cancelled err) := by
    intro pc hr pc' hne err he
    rw [WorkItem.goto_running_of_some hr] at he
    exact absurd (Option.some.inj he) (hne err)
  cases h with
  | start hr hq => exact hi.same rfl rfl id fun err he => by cases he
  | lock hr hu => exact hi.same rfl rfl id (hgo _ hr _ (by simp))
  | nothing hr hp => exact hi.same rfl rfl id fun err he => by cases he
  | found hr hp => exact hi.same rfl rfl id (hgo _ hr _ (by simp))
  | cancel err hr => exact of_none rfl
  | noRequest err hr hf => exact hi.same rfl rfl id (hgo _ hr _ (by simp))
  | release err n hr hf => exact of_none (hi.disarmed err hr)
  | compare err len ret hr hret => exact hi.same rfl rfl id (hgo _ hr _ (by simp))
  | finish mode ret hr =>
    have hrel : s.dma.Released := ho.complete _ hr rfl
    exact of_none (hi.none_of_reqs_nil hrel.reqs)
  | count ret up hr => exact hi.same rfl rfl id fun err he => by cases he

theorem flying_mark {d : Dma} (h : d.Flying) : ({ d with pending := true } : Dma).Flying := by
  obtain ⟨h1, h2, h3, h4⟩ := h
  exact ⟨h1, h2, h3, h4⟩

theorem signalMove (hi : TimerOk s) (h : SignalMove s t) : TimerOk t := by
  have hsched : ∀ err, s.complete.schedule.running = some (.cancelled err) →
      s.complete.running = some (.cancelled err) := by
    intro err he
    rwa [WorkItem.schedule_running] at he
  cases h with
  | service r st hcb hr hs =>
    refine hi.same rfl rfl ?_ fun _ => id
    rintro ⟨h1, ⟨r', hr', hf'⟩, h3, h4⟩
    have hr' : s.reqs = [r'] := hr'
    refine ⟨h1, ⟨if r'.frame = r.frame then { r' with state := st } else r', ?_, ?_⟩, h3, h4⟩
    · simp [dma, hr']
    · split <;> exact hf'
  | callback n hcb ht => exact hi.same rfl rfl flying_mark fun _ => id
  | callbackDrop n hcb ht => exact hi.same rfl rfl id fun _ => id
  | callbackSchedule n hcb => exact hi.same rfl rfl id hsched
  | timeoutBegin n hp hr => exact of_none rfl
  | timeout n hr ht => exact hi.same rfl rfl flying_mark fun _ => id
  | timeoutDrop n hr ht => exact hi.same rfl rfl id fun _ => id
  | timeoutSchedule n hr => exact hi.same rfl rfl id hsched

theorem commitMove (hi : TimerOk s) (h : CommitMove p s t) : TimerOk t := by
  cases h with
  | stop caller pc hc ht =>
    cases ht with
    | force ht => exact hi.same rfl rfl flying_mark fun _ => id
    | schedule =>
      refine hi.same rfl rfl id fun err he => ?_
      rwa [WorkItem.schedule_running] at he
    | cancelTimeout hr => exact of_none rfl
    | _ => exact hi.same rfl rfl id fun _ => id
  | _ => exact hi.same rfl rfl id fun _ => id

theorem move (ho : Owned s) (hi : TimerOk s) (h : Move p s t) : TimerOk t := by
  cases h with
  | upload h => exact hi.uploadMove ho h
  | complete h => exact hi.completeMove ho h
  | signal h => exact hi.signalMove h
  | commit h => exact hi.commitMove h

end TimerOk

/-! ## Attribution -/

/-- The callback and the timeout carry the frame they were made for; the forced
completion of `fpga_drm_stop_uploads` is for whatever is in flight. -/
def Source.OwnedBy (frame : Nat) : Source → Prop
  | .callback n => n = frame
  | .timeout n => n = frame
  | .forced => True

structure Attributed (s : Sys) : Prop where
  callback : ∀ n, s.callback = some (n, .begun) → s.dmaInflight = true → n = s.frame
  timeout : ∀ n, s.timeout.running = some (n, .begun) → s.dmaInflight = true → n = s.frame
  pending : s.dmaCompletionPending = true → ∃ src, s.pendingBy = some src ∧ src.OwnedBy s.frame

/-- The step is the lock section that sets `dma_inflight`. -/
def Sys.setsInflight (s : Sys) : Act → Bool
  | .upload _ =>
    match s.upload.running with
    | some (.prepared _ _) => true
    | _ => false
  | _ => false

/-- A handler has begun and not reached its lock section. -/
def Sys.handlerBegun (s : Sys) : Bool :=
  s.callback.any (fun h => decide (h.2 = .begun)) ||
    s.timeout.running.any (fun h => decide (h.2 = .begun))

/-- No handler stands before its lock section when `dma_inflight` is set. -/
def QuietStart (a : Act) (s : Sys) : Prop := s.setsInflight a = true → s.handlerBegun = false

instance (a : Act) (s : Sys) : Decidable (QuietStart a s) := inferInstanceAs (Decidable (_ → _))

namespace Attributed

open Sys

variable {p : Params} {s t : Sys}

theorem init : Attributed init :=
  ⟨fun _ h => (nomatch h), fun _ h => (nomatch h), fun h => (nomatch h)⟩

/-- What begins no handler, flags no frame and signals nothing. -/
theorem same (hi : Attributed s)
    (hcb : ∀ n, t.callback = some (n, .begun) → s.callback = some (n, .begun))
    (hto : ∀ n, t.timeout.running = some (n, .begun) → s.timeout.running = some (n, .begun))
    (hin : t.dmaInflight = true → s.dmaInflight = true) (hf : t.frame = s.frame)
    (hp : t.dmaCompletionPending = true → s.dmaCompletionPending = true ∧ t.pendingBy = s.pendingBy) :
    Attributed t where
  callback n h hi' := by rw [hf]; exact hi.callback n (hcb n h) (hin hi')
  timeout n h hi' := by rw [hf]; exact hi.timeout n (hto n h) (hin hi')
  pending h := by
    obtain ⟨h1, h2⟩ := hp h
    rw [h2, hf]
    exact hi.pending h1

theorem uploadMove (hi : Attributed s)
    (hq : ∀ l mode, s.upload.running = some (.prepared l mode) → s.handlerBegun = false)
    (h : UploadMove p s t) : Attributed t := by
  cases h with
  | inflight l mode hr =>
    have hquiet := hq l mode hr
    simp only [handlerBegun, Bool.or_eq_false_iff] at hquiet
    obtain ⟨hcb, hto⟩ := hquiet
    constructor
    · intro n (hn : s.callback = some (n, .begun)) _
      simp [hn] at hcb
    · intro n (hn : s.timeout.running = some (n, .begun)) _
      simp [hn] at hto
    · intro hp
      cases hp
  | rollBack l hr => exact hi.same (fun _ => id) (fun _ => id) nofun rfl nofun
  | _ => exact hi.same (fun _ => id) (fun _ => id) id rfl fun h => ⟨h, rfl⟩

theorem completeMove (hi : Attributed s) (h : CompleteMove s t) : Attributed t := by
  cases h with
  | finish mode ret hr => exact hi.same (fun _ => id) (fun _ => id) nofun rfl nofun
  | _ => exact hi.same (fun _ => id) (fun _ => id) id rfl fun h => ⟨h, rfl⟩

/-- A request in the engine's queue is the one in flight. -/
theorem frame_of_mem_reqs (ho : Owned s) {r : Request} (hr : r ∈ s.reqs) : r.frame = s.frame := by
  obtain h | h | h | h := ho.phase
  · have hnil : s.reqs = [] := h.reqs
    rw [hnil] at hr
    cases hr
  · have hnil : s.reqs = [] := h.reqs
    rw [hnil] at hr
    cases hr
  · obtain ⟨r', hreqs, hf⟩ := h.reqs
    have hreqs : s.reqs = [r'] := hreqs
    rw [hreqs, List.mem_singleton] at hr
    rw [hr]
    exact hf
  · have hnil : s.reqs = [] := h.reqs
    rw [hnil] at hr
    cases hr

theorem signalMove (ho : Owned s) (ht : TimerOk s) (hi : Attributed s) (h : SignalMove s t) :
    Attributed t := by
  cases h with
  | service r st hcb hr hs =>
    refine ⟨?_, hi.timeout, hi.pending⟩
    rintro n ⟨⟩ -
    exact frame_of_mem_reqs ho hr
  | callback n hcb hto =>
    have hin : s.dmaInflight = true := (Bool.and_eq_true_iff.1 hto).1
    exact ⟨fun m hm => (nomatch hm), hi.timeout, fun _ => ⟨_, rfl, hi.callback n hcb hin⟩⟩
  | callbackDrop n hcb hto => exact ⟨fun m hm => (nomatch hm), hi.timeout, hi.pending⟩
  | callbackSchedule n hcb => exact ⟨fun m hm => (nomatch hm), hi.timeout, hi.pending⟩
  | timeoutBegin n hp hr =>
    refine ⟨hi.callback, ?_, hi.pending⟩
    rintro m ⟨⟩ -
    exact (ht.armed n hp).1
  | timeout n hr hto =>
    have hin : s.dmaInflight = true := (Bool.and_eq_true_iff.1 hto).1
    exact ⟨hi.callback, fun m hm => (nomatch hm), fun _ => ⟨_, rfl, hi.timeout n hr hin⟩⟩
  | timeoutDrop n hr hto => exact ⟨hi.callback, fun m hm => (nomatch hm), hi.pending⟩
  | timeoutSchedule n hr => exact ⟨hi.callback, fun m hm => (nomatch hm), hi.pending⟩

theorem commitMove (hi : Attributed s) (h : CommitMove p s t) : Attributed t := by
  cases h with
  | stop caller pc hc ht =>
    cases ht with
    | force ht => exact ⟨hi.callback, hi.timeout, fun _ => ⟨_, rfl, trivial⟩⟩
    | _ => exact ⟨hi.callback, hi.timeout, hi.pending⟩
  | _ => exact ⟨hi.callback, hi.timeout, hi.pending⟩

/-- The only step that needs the condition is the one that flags a frame. -/
theorem step (ho : Owned s) (ht : TimerOk s) (hi : Attributed s) {a : Act} (hq : QuietStart a s)
    (h : step p a s = some t) : Attributed t := by
  cases a with
  | upload ret =>
    refine hi.uploadMove (fun l mode hr => hq ?_) (uploadStep_move h)
    simp [setsInflight, hr]
  | complete => exact hi.completeMove (completeStep_move h)
  | begin c => exact hi.commitMove (p := p) (beginCommit_move h)
  | remove => exact hi.commitMove (p := p) (beginRemove_move h)
  | commit r => exact hi.commitMove (commitStep_move h)
  | service ok => exact hi.signalMove ho ht (serviceStep_move h)
  | callback => exact hi.signalMove ho ht (callbackStep_move h)
  | timeoutBegin => exact hi.signalMove ho ht (timeoutBegin_move h)
  | timeout => exact hi.signalMove ho ht (timeoutStep_move h)

end Attributed

/-- **While no handler stands before its lock section when a frame is flagged, every
completion belongs to the frame in flight.** -/
theorem completion_attributed {p : Params} {as : List Act} {s : Sys}
    (hq : Meets (step p) QuietStart as init) (h : run (step p) as init = some s)
    (hp : s.dmaCompletionPending = true) :
    s.dmaInflight = true ∧
      (s.pendingBy = some (.callback s.frame) ∨ s.pendingBy = some (.timeout s.frame) ∨
        s.pendingBy = some .forced) := by
  have hall : Owned s ∧ TimerOk s ∧ Attributed s := by
    refine run_invariant_of_meets (I := fun s => Owned s ∧ TimerOk s ∧ Attributed s)
      (fun a s t hi hok ht => ?_) ⟨.init, .init, .init⟩ hq h
    obtain ⟨ho, htm, hat⟩ := hi
    have hm := Sys.step_move ht
    exact ⟨ho.move hm, htm.move ho hm, hat.step ho htm hok ht⟩
  obtain ⟨ho, -, hat⟩ := hall
  obtain ⟨src, hsrc, hown⟩ := hat.pending hp
  refine ⟨ho.inflight_of_pending hp, ?_⟩
  rw [hsrc]
  cases src with
  | callback n => exact .inl (congrArg _ (congrArg _ hown))
  | timeout n => exact .inr (.inl (congrArg _ (congrArg _ hown)))
  | forced => exact .inr (.inr rfl)

/-- The first frame's timer fires while its callback runs; the frame is finished, the
second one submitted, and then the handler goes on. -/
def staleTimeout : List Act :=
  firstFlip ++ uploadSteps 8 ++ [.service true, .callback, .timeoutBegin, .callback] ++
    completeSteps 8 ++ .begin (vgaFrame false) :: commitSteps 3 ++ uploadSteps 8 ++ [.timeout]

/-- The second frame is ended by the timeout of the first, and counted as timed out
without having been served. -/
theorem stale_timeout_ends_next_frame :
    ∃ s, run (step allOn) staleTimeout init = some s ∧
      (s.dmaCompletionPending = true ∧ s.frame = 2 ∧ s.pendingBy = some (.timeout 1)) ∧
      ∃ t, run (step allOn) (.timeout :: completeSteps 8) s = some t ∧
        t.finishes.map (fun f => (f.frame, f.ret)) = [(1, 0), (2, -ETIMEDOUT)] := by
  have hrun : (run (step allOn) staleTimeout init).any (fun s =>
      decide (s.dmaCompletionPending = true ∧ s.frame = 2 ∧ s.pendingBy = some (.timeout 1)) &&
      (run (step allOn) (.timeout :: completeSteps 8) s).any (fun t =>
        decide (t.finishes.map (fun f => (f.frame, f.ret)) = [(1, 0), (2, -ETIMEDOUT)]))) = true := by
    decide
  obtain ⟨s, hs, htest⟩ := run_any hrun
  obtain ⟨h1, h2⟩ := Bool.and_eq_true_iff.1 htest
  obtain ⟨t, ht, h3⟩ := run_any h2
  exact ⟨s, hs, of_decide_eq_true h1, t, ht, of_decide_eq_true h3⟩

/-- The first frame's own callback. -/
theorem completion_attributed_first :
    ∃ s, run (step allOn) (firstFlip ++ uploadSteps 8 ++ [.service true, .callback]) init = some s ∧
      s.dmaInflight = true ∧
      (s.pendingBy = some (.callback s.frame) ∨ s.pendingBy = some (.timeout s.frame) ∨
        s.pendingBy = some .forced) := by
  have hrun : (run (step allOn) (firstFlip ++ uploadSteps 8 ++ [.service true, .callback]) init).any
      (·.dmaCompletionPending) = true := by decide
  obtain ⟨s, hs, hp⟩ := run_any hrun
  exact ⟨s, hs, completion_attributed (by decide) hs hp⟩

end FpgaDrm
