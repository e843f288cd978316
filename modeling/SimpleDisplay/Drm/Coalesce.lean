import SimpleDisplay.Drm.Staging

/-!
# Coalescing

No update is lost while the pipe stays enabled: a newest commit that shows the primary
plane is submitted, or an upload of it failed, or a trigger for `upload_work` is left
(`Kept`).  One that takes the framebuffer off the plane is not uploaded
(`blank_flip_not_uploaded`).  The triggers hand over to each other without a gap:

    flush ─ queued ─ running ─┬─ submitted
                ▲             └─ upload_pending, behind the frame in flight ─┐
                └──────────────── schedule_work in dma_finish ◄──────────────┘
-/

namespace FpgaDrm

open Work StateMachine

/-! ## The newest commit -/

/-- `upload_pending` is set behind a frame in flight only, and never while `upload_work`
is past its busy check. -/
structure PendingOk (s : Sys) : Prop where
  inflight : s.uploadPending = true → s.dmaInflight = true
  locked : ∀ pc, s.upload.running = some pc → pc.holdsDmaLock = true → s.uploadPending = false

namespace PendingOk

open Sys

variable {p : Params} {s t : Sys}

theorem init : PendingOk init where
  inflight h := by cases h
  locked _ h := by cases h

theorem same (hi : PendingOk s) (hp : t.uploadPending = s.uploadPending)
    (hin : s.dmaInflight = true → t.dmaInflight = true)
    (hu : t.upload.running = s.upload.running) : PendingOk t where
  inflight h := hin (hi.inflight (hp ▸ h))
  locked pc hr hh := by rw [hp]; exact hi.locked pc (hu ▸ hr) hh

theorem outside (hi : PendingOk s) (hp : t.uploadPending = s.uploadPending)
    (hin : s.dmaInflight = true → t.dmaInflight = true) (hu : t.uploadHoldsDmaLock = false) :
    PendingOk t where
  inflight h := hin (hi.inflight (hp ▸ h))
  locked pc hr hh := by
    rw [uploadHolds_eq hr, hh] at hu
    cases hu

theorem of_not_pending (hp : t.uploadPending = false) : PendingOk t where
  inflight h := by rw [hp] at h; cases h
  locked _ _ _ := hp

theorem uploadMove (ho : Owned s) (hi : PendingOk s) (h : UploadMove p s t) : PendingOk t := by
  cases h with
  | start hr hq => exact hi.outside rfl id rfl
  | captureNone hr hc => exact hi.outside rfl id rfl
  | capture hr hp he =>
    exact hi.outside rfl id (uploadHolds_out (WorkItem.goto_running_of_some hr) rfl)
  | skip l hr he => exact hi.outside rfl id rfl
  | busy l hr he hl hb =>
    refine ⟨fun _ => ?_, fun pc h => by cases h⟩
    obtain h | h := Bool.or_eq_true_iff.1 hb
    · exact h
    · exact ho.inflight_of_pending h
  | lock l hr he hl hb =>
    have hin : s.dmaInflight = false := (Bool.or_eq_false_iff.1 hb).1
    refine of_not_pending ?_
    show s.uploadPending = false
    cases hp : s.uploadPending with
    | false => rfl
    | true =>
      have := hi.inflight hp
      rw [hin] at this
      cases this
  | inflight l mode hr => exact of_not_pending rfl
  | composeFailed l hr => exact of_not_pending (hi.locked _ hr rfl)
  | composed l hr n => exact of_not_pending (hi.locked _ hr rfl)
  | prepare l hr => exact of_not_pending (hi.locked _ hr rfl)
  | refuse l mode hr => exact of_not_pending (hi.locked _ hr rfl)
  | accept l mode hr hcb => exact of_not_pending (hi.locked _ hr rfl)
  | rollBack l hr => exact of_not_pending (hi.locked _ hr rfl)
  | arm l hr => exact of_not_pending (hi.locked _ hr rfl)

theorem move (ho : Owned s) (hi : PendingOk s) (h : Move p s t) : PendingOk t := by
  cases h with
  | upload h => exact hi.uploadMove ho h
  | complete h =>
    cases h with
    | finish mode ret hr => exact of_not_pending rfl
    | count ret up hr =>
      refine hi.same rfl id ?_
      cases up <;> simp [countFinish]
    | _ => exact hi.same rfl id rfl
  | signal h => cases h <;> exact hi.same rfl id rfl
  | commit h =>
    cases h with
    | stop caller pc hc ht => cases ht <;> exact hi.same rfl id rfl
    | queue c hc => exact hi.same rfl id (WorkItem.schedule_running _)
    | _ => exact hi.same rfl id rfl

end PendingOk

/-- A run of `upload_work` that can still submit commit `n`. -/
def UploadPc.undecided (n : Nat) : UploadPc → Bool
  | .entry => true
  | .captured l | .locked l | .composed l | .prepared l _ | .marked l _ => l.commit == n
  | .refused _ | .accepted _ => false

def CommitPc.toSchedule : CommitPc → Bool
  | .flushed _ changed => changed
  | _ => false

def CompletePc.toSchedule : CompletePc → Bool
  | .finished _ uploadPending => uploadPending
  | _ => false

namespace Sys

/-- The newest commit is submitted, for the active mode. -/
def NewestShown (s : Sys) : Prop :=
  ∃ f ∈ s.submitted, f.mode = s.activeMode ∧ ∃ c, f.content = some c ∧ c.commit = s.commits.length

/-- An upload of the newest commit failed. -/
def NewestFailed (s : Sys) : Prop := s.commits.length ∈ s.failed

/-- `upload_work` is queued, or runs and has not decided, or `upload_pending` is set behind
a frame. -/
def Triggered (s : Sys) : Prop :=
  s.upload.queued = true ∨
  (∃ pc, s.upload.running = some pc ∧ pc.undecided s.commits.length = true) ∨
  (s.uploadPending = true ∧ (s.dmaInflight = true ∨ s.dmaCompletionPending = true))

/-- A flush or a `fpga_drm_dma_finish` is between its lock section and its call of
`schedule_work(&upload_work)`. -/
def aboutToSchedule (s : Sys) : Bool :=
  s.commit.toSchedule || s.complete.running.any CompletePc.toSchedule

/-- The newest commit is not lost. -/
def Kept (s : Sys) : Prop :=
  s.primary.enabled = false ∨ s.NewestShown ∨ s.NewestFailed ∨ s.Triggered ∨
    s.aboutToSchedule = true

end Sys

/-- The tail is in no CRTC disable or enable. -/
def CommitPc.inFlip : CommitPc → Bool
  | .idle | .flush _ | .flushed _ _ | .done _ => true
  | _ => false

/-- The pipe is enabled, and the tail flushes at most. -/
def PipeStays (_ : Act) (s : Sys) : Prop := s.pipeEnabled = true ∧ s.commit.inFlip = true

instance (a : Act) (s : Sys) : Decidable (PipeStays a s) := inferInstanceAs (Decidable (_ ∧ _))

namespace Sys.Kept

open Sys

variable {p : Params} {s t : Sys}

/-- What leaves the newest commit, the record and every trigger alone. -/
theorem same (hk : s.Kept) (hp : t.primary = s.primary) (hc : t.commits = s.commits)
    (hs : ∀ f ∈ s.submitted, f ∈ t.submitted) (hm : t.activeMode = s.activeMode)
    (hf : ∀ n ∈ s.failed, n ∈ t.failed) (htr : s.Triggered → t.Triggered ∨ t.aboutToSchedule = true)
    (ha : s.aboutToSchedule = true → t.Triggered ∨ t.aboutToSchedule = true) : t.Kept := by
  obtain h | ⟨f, hmem, hmode, h⟩ | h | h | h := hk
  · exact .inl (hp ▸ h)
  · exact .inr (.inl ⟨f, hs f hmem, hm ▸ hmode, hc ▸ h⟩)
  · refine .inr (.inr (.inl ?_))
    unfold NewestFailed
    rw [hc]
    exact hf _ h
  · exact .inr (.inr (.inr (htr h)))
  · exact .inr (.inr (.inr (ha h)))

theorem about_same (hc : t.commit = s.commit) (hw : t.complete.running = s.complete.running)
    (h : s.aboutToSchedule = true) : t.aboutToSchedule = true := by
  unfold aboutToSchedule at h ⊢
  rwa [hc, hw]

/-- A run of `upload_work` that goes on undecided. -/
theorem triggered_goto {pc pc' : UploadPc} (h : s.Triggered) (hr : s.upload.running = some pc)
    (hq : t.upload = s.upload.goto pc') (hc : t.commits = s.commits)
    (hund : pc.undecided s.commits.length = true → pc'.undecided s.commits.length = true)
    (hp : s.uploadPending = false) : t.Triggered := by
  obtain h | ⟨pc₁, hr₁, hu⟩ | ⟨h, -⟩ := h
  · exact .inl (by rw [hq, WorkItem.goto_queued, h])
  · rw [hr] at hr₁
    cases hr₁
    exact .inr (.inl ⟨pc', by rw [hq]; exact WorkItem.goto_running_of_some hr, by rw [hc]; exact hund hu⟩)
  · rw [hp] at h
    cases h

/-- A trigger that is neither the running `upload_work` nor `upload_pending` is that it is
queued. -/
theorem triggered_queued {pc : UploadPc} (h : s.Triggered) (hr : s.upload.running = some pc)
    (hund : pc.undecided s.commits.length = false) (hp : s.uploadPending = false) :
    s.upload.queued = true := by
  obtain h | ⟨pc', hr', hu⟩ | ⟨h, -⟩ := h
  · exact h
  · rw [hr] at hr'
    cases hr'
    rw [hund] at hu
    cases hu
  · rw [hp] at h
    cases h

/-- A failed composition or submission of the newest commit is recorded. -/
theorem fail {l : Locals} {pc : UploadPc} (hk : s.Kept) (hr : s.upload.running = some pc)
    (hl : pc.undecided s.commits.length = (l.commit == s.commits.length))
    (hp : s.uploadPending = false) (hprim : t.primary = s.primary) (hc : t.commits = s.commits)
    (hs : t.submitted = s.submitted) (hm : t.activeMode = s.activeMode)
    (hf : t.failed = l.commit :: s.failed) (hq : t.upload.queued = s.upload.queued)
    (ha : s.aboutToSchedule = true → t.aboutToSchedule = true) : t.Kept := by
  by_cases hnew : l.commit = s.commits.length
  · refine .inr (.inr (.inl ?_))
    unfold NewestFailed
    rw [hc, hf, hnew]
    exact List.mem_cons_self
  · refine hk.same hprim hc (by rw [hs]; exact fun _ => id) hm ?_ (fun h => ?_) (fun h => .inr (ha h))
    · intro n hn
      rw [hf]
      exact List.mem_cons_of_mem _ hn
    · have hund : pc.undecided s.commits.length = false := by simp [hl, hnew]
      exact .inl (.inl (by rw [hq]; exact triggered_queued h hr hund hp))

theorem uploadMove (hup : p.uploadEnabled = true) (hpipe : s.pipeEnabled = true) (hm : ModeOk p s)
    (hst : Staging s) (hpd : PendingOk s) (hk : s.Kept) (h : UploadMove p s t) : t.Kept := by
  have hmem : ∀ f ∈ s.submitted, f ∈ s.submitted := fun _ => id
  have hfail : ∀ n ∈ s.failed, n ∈ s.failed := fun _ => id
  cases h with
  | start hr hq =>
    exact hk.same rfl rfl hmem rfl hfail (fun _ => .inl (.inr (.inl ⟨.entry, rfl, rfl⟩)))
      fun h => .inr h
  | captureNone hr hc =>
    obtain hc | hc := hc
    · rw [hpipe] at hc
      cases hc
    · exact .inl hc
  | capture hr hp he =>
    refine hk.same rfl rfl hmem rfl hfail (fun _ => .inl (.inr (.inl ?_))) fun h => .inr h
    exact ⟨_, WorkItem.goto_running_of_some hr, beq_self_eq_true _⟩
  | skip l hr he => rw [hup] at he; cases he
  | busy l hr he hl hb =>
    have hin : s.dmaInflight = true ∨ s.dmaCompletionPending = true := Bool.or_eq_true_iff.1 hb
    exact hk.same rfl rfl hmem rfl hfail (fun _ => .inl (.inr (.inr ⟨rfl, hin⟩))) fun h => .inr h
  | lock l hr he hl hb =>
    have hin : s.dmaInflight = false := (Bool.or_eq_false_iff.1 hb).1
    have hp : s.uploadPending = false := by
      cases hp : s.uploadPending with
      | false => rfl
      | true =>
        have := hpd.inflight hp
        rw [hin] at this
        cases this
    exact hk.same rfl rfl hmem rfl hfail (fun h => .inl (triggered_goto h hr rfl rfl id hp))
      fun h => .inr h
  | composeFailed l hr =>
    exact hk.fail hr rfl (hpd.locked _ hr rfl) rfl rfl rfl rfl rfl rfl id
  | composed l hr n =>
    exact hk.same rfl rfl hmem rfl hfail
      (fun h => .inl (triggered_goto h hr rfl rfl id (hpd.locked _ hr rfl))) fun h => .inr h
  | prepare l hr =>
    exact hk.same rfl rfl hmem rfl hfail
      (fun h => .inl (triggered_goto h hr rfl rfl id (hpd.locked _ hr rfl))) fun h => .inr h
  | inflight l mode hr =>
    exact hk.same rfl rfl hmem rfl hfail
      (fun h => .inl (triggered_goto h hr rfl rfl id (hpd.locked _ hr rfl))) fun h => .inr h
  | refuse l mode hr =>
    exact hk.fail hr rfl (hpd.locked _ hr rfl) rfl rfl rfl rfl rfl (WorkItem.goto_queued _ _) id
  | accept l mode hr hcb =>
    by_cases hnew : l.commit = s.commits.length
    · refine .inr (.inl ⟨_, List.mem_append.2 (.inr (List.mem_singleton_self _)),
        hm.mode _ mode hr rfl, l.staged, hst.bufs _ l hr rfl, hnew⟩)
    · refine hk.same rfl rfl (fun f hf => List.mem_append.2 (.inl hf)) rfl hfail (fun h => ?_)
        fun h => .inr h
      have hund : (UploadPc.marked l mode).undecided s.commits.length = false := by
        simp [UploadPc.undecided, hnew]
      refine .inl (.inl ?_)
      show (s.upload.goto _).queued = true
      rw [WorkItem.goto_queued]
      exact triggered_queued h hr hund (hpd.locked _ hr rfl)
  | rollBack l hr =>
    refine hk.same rfl rfl hmem rfl hfail (fun h => ?_) .inr
    have hq := triggered_queued h hr rfl (hpd.locked _ hr rfl)
    exact .inl (.inl hq)
  | arm l hr =>
    refine hk.same rfl rfl hmem rfl hfail (fun h => ?_) .inr
    have hq := triggered_queued h hr rfl (hpd.locked _ hr rfl)
    exact .inl (.inl hq)

/-- A run of `dma_complete_work` that schedules nothing. -/
theorem about_complete {pc : CompletePc} (hr : s.complete.running = some pc)
    (hpc : pc.toSchedule = false) (hc : t.commit = s.commit) (h : s.aboutToSchedule = true) :
    t.aboutToSchedule = true := by
  unfold aboutToSchedule at h ⊢
  rw [hr, Option.any_some, hpc, Bool.or_false] at h
  rw [hc, h, Bool.true_or]

theorem completeMove (hk : s.Kept) (h : CompleteMove s t) : t.Kept := by
  have hmem : ∀ f ∈ s.submitted, f ∈ s.submitted := fun _ => id
  have hfail : ∀ n ∈ s.failed, n ∈ s.failed := fun _ => id
  have hquiet : ∀ {pc : CompletePc}, s.complete.running = some pc → pc.toSchedule = false →
      t.commit = s.commit → s.aboutToSchedule = true → t.Triggered ∨ t.aboutToSchedule = true :=
    fun hr hpc hc h => .inr (about_complete hr hpc hc h)
  cases h with
  | start hr hq =>
    refine hk.same rfl rfl hmem rfl hfail .inl fun h => .inr ?_
    unfold aboutToSchedule at h ⊢
    rw [hr, Option.any_none, Bool.or_false] at h
    rw [h, Bool.true_or]
  | finish mode ret hr =>
    refine hk.same rfl rfl hmem rfl hfail (fun h => ?_) (hquiet hr rfl rfl)
    -- what was pending behind this frame is handed over to the call of `schedule_work`
    obtain h | h | ⟨h, -⟩ := h
    · exact .inl (.inl h)
    · exact .inl (.inr (.inl h))
    · refine .inr ?_
      unfold aboutToSchedule
      rw [show (s.dmaFinish mode ret).complete.running = some (.finished ret s.uploadPending) from
        WorkItem.goto_running_of_some hr, Option.any_some, CompletePc.toSchedule, h, Bool.or_true]
  | count ret up hr =>
    cases up with
    | true =>
      exact hk.same rfl rfl hmem rfl hfail (fun _ => .inl (.inl (WorkItem.schedule_queued _)))
        fun _ => .inl (.inl (WorkItem.schedule_queued _))
    | false => exact hk.same rfl rfl hmem rfl hfail .inl (hquiet hr rfl rfl)
  | lock hr hl => exact hk.same rfl rfl hmem rfl hfail .inl (hquiet hr rfl rfl)
  | nothing hr hp => exact hk.same rfl rfl hmem rfl hfail .inl (hquiet hr rfl rfl)
  | found hr hp => exact hk.same rfl rfl hmem rfl hfail .inl (hquiet hr rfl rfl)
  | cancel err hr => exact hk.same rfl rfl hmem rfl hfail .inl (hquiet hr rfl rfl)
  | noRequest err hr hf => exact hk.same rfl rfl hmem rfl hfail .inl (hquiet hr rfl rfl)
  | release err n hr hf => exact hk.same rfl rfl hmem rfl hfail .inl (hquiet hr rfl rfl)
  | compare err len ret hr hret => exact hk.same rfl rfl hmem rfl hfail .inl (hquiet hr rfl rfl)

theorem signalMove (hk : s.Kept) (h : SignalMove s t) : t.Kept := by
  have hmem : ∀ f ∈ s.submitted, f ∈ s.submitted := fun _ => id
  have hfail : ∀ n ∈ s.failed, n ∈ s.failed := fun _ => id
  have hsame : t.commit = s.commit → t.complete.running = s.complete.running →
      s.aboutToSchedule = true → t.Triggered ∨ t.aboutToSchedule = true :=
    fun hc hw h => .inr (about_same hc hw h)
  have hmark : s.Triggered → s.upload.queued = true ∨
      (∃ pc, s.upload.running = some pc ∧ pc.undecided s.commits.length = true) ∨
      (s.uploadPending = true ∧ (s.dmaInflight = true ∨ true = true)) :=
    Or.imp_right (Or.imp_right fun h => ⟨h.1, .inr rfl⟩)
  cases h with
  | callback n hcb ht => exact hk.same rfl rfl hmem rfl hfail (fun h => .inl (hmark h)) .inr
  | timeout n hr ht => exact hk.same rfl rfl hmem rfl hfail (fun h => .inl (hmark h)) .inr
  | callbackSchedule n hcb =>
    exact hk.same rfl rfl hmem rfl hfail .inl (hsame rfl (WorkItem.schedule_running _))
  | timeoutSchedule n hr =>
    exact hk.same rfl rfl hmem rfl hfail .inl (hsame rfl (WorkItem.schedule_running _))
  | _ => exact hk.same rfl rfl hmem rfl hfail .inl .inr

/-- A move of the tail that schedules nothing, from a point that schedules nothing. -/
theorem advance (hk : s.Kept) (hc : s.commit.toSchedule = false) (hp : t.primary = s.primary)
    (hcm : t.commits = s.commits) (hs : t.submitted = s.submitted)
    (hm : t.activeMode = s.activeMode) (hf : t.failed = s.failed)
    (htr : s.Triggered → t.Triggered) (hw : t.complete = s.complete) : t.Kept := by
  refine hk.same hp hcm (by rw [hs]; exact fun _ => id) hm (by rw [hf]; exact fun _ => id)
    (fun h => .inl (htr h)) fun h => .inr ?_
  unfold aboutToSchedule at h ⊢
  rw [hc, Bool.false_or] at h
  rw [hw, h, Bool.or_true]

theorem commitMove (hflip : s.commit.inFlip = true) (hk : s.Kept) (h : CommitMove p s t) :
    t.Kept := by
  have hnot : ∀ {pc : CommitPc}, s.commit = pc → pc.toSchedule = false →
      s.commit.toSchedule = false := fun h => h ▸ id
  cases h with
  | flush c hc =>
    cases hch : changes p c with
    | true =>
      refine .inr (.inr (.inr (.inr ?_)))
      simp [aboutToSchedule, CommitPc.toSchedule]
    | false =>
      have hnone : c.primary = none := by
        unfold changes at hch
        simpa using (Bool.or_eq_false_iff.1 hch).1
      refine hk.advance (hnot hc rfl) ?_ (by simp) rfl rfl rfl id rfl
      show flushedPrimary c s = s.primary
      unfold flushedPrimary
      rw [hnone]
  | queue c hc => exact .inr (.inr (.inr (.inl (.inl (WorkItem.schedule_queued _)))))
  | unchanged c hc => exact hk.advance (hnot hc rfl) rfl rfl rfl rfl rfl id rfl
  | finish c hc => exact hk.advance (hnot hc rfl) rfl rfl rfl rfl rfl id rfl
  | begin c hc hrem ha => exact hk.advance (hnot hc rfl) rfl rfl rfl rfl rfl id rfl
  | remove hc ha => exact hk.advance (hnot hc rfl) rfl rfl rfl rfl rfl id rfl
  | stop caller pc hc ht => rw [hc] at hflip; cases hflip
  | disable c hc => rw [hc] at hflip; cases hflip
  | unknownMode c hc hm => rw [hc] at hflip; cases hflip
  | enable c mode hc hm => rw [hc] at hflip; cases hflip
  | programFailed c mode r hc hr => rw [hc] at hflip; cases hflip
  | program c mode r hc hr => rw [hc] at hflip; cases hflip
  | enabled c mode hc => rw [hc] at hflip; cases hflip

/-- **Step lemma.** While the pipe stays enabled the newest commit is kept. -/
theorem move (hup : p.uploadEnabled = true) (hpipe : s.pipeEnabled = true)
    (hflip : s.commit.inFlip = true) (hm : ModeOk p s) (hst : Staging s) (hpd : PendingOk s)
    (hk : s.Kept) (h : Move p s t) : t.Kept := by
  cases h with
  | upload h => exact hk.uploadMove hup hpipe hm hst hpd h
  | complete h => exact hk.completeMove h
  | signal h => exact hk.signalMove h
  | commit h => exact hk.commitMove hflip h

end Sys.Kept

/-- Only a flush that changes a snapshot makes a commit, and it is about to schedule. -/
theorem Sys.kept_of_flush {p : Params} {s t : Sys} (h : Move p s t)
    (hlt : s.commits.length < t.commits.length) : t.Kept := by
  have hirr : ∀ {n : Nat}, n < n → t.Kept := fun h => absurd h (Nat.lt_irrefl _)
  cases h with
  | upload h => cases h <;> exact hirr hlt
  | complete h => cases h <;> exact hirr hlt
  | signal h => cases h <;> exact hirr hlt
  | commit h =>
    cases h with
    | flush c hc =>
      cases hch : changes p c with
      | true => exact .inr (.inr (.inr (.inr (by simp [aboutToSchedule, CommitPc.toSchedule]))))
      | false => simp [hch] at hlt
    | stop caller pc hc ht => cases ht <;> exact hirr hlt
    | _ => exact hirr hlt

/-- What holds of every reachable state, as far as the newest commit needs it. -/
structure UploadOk (p : Params) (s : Sys) : Prop where
  owned : Owned s
  mode : ModeOk p s
  staging : Staging s
  pending : PendingOk s

theorem UploadOk.move {p : Params} {s t : Sys} (hi : UploadOk p s) (h : Sys.Move p s t) :
    UploadOk p t :=
  ⟨hi.owned.move h, hi.mode.move h, hi.staging.move h, hi.pending.move hi.owned h⟩

theorem Reachable.uploadOk {p : Params} {s : Sys} (h : Reachable p s) : UploadOk p s :=
  Sys.Reachable.induction ⟨.init, .init, .init, .init⟩ (fun _ _ => UploadOk.move) h

/-- **Run lemma.** A commit flushed while the pipe stays enabled is kept. -/
theorem kept_of_run {p : Params} {s₀ s : Sys} {as : List Act} (hup : p.uploadEnabled = true)
    (h₀ : Reachable p s₀) (hm : Meets (step p) PipeStays as s₀) (h : run (step p) as s₀ = some s)
    (hnew : s₀.commits.length < s.commits.length) : s.Kept := by
  have hall : UploadOk p s ∧ (s₀.commits.length < s.commits.length → s.Kept) := by
    refine run_invariant_of_meets
      (I := fun s => UploadOk p s ∧ (s₀.commits.length < s.commits.length → s.Kept))
      (fun a s t hi hok ht => ?_) ⟨h₀.uploadOk, fun h => absurd h (Nat.lt_irrefl _)⟩ hm h
    obtain ⟨hi, hk⟩ := hi
    have hmove := Sys.step_move ht
    refine ⟨hi.move hmove, fun hlt => ?_⟩
    by_cases hold : s₀.commits.length < s.commits.length
    · exact (hk hold).move hup hok.1 hok.2 hi.mode hi.staging hi.pending hmove
    · -- the step is the first flush of the run that changes a snapshot
      have hch : s.commits.length < t.commits.length := by omega
      exact Sys.kept_of_flush hmove hch
  exact hall.2 hnew

/-! ## Top theorem -/

/-- The number of the commit a frame shows. -/
def Frame.number (f : Frame) : Nat := (f.content.map (·.commit)).getD 0

/-- Nothing is queued, runs, is in flight or is about to be scheduled. -/
structure Sys.Settled (s : Sys) : Prop where
  queued : s.upload.queued = false
  running : s.upload.running = none
  inflight : s.dmaInflight = false
  schedule : s.aboutToSchedule = false

/-- A frame's content is what its commit posted. -/
theorem Staging.content_posted {s : Sys} (hi : Staging s) (hs : s.mailbox.Sound) {f : Frame}
    (hf : f ∈ s.submitted) : ∃ pri ov, 0 < f.number ∧ s.commits[f.number - 1]? = some (pri, ov) ∧
      f.content = some ⟨f.number, pri, overlayArg ov ov.enabled⟩ := by
  obtain ⟨c, hc⟩ := Option.isSome_iff_exists.1 (hi.content f hf)
  have hnum : f.number = c.commit := by simp [Frame.number, hc]
  have hmem : (c.commit, (c.primary, c.overlay)) ∈ s.mailbox.shown :=
    List.mem_filterMap.2 ⟨f, hf, by simp [Frame.shown, hc]⟩
  obtain ⟨hpos, hpost⟩ := hs.posted _ hmem
  have hpost : (s.commits.map picture)[c.commit - 1]? = some (c.primary, c.overlay) := hpost
  rw [List.getElem?_map, Option.map_eq_some_iff] at hpost
  obtain ⟨⟨pri, ov⟩, hpair, hpic⟩ := hpost
  obtain ⟨h1, h2⟩ := Prod.mk.inj hpic
  have h1 : pri = c.primary := h1
  refine ⟨pri, ov, by omega, by rw [hnum]; exact hpair, ?_⟩
  rw [hc, hnum, h1, h2]

theorem Staging.number_le {s : Sys} (hi : Staging s) {f : Frame} (hf : f ∈ s.submitted) :
    f.number ≤ s.commits.length := by
  obtain ⟨c, hc⟩ := Option.isSome_iff_exists.1 (hi.content f hf)
  have hmem : (c.commit, (c.primary, c.overlay)) ∈ s.mailbox.shown :=
    List.mem_filterMap.2 ⟨f, hf, by simp [Frame.shown, hc]⟩
  simpa [Frame.number, hc] using hi.bound _ hmem

/-- The numbers of the frames are those of the mailbox. -/
theorem Staging.numbers_pairwise {s : Sys} (hi : Staging s) (hs : s.mailbox.Sound) :
    (s.submitted.map Frame.number).Pairwise (· ≤ ·) := by
  have ho := hs.ordered
  unfold Sys.mailbox at ho
  rw [List.pairwise_filterMap] at ho
  rw [List.pairwise_map]
  refine ho.imp_of_mem fun {f f'} hf hf' hle => ?_
  obtain ⟨c, hc⟩ := Option.isSome_iff_exists.1 (hi.content f hf)
  obtain ⟨c', hc'⟩ := Option.isSome_iff_exists.1 (hi.content f' hf')
  simpa [Frame.number, hc, hc'] using hle _ (by simp [Frame.shown, hc]; rfl) _ (by simp [Frame.shown, hc']; rfl)

/-- The newest commit, once submitted, is what was submitted last. -/
theorem Staging.newest_last {s : Sys} (hi : Staging s) (hs : s.mailbox.Sound)
    (hprim : s.primary.enabled = true) {f : Frame} (hf : f ∈ s.submitted)
    (hn : f.number = s.commits.length) :
    ∃ f', s.submitted.getLast? = some f' ∧ f'.content =
      some ⟨s.commits.length, s.primary, overlayArg s.overlay s.overlay.enabled⟩ := by
  obtain hnil | ⟨front, last, hlast⟩ := List.eq_nil_or_concat s.submitted
  · rw [hnil] at hf
    cases hf
  have hlast : s.submitted = front ++ [last] := by simpa using hlast
  have hmem : last ∈ s.submitted := by simp [hlast]
  have hge : f.number ≤ last.number := by
    have hpair := hi.numbers_pairwise hs
    rw [hlast, List.map_append, List.pairwise_append] at hpair
    rw [hlast] at hf
    obtain hf | hf := List.mem_append.1 hf
    · exact hpair.2.2 _ (List.mem_map_of_mem hf) _ (by simp)
    · rw [List.mem_singleton.1 hf]
  have hnum : last.number = s.commits.length := by
    have := hi.number_le hmem
    omega
  obtain ⟨pri, ov, hpos, hpair, hcontent⟩ := hi.content_posted hs hmem
  have hslot := hi.slots hprim
  rw [List.getLast?_eq_getElem?, ← hnum, hpair] at hslot
  obtain ⟨h1, h2⟩ := Prod.mk.inj (Option.some.inj hslot)
  refine ⟨last, by rw [hlast, List.getLast?_concat], ?_⟩
  rw [hcontent, hnum, h1, h2]

/-- **Coalescing loses no update and never goes back in time.**  Every submitted frame
shows the pair of one commit, in the order of the commits; while the pipe stays enabled
the newest commit, when it shows the primary plane, is submitted, or its upload failed, or a
trigger is left; and when nothing is left to run, the last frame submitted is its own. -/
theorem coalescing_keeps_newest {p : Params} {s₀ s : Sys} {as : List Act}
    (hup : p.uploadEnabled = true) (h₀ : Reachable p s₀) (hm : Meets (step p) PipeStays as s₀)
    (h : run (step p) as s₀ = some s) :
    (∀ f ∈ s.submitted, ∃ n pri ov, 0 < n ∧ s.commits[n - 1]? = some (pri, ov) ∧
      f.content = some ⟨n, pri, overlayArg ov ov.enabled⟩) ∧
    (s.submitted.map Frame.number).Pairwise (· ≤ ·) ∧
    (s₀.commits.length < s.commits.length → s.primary.enabled = true →
      s.commits.length ∉ s.failed →
      ((∀ f ∈ s.submitted, f.number ≠ s.commits.length) →
        s.Triggered ∨ s.aboutToSchedule = true) ∧
      (s.Settled → ∃ f, s.submitted.getLast? = some f ∧ f.content =
        some ⟨s.commits.length, s.primary, overlayArg s.overlay s.overlay.enabled⟩)) := by
  have hreach : Reachable p s := Reaches.trans h₀ ⟨as, h⟩
  have hst := hreach.staging
  have hs := Mailbox.reachable_sound hreach.mailbox
  refine ⟨fun f hf => ?_, hst.numbers_pairwise hs, fun hnew hprim hfail => ?_⟩
  · obtain ⟨pri, ov, hrest⟩ := hst.content_posted hs hf
    exact ⟨f.number, pri, ov, hrest⟩
  have hshown : (s.Triggered ∨ s.aboutToSchedule = true) ∨
      ∃ f ∈ s.submitted, f.number = s.commits.length := by
    obtain hk | ⟨f, hf, -, c, hc, hn⟩ | hk | hk := kept_of_run hup h₀ hm h hnew
    · rw [hprim] at hk
      cases hk
    · exact .inr ⟨f, hf, by simp [Frame.number, hc, hn]⟩
    · exact absurd hk hfail
    · exact .inl hk
  refine ⟨fun hnot => ?_, fun hset => ?_⟩
  · obtain hk | ⟨f, hf, hn⟩ := hshown
    · exact hk
    · exact absurd hn (hnot f hf)
  · obtain (hk | hk) | ⟨f, hf, hn⟩ := hshown
    · obtain hq | ⟨pc, hr, -⟩ | ⟨-, hin | hp⟩ := hk
      · rw [hset.queued] at hq
        cases hq
      · rw [hset.running] at hr
        cases hr
      · rw [hset.inflight] at hin
        cases hin
      · have hin := hreach.owned.inflight_of_pending hp
        rw [hset.inflight] at hin
        cases hin
    · rw [hset.schedule] at hk
      cases hk
    · exact hst.newest_last hs hprim hf hn

/-- What was not submitted. -/
theorem number_ne {s : Sys} {ns : List Nat} {n : Nat} (hnum : s.submitted.map Frame.number = ns)
    (hn : n ∉ ns) : ∀ f ∈ s.submitted, f.number ≠ n := by
  intro f hf heq
  rw [← hnum, ← heq] at hn
  exact hn (List.mem_map_of_mem hf)

/-- Two flips behind a frame in flight: the first is skipped, the second follows. -/
theorem coalescing_keeps_newest_two_flips :
    ∃ s₀ s, run (step allOn) (firstFlip ++ uploadSteps 8) init = some s₀ ∧
      run (step allOn) (.begin (vgaFrame false) :: commitSteps 3 ++ .begin (vgaFrame false) ::
        commitSteps 3 ++ uploadSteps 3) s₀ = some s ∧ s.commits.length = 4 ∧
      (s.Triggered ∨ s.aboutToSchedule = true) := by
  have hrun₀ : (run (step allOn) (firstFlip ++ uploadSteps 8) init).any (fun s₀ =>
      decide (Meets (step allOn) PipeStays (.begin (vgaFrame false) :: commitSteps 3 ++
        .begin (vgaFrame false) :: commitSteps 3 ++ uploadSteps 3) s₀) &&
      (run (step allOn) (.begin (vgaFrame false) :: commitSteps 3 ++ .begin (vgaFrame false) ::
        commitSteps 3 ++ uploadSteps 3) s₀).any fun s =>
          decide (s₀.commits.length < s.commits.length ∧ s.primary.enabled = true ∧
            s.commits.length ∉ s.failed ∧ s.submitted.map Frame.number = [2] ∧
            s.commits.length = 4)) = true := by
    decide
  obtain ⟨s₀, hs₀, htest⟩ := run_any hrun₀
  obtain ⟨hm, hrun⟩ := Bool.and_eq_true_iff.1 htest
  obtain ⟨s, hs, htest⟩ := run_any hrun
  obtain ⟨hnew, hprim, hfail, hnum, hlen⟩ := of_decide_eq_true htest
  refine ⟨s₀, s, hs₀, hs, hlen, ?_⟩
  obtain ⟨-, -, hk⟩ := coalescing_keeps_newest rfl ⟨_, hs₀⟩ (of_decide_eq_true hm) hs
  exact (hk hnew hprim hfail).1 (number_ne hnum (by rw [hlen]; decide))

/-- A flip that takes the framebuffer off the primary plane. -/
def blankFlip : Commit :=
  { vgaFrame false with primary := some { vgaState vgaFb with fb := none, crtc := false, data := none } }

/-- It is committed behind a frame in flight, `upload_work` runs, and the frame completes. -/
def blankRun : List Act :=
  .begin blankFlip :: commitSteps 3 ++ uploadSteps 2 ++ [.service true, .callback, .callback] ++
    completeSteps 8

/-- The flip passes the check of the plane, and the run of `upload_work` for it ends at
`have_primary`: the commit is not submitted, no upload of it failed, and nothing is left to
run. -/
theorem blank_flip_not_uploaded :
    (∀ helperCheck, primaryAtomicCheck helperCheck
      ⟨some blankFlip.mode, blankFlip.primary, blankFlip.overlay⟩ = .ok ()) ∧
    ∃ s₀ s, run (step allOn) (firstFlip ++ uploadSteps 8) init = some s₀ ∧
      Meets (step allOn) PipeStays blankRun s₀ ∧ run (step allOn) blankRun s₀ = some s ∧
      s.pipeEnabled = true ∧ s₀.commits.length < s.commits.length ∧
      (∀ f ∈ s.submitted, f.number ≠ s.commits.length) ∧ s.commits.length ∉ s.failed ∧
      ¬ s.Triggered ∧ s.Settled := by
  have hrun₀ : (run (step allOn) (firstFlip ++ uploadSteps 8) init).any (fun s₀ =>
      decide (Meets (step allOn) PipeStays blankRun s₀) && (run (step allOn) blankRun s₀).any fun s =>
        s.upload.running.isNone && decide (s.pipeEnabled = true ∧ s₀.commits.length < s.commits.length ∧
          s.submitted.map Frame.number = [2] ∧ s.commits.length = 3 ∧ s.failed = [] ∧
          s.upload.queued = false ∧ s.uploadPending = false ∧ s.dmaInflight = false ∧
          s.aboutToSchedule = false)) = true := by
    decide
  obtain ⟨s₀, hs₀, htest⟩ := run_any hrun₀
  obtain ⟨hm, hrun⟩ := Bool.and_eq_true_iff.1 htest
  obtain ⟨s, hs, htest⟩ := run_any hrun
  simp only [Bool.and_eq_true, Option.isNone_iff_eq_none, decide_eq_true_eq] at htest
  obtain ⟨hnone, hpipe, hnew, hnum, hlen, hfail, hqueued, hpending, hinflight, habout⟩ := htest
  refine ⟨fun _ => rfl, s₀, s, hs₀, of_decide_eq_true hm, hs, hpipe, hnew,
    number_ne hnum (by rw [hlen]; decide), ?_, ?_, ⟨hqueued, hnone, hinflight, habout⟩⟩
  · rw [hfail]
    exact List.not_mem_nil
  · rintro (hq | ⟨pc, hr, -⟩ | ⟨hp, -⟩)
    · rw [hqueued] at hq
      cases hq
    · rw [hnone] at hr
      cases hr
    · rw [hpending] at hp
      cases hp

end FpgaDrm
