import SimpleDisplay.Drm.Coalesce

/-!
# What a commit leaves on the screen

The commit tail flushes before it enables.  A flip leaves its snapshots in the slots,
and with the pipe enabled a trigger or a frame for them.  A modeset does not: the CRTC
enable begins with `fpga_drm_stop_uploads`, which cancels the `upload_work` that the
flush of the same commit has queued and clears the snapshots it has installed:

    flip       flush ─────────────────────────────── snapshots held, upload queued
    modeset   [disable ─ stop ─] flush ─ enable: stop ─ program    nothing left
-/

namespace FpgaDrm

open Work StateMachine

/-! ## The tail of one commit -/

/-- Steps that begin a commit or the removal; all others belong to what has begun. -/
def Act.begins : Act → Bool
  | .begin _ | .remove => true
  | _ => false

namespace Sys

/-- The flush of `c` did to the slots and the record of `s₀` what led to those of `s`. -/
structure Installed (p : Params) (c : Commit) (s₀ s : Sys) : Prop where
  primary : s.primary = flushedPrimary c s₀
  overlay : s.overlay = flushedOverlay p c s₀
  commits : s.commits =
    if changes p c then s₀.commits ++ [(flushedPrimary c s₀, flushedOverlay p c s₀)] else s₀.commits

structure SameSlots (s₀ s : Sys) : Prop where
  primary : s.primary = s₀.primary
  overlay : s.overlay = s₀.overlay
  commits : s.commits = s₀.commits

/-- A commit without a modeset, begun in `s₀`. -/
def FlipTail (p : Params) (c : Commit) (s₀ s : Sys) : Prop :=
  s.pipeEnabled = s₀.pipeEnabled ∧
  match s.commit with
  | .flush c' => c' = c ∧ SameSlots s₀ s
  | .flushed c' _ => c' = c ∧ Installed p c s₀ s
  | .done _ | .idle => Installed p c s₀ s
  | _ => False

/-- A commit with a modeset: from the `stop_uploads` of the enable on the slots are
empty. -/
def ModesetTail (c : Commit) (s : Sys) : Prop :=
  match s.commit with
  | .disable c' | .stop (.disable c') _ | .flush c' | .flushed c' _ | .enable c'
  | .stop (.enable c' _) _ => c' = c
  | .program _ _ | .programmed _ _ | .done _ | .idle => s.primary = .zero ∧ s.overlay = .zero
  | .stop .remove _ => False

/-! ## Lemmas -/

variable {p : Params} {c : Commit} {s₀ s t : Sys}

theorem commitStep_idle {r : ProgramRets} (h : s.commit = .idle) : s.commitStep p r = none := by
  unfold commitStep
  rw [h]

theorem SameSlots.flush (h : SameSlots s₀ s) (hp : t.primary = flushedPrimary c s)
    (ho : t.overlay = flushedOverlay p c s)
    (hc : t.commits = if changes p c then s.commits ++ [(flushedPrimary c s, flushedOverlay p c s)]
      else s.commits) : Installed p c s₀ t := by
  have h1 : flushedPrimary c s = flushedPrimary c s₀ := by
    unfold flushedPrimary
    rw [h.primary]
  have h2 : flushedOverlay p c s = flushedOverlay p c s₀ := by
    unfold flushedOverlay
    rw [h.overlay]
  rw [h1, h2, h.commits] at hc
  exact ⟨hp.trans h1, ho.trans h2, hc⟩

/-- The work items, the engine and the timer touch neither the tail nor the slots. -/
structure Aside (s t : Sys) : Prop where
  commit : t.commit = s.commit
  primary : t.primary = s.primary
  overlay : t.overlay = s.overlay
  commits : t.commits = s.commits
  pipe : t.pipeEnabled = s.pipeEnabled

theorem UploadMove.aside (h : UploadMove p s t) : Aside s t := by
  cases h <;> exact ⟨rfl, rfl, rfl, rfl, rfl⟩

theorem CompleteMove.aside (h : CompleteMove s t) : Aside s t := by
  cases h <;> exact ⟨rfl, rfl, rfl, rfl, rfl⟩

theorem SignalMove.aside (h : SignalMove s t) : Aside s t := by
  cases h <;> exact ⟨rfl, rfl, rfl, rfl, rfl⟩

/-- A step that begins nothing is a step of the tail or aside. -/
theorem step_tail_or_aside {a : Act} (ha : a.begins = false) (h : step p a s = some t) :
    (CommitMove p s t ∧ s.commit ≠ .idle) ∨ Aside s t := by
  cases a with
  | begin c => cases ha
  | remove => cases ha
  | commit r =>
    refine .inl ⟨commitStep_move h, fun hidle => ?_⟩
    have h : s.commitStep p r = some t := h
    rw [commitStep_idle hidle] at h
    cases h
  | upload ret => exact .inr (uploadStep_move h).aside
  | complete => exact .inr (completeStep_move h).aside
  | service ok => exact .inr (serviceStep_move h).aside
  | callback => exact .inr (callbackStep_move h).aside
  | timeoutBegin => exact .inr (timeoutBegin_move h).aside
  | timeout => exact .inr (timeoutStep_move h).aside

/-! ### Flips -/

theorem FlipTail.inFlip (h : FlipTail p c s₀ s) : s.commit.inFlip = true := by
  obtain ⟨-, h⟩ := h
  unfold CommitPc.inFlip
  split <;> first | rfl | skip
  simp_all

theorem FlipTail.aside (h : FlipTail p c s₀ s) (ha : Aside s t) : FlipTail p c s₀ t := by
  obtain ⟨hpipe, h⟩ := h
  refine ⟨ha.pipe.trans hpipe, ?_⟩
  rw [ha.commit]
  split at h
  · exact ⟨h.1, ha.primary.trans h.2.primary, ha.overlay.trans h.2.overlay, ha.commits.trans h.2.commits⟩
  · exact ⟨h.1, ha.primary.trans h.2.primary, ha.overlay.trans h.2.overlay, ha.commits.trans h.2.commits⟩
  · exact ⟨ha.primary.trans h.primary, ha.overlay.trans h.overlay, ha.commits.trans h.commits⟩
  · exact ⟨ha.primary.trans h.primary, ha.overlay.trans h.overlay, ha.commits.trans h.commits⟩
  · exact h

theorem FlipTail.commitMove (hm : c.needsModeset = false) (h : FlipTail p c s₀ s)
    (hne : s.commit ≠ .idle) (hmove : CommitMove p s t) : FlipTail p c s₀ t := by
  obtain ⟨hpipe, h⟩ := h
  cases hmove with
  | flush c' hc =>
    rw [hc] at h
    obtain ⟨rfl, hsame⟩ := h
    exact ⟨hpipe, rfl, hsame.flush rfl rfl rfl⟩
  | queue c' hc =>
    rw [hc] at h
    obtain ⟨rfl, h1, h2, h3⟩ := h
    refine ⟨hpipe, ?_⟩
    simp only [hm, Bool.false_and, Bool.false_eq_true, if_false]
    exact ⟨h1, h2, h3⟩
  | unchanged c' hc =>
    rw [hc] at h
    obtain ⟨rfl, h1, h2, h3⟩ := h
    refine ⟨hpipe, ?_⟩
    simp only [hm, Bool.false_and, Bool.false_eq_true, if_false]
    exact ⟨h1, h2, h3⟩
  | finish c' hc =>
    rw [hc] at h
    exact ⟨hpipe, h.primary, h.overlay, h.commits⟩
  | begin c' hc => exact absurd hc hne
  | remove hc => exact absurd hc hne
  | disable c' hc => rw [hc] at h; exact h.elim
  | stop caller pc hc ht => rw [hc] at h; exact h.elim
  | unknownMode c' hc hm => rw [hc] at h; exact h.elim
  | enable c' mode hc hm => rw [hc] at h; exact h.elim
  | programFailed c' mode r hc hr => rw [hc] at h; exact h.elim
  | program c' mode r hc hr => rw [hc] at h; exact h.elim
  | enabled c' mode hc => rw [hc] at h; exact h.elim

/-! ### Modesets -/

theorem ModesetTail.aside (h : ModesetTail c s) (ha : Aside s t) : ModesetTail c t := by
  unfold ModesetTail at h ⊢
  rw [ha.commit, ha.primary, ha.overlay]
  exact h

theorem ModesetTail.stopMove {caller : StopCaller} {pc : StopPc} (h : ModesetTail c s)
    (hc : s.commit = .stop caller pc) (ht : StopMove s caller pc t) : ModesetTail c t := by
  unfold ModesetTail at h
  rw [hc] at h
  cases caller with
  | disable c' => cases ht <;> exact h
  | enable c' mode =>
    cases ht with
    | clear b => exact ⟨rfl, rfl⟩
    | _ => exact h
  | remove => exact h.elim

theorem ModesetTail.commitMove (hact : c.active = true) (hm : c.needsModeset = true)
    (hmode : (findVideoMode c.mode).isSome = true) (h : ModesetTail c s) (hne : s.commit ≠ .idle)
    (hmove : CommitMove p s t) : ModesetTail c t := by
  have hat : ∀ {pc : CommitPc}, s.commit = pc → ModesetTail c { s with commit := pc } := by
    intro pc hc
    subst hc
    exact h
  cases hmove with
  | stop caller pc hc ht => exact h.stopMove hc ht
  | disable c' hc => exact hat hc
  | flush c' hc => exact hat hc
  | queue c' hc =>
    obtain rfl : c' = c := hat hc
    simp [ModesetTail, hm, hact]
  | unchanged c' hc =>
    obtain rfl : c' = c := hat hc
    simp [ModesetTail, hm, hact]
  | unknownMode c' hc hnone =>
    obtain rfl : c' = c := hat hc
    rw [hnone] at hmode
    cases hmode
  | enable c' mode hc hsome =>
    obtain rfl : c' = c := hat hc
    rfl
  | programFailed c' mode r hc hr => exact hat hc
  | program c' mode r hc hr => exact hat hc
  | enabled c' mode hc => exact hat hc
  | finish c' hc =>
    have hzero : s.primary = .zero ∧ s.overlay = .zero := hat hc
    exact hzero
  | begin c' hc => exact absurd hc hne
  | remove hc => exact absurd hc hne

/-! ### Steps -/

theorem FlipTail.of_begin (hm : c.needsModeset = false) (h : step p (.begin c) s₀ = some t) :
    FlipTail p c s₀ t := by
  rw [(beginCommit_eq h).2, hm, Bool.and_false]
  exact ⟨rfl, rfl, rfl, rfl, rfl⟩

theorem FlipTail.of_step {a : Act} (hm : c.needsModeset = false) (h : FlipTail p c s₀ s)
    (ha : a.begins = false) (hs : step p a s = some t) : FlipTail p c s₀ t := by
  obtain ⟨hmove, hne⟩ | haside := step_tail_or_aside ha hs
  · exact h.commitMove hm hne hmove
  · exact h.aside haside

theorem ModesetTail.of_begin (h : step p (.begin c) s₀ = some t) : ModesetTail c t := by
  rw [(beginCommit_eq h).2]
  unfold ModesetTail
  cases s₀.crtcActive && c.needsModeset <;> rfl

theorem ModesetTail.of_step {a : Act} (hact : c.active = true) (hm : c.needsModeset = true)
    (hmode : (findVideoMode c.mode).isSome = true) (h : ModesetTail c s) (ha : a.begins = false)
    (hs : step p a s = some t) : ModesetTail c t := by
  obtain ⟨hmove, hne⟩ | haside := step_tail_or_aside ha hs
  · exact h.commitMove hact hm hmode hne hmove
  · exact h.aside haside

/-! ### Failed uploads -/

/-- No upload of commit `n` fails: it composes, and the engine accepts it. -/
def UploadsSucceed (n : Nat) (a : Act) (s : Sys) : Prop :=
  match a, s.upload.running with
  | .upload _, some (.locked l) =>
    l.commit = n → composeRet s.activeMode l.primary (overlayArg l.overlay l.haveOverlay) = 0
  | .upload ret, some (.marked l _) => l.commit = n → ret = -EIOCBQUEUED
  | _, _ => True

instance (n : Nat) (a : Act) (s : Sys) : Decidable (UploadsSucceed n a s) := by
  unfold UploadsSucceed
  split <;> infer_instance

theorem uploadStep_failed {n : Nat} {ret : Int} (h : s.uploadStep p ret = some t)
    (hok : UploadsSucceed n (.upload ret) s) (hn : n ∉ s.failed) : n ∉ t.failed := by
  have hcons : ∀ {l : Locals}, l.commit ≠ n → n ∉ l.commit :: s.failed :=
    fun hne hmem => (List.mem_cons.1 hmem).elim (fun h => hne h.symm) hn
  have hrefuse := fun l mode (hr : s.upload.running = some (.marked l mode))
    (hq : ret = -EIOCBQUEUED) => uploadStep_queued hr (hq ▸ h)
  unfold UploadsSucceed at hok
  cases uploadStep_move h with
  | composeFailed l hr hret =>
    rw [hr] at hok
    exact hcons fun heq => hret (hok heq)
  | refuse l mode hr =>
    rw [hr] at hok
    by_cases heq : l.commit = n
    · rw [hrefuse l mode hr (hok heq)]
      exact hn
    · exact hcons heq
  | _ => exact hn

theorem step_failed {n : Nat} {a : Act} (h : step p a s = some t) (hok : UploadsSucceed n a s)
    (hn : n ∉ s.failed) : n ∉ t.failed := by
  have hcommit : CommitMove p s t → n ∉ t.failed := by
    intro h
    cases h with
    | stop caller pc hc ht => cases ht <;> exact hn
    | _ => exact hn
  have hsignal : SignalMove s t → n ∉ t.failed := by
    intro h
    cases h <;> exact hn
  cases a with
  | upload ret => exact uploadStep_failed h hok hn
  | complete => cases completeStep_move h <;> exact hn
  | begin c => exact hcommit (beginCommit_move h)
  | remove => exact hcommit (beginRemove_move h)
  | commit r => exact hcommit (commitStep_move h)
  | service ok => exact hsignal (serviceStep_move h)
  | callback => exact hsignal (callbackStep_move h)
  | timeoutBegin => exact hsignal (timeoutBegin_move h)
  | timeout => exact hsignal (timeoutStep_move h)

end Sys

/-! ## Runs -/

open Sys

variable {p : Params} {c : Commit} {s₀ s : Sys} {as : List Act}

theorem Reachable.failed_le (h : Reachable p s) : ∀ n ∈ s.failed, n ≤ s.commits.length := by
  suffices hall : Staging s ∧ ∀ n ∈ s.failed, n ≤ s.commits.length from hall.2
  refine Reachable.induction (I := fun s => Staging s ∧ ∀ n ∈ s.failed, n ≤ s.commits.length)
    ⟨.init, fun n h => by cases h⟩ (fun s t ⟨hst, hi⟩ hmove => ⟨hst.move hmove, ?_⟩) h
  have hcons : ∀ {pc l}, s.upload.running = some pc → pc.locals = some l →
      ∀ n ∈ l.commit :: s.failed, n ≤ s.commits.length := by
    intro pc l hr hl n hn
    obtain rfl | hn := List.mem_cons.1 hn
    · have hlt := (List.getElem?_eq_some_iff.1 (hst.locals pc l hr hl).pair).1
      omega
    · exact hi n hn
  cases hmove with
  | upload h =>
    cases h with
    | composeFailed l hr hret => exact hcons hr rfl
    | refuse l mode hr => exact hcons hr rfl
    | _ => exact hi
  | complete h => cases h <;> exact hi
  | signal h => cases h <;> exact hi
  | commit h =>
    cases h with
    | stop caller pc hc ht => cases ht <;> exact hi
    | flush c hc =>
      intro n hn
      have hle := hi n hn
      show n ≤ List.length (if _ then _ else _)
      split
      · rw [List.length_append]
        omega
      · exact hle
    | _ => exact hi

/-- A commit without a modeset, up to any point before the next begins. -/
theorem flipTail_of_run (hm : c.needsModeset = false) (has : ∀ a ∈ as, a.begins = false)
    (h : run (step p) (.begin c :: as) s₀ = some s) : FlipTail p c s₀ s := by
  obtain ⟨s₁, h₁, hrun⟩ := run_cons_some.1 h
  exact run_invariant_of_meets (fun _ _ _ hi ha ht => hi.of_step hm ha ht) (.of_begin hm h₁)
    (.of_labels has s₁) hrun

theorem modesetTail_of_run (hact : c.active = true) (hm : c.needsModeset = true)
    (hmode : (findVideoMode c.mode).isSome = true) (has : ∀ a ∈ as, a.begins = false)
    (h : run (step p) (.begin c :: as) s₀ = some s) : ModesetTail c s := by
  obtain ⟨s₁, h₁, hrun⟩ := run_cons_some.1 h
  exact run_invariant_of_meets (fun _ _ _ hi ha ht => hi.of_step hact hm hmode ha ht)
    (.of_begin h₁) (.of_labels has s₁) hrun

/-- A commit without a modeset keeps the pipe enabled. -/
theorem pipeStays_of_run (hm : c.needsModeset = false) (hpipe : s₀.pipeEnabled = true)
    (has : ∀ a ∈ as, a.begins = false) (h : run (step p) (.begin c :: as) s₀ = some s) :
    Meets (step p) PipeStays (.begin c :: as) s₀ := by
  obtain ⟨s₁, h₁, hrun⟩ := run_cons_some.1 h
  refine ⟨⟨hpipe, by rw [(beginCommit_eq h₁).1]; rfl⟩, fun t ht => ?_⟩
  obtain rfl : s₁ = t := Option.some.inj (h₁.symm.trans ht)
  exact Meets.imp_of_invariant (fun _ _ _ hi ha ht => hi.of_step hm ha ht)
    (fun a s hi _ => ⟨hi.1.trans hpipe, hi.inFlip⟩) (FlipTail.of_begin hm h₁) (.of_labels has s₁)

/-- Nothing of a commit's own uploads failed. -/
theorem not_failed_of_run {n : Nat} (hn : n ∉ s₀.failed) (hm : Meets (step p) (UploadsSucceed n) as s₀)
    (h : run (step p) as s₀ = some s) : n ∉ s.failed :=
  run_invariant_of_meets (I := fun s => n ∉ s.failed) (fun _ _ _ hi ha ht => step_failed ht ha hi)
    hn hm h

/-! ## Top theorem -/

theorem Reachable.newest_content (h : Reachable p s) (hpri : s.primary.enabled = true) {f : Frame}
    (hf : f ∈ s.submitted) (hn : f.number = s.commits.length) : f.content =
      some ⟨s.commits.length, s.primary, overlayArg s.overlay s.overlay.enabled⟩ := by
  obtain ⟨pri, ov, -, hpair, hc⟩ :=
    h.staging.content_posted (Mailbox.reachable_sound h.mailbox) hf
  have hslots := h.staging.slots hpri
  rw [List.getLast?_eq_getElem?, ← hn, hpair] at hslots
  obtain ⟨rfl, rfl⟩ := Prod.mk.inj (Option.some.inj hslots)
  rw [hc, hn]

/-- **Exactly the flips keep their planes.**  When the tail of a commit with a primary
framebuffer has ended, the slots hold its snapshots if and only if it was no modeset; and
when it was none, the pipe was enabled and its upload does not fail, a trigger is left or
the pair has been submitted. -/
theorem commit_keeps_planes_iff {st : PlaneState} (h₀ : Reachable p s₀) (hact : c.active = true)
    (hst : c.primary = some st) (hfb : (snapshotOf st).enabled = true)
    (hmode : (findVideoMode c.mode).isSome = true) (has : ∀ a ∈ as, a.begins = false)
    (h : run (step p) (.begin c :: as) s₀ = some s) (hend : s.commit = .idle) :
    ((s.primary = snapshotOf st ∧ s.overlay = flushedOverlay p c s₀) ↔ c.needsModeset = false) ∧
    (c.needsModeset = false → p.uploadEnabled = true → s₀.pipeEnabled = true →
      Meets (step p) (UploadsSucceed (s₀.commits.length + 1)) (.begin c :: as) s₀ →
      s.Triggered ∨ s.aboutToSchedule = true ∨ ∃ f ∈ s.submitted, f.mode = s.activeMode ∧
        f.content = some ⟨s.commits.length, s.primary, overlayArg s.overlay s.overlay.enabled⟩) := by
  have hreach : Reachable p s := Reaches.trans h₀ ⟨_, h⟩
  have hflushed : flushedPrimary c s₀ = snapshotOf st := by
    unfold flushedPrimary
    rw [hst]
  have hinst : c.needsModeset = false → Installed p c s₀ s := by
    intro hm
    have hi := (flipTail_of_run hm has h).2
    rwa [hend] at hi
  refine ⟨⟨fun hslots => ?_, fun hm => ?_⟩, fun hm hup hpipe hok => ?_⟩
  · cases hm : c.needsModeset with
    | false => rfl
    | true =>
      -- the enable has cleared what the flush installed
      have hi := modesetTail_of_run hact hm hmode has h
      unfold ModesetTail at hi
      rw [hend] at hi
      rw [← hslots.1, hi.1] at hfb
      cases hfb
  · have hi := hinst hm
    exact ⟨hi.primary.trans hflushed, hi.overlay⟩
  · have hi := hinst hm
    have hpri : s.primary.enabled = true := by
      rw [hi.primary, hflushed]
      exact hfb
    have hlen : s.commits.length = s₀.commits.length + 1 := by
      rw [hi.commits, if_pos (by simp [changes, hst]), List.length_append, List.length_singleton]
    have hnew : s.commits.length ∉ s.failed := by
      rw [hlen]
      refine not_failed_of_run (fun hmem => ?_) hok h
      have := h₀.failed_le _ hmem
      omega
    obtain hk | ⟨f, hf, hfm, fc, hc, hn⟩ | hk | hk | hk :=
      kept_of_run hup h₀ (pipeStays_of_run hm hpipe has h) h (by omega)
    · rw [hpri] at hk
      cases hk
    · have hnum : f.number = s.commits.length := by simp [Frame.number, hc, hn]
      exact .inr (.inr ⟨f, hf, hfm, hreach.newest_content hpri hf hnum⟩)
    · exact absurd hk hnew
    · exact .inl hk
    · exact .inr (.inl hk)

/-- A flip behind the first modeset: its framebuffer is held, and its upload is due. -/
theorem commit_keeps_planes_iff_flip :
    ∃ s₀ s, run (step allOn) (.begin (vgaFrame true) :: commitSteps 12) init = some s₀ ∧
      run (step allOn) (.begin (vgaFrame false) :: commitSteps 3) s₀ = some s ∧
      s.primary = snapshotOf (vgaState vgaFb) ∧ s.overlay = s₀.overlay ∧
      (s.Triggered ∨ s.aboutToSchedule = true ∨ ∃ f ∈ s.submitted, f.mode = s.activeMode ∧
        f.content =
          some ⟨s.commits.length, s.primary, overlayArg s.overlay s.overlay.enabled⟩) := by
  have hrun₀ : (run (step allOn) (.begin (vgaFrame true) :: commitSteps 12) init).any (fun s₀ =>
      s₀.pipeEnabled &&
      decide (Meets (step allOn) (UploadsSucceed (s₀.commits.length + 1))
        (.begin (vgaFrame false) :: commitSteps 3) s₀) &&
      (run (step allOn) (.begin (vgaFrame false) :: commitSteps 3) s₀).any (·.commit.isIdle)) =
      true := by
    decide
  obtain ⟨s₀, hs₀, htest⟩ := run_any hrun₀
  obtain ⟨htest, hrun⟩ := Bool.and_eq_true_iff.1 htest
  obtain ⟨hpipe, hok⟩ := Bool.and_eq_true_iff.1 htest
  obtain ⟨s, hs, hidle⟩ := run_any hrun
  obtain ⟨hiff, hdue⟩ := commit_keeps_planes_iff (p := allOn) (c := vgaFrame false) ⟨_, hs₀⟩ rfl rfl
    (by decide) (by decide) (by decide) hs (CommitPc.idle_of_isIdle hidle)
  obtain ⟨hpri, hov⟩ := hiff.2 rfl
  exact ⟨s₀, s, hs₀, hs, hpri, hov, hdue rfl rfl hpipe (of_decide_eq_true hok)⟩

/-- The first modeset of all, programmed without an error: its framebuffer is gone, and
nothing is left to show it. -/
theorem modeset_drops_planes :
    ∃ s, run (step allOn) (.begin (vgaFrame true) :: commitSteps 12) init = some s ∧
      s.commit = .idle ∧ s.pipeEnabled = true ∧ (snapshotOf (vgaState vgaFb)).fb = some vgaFb ∧
      s.primary.fb = none ∧ s.upload.queued = false ∧ s.upload.running.isNone = true ∧
      s.uploadPending = false ∧ s.submitted.length = 0 := by
  have hrun : (run (step allOn) (.begin (vgaFrame true) :: commitSteps 12) init).any (fun s =>
      s.commit.isIdle && decide (s.pipeEnabled = true ∧ (snapshotOf (vgaState vgaFb)).fb = some vgaFb ∧
        s.primary.fb = none ∧ s.upload.queued = false ∧ s.upload.running.isNone = true ∧
        s.uploadPending = false ∧ s.submitted.length = 0)) = true := by
    decide
  obtain ⟨s, hs, htest⟩ := run_any hrun
  obtain ⟨hidle, htest⟩ := Bool.and_eq_true_iff.1 htest
  exact ⟨s, hs, CommitPc.idle_of_isIdle hidle, of_decide_eq_true htest⟩

end FpgaDrm
