import SimpleDisplay.Drm.Ownership

/-!
# The active mode

A modeset disables the pipe, stops the uploads, and programs and enables the new mode.
`active_mode` and the three blocks change only while `pipe_enabled` is down and no run
of `upload_work` holds snapshots (`ModeOk`), so that a frame is always composed and
submitted for the mode the pipeline shows.
-/

namespace FpgaDrm

open Work StateMachine

/-! ## Where the commit tail can be -/

/-- `pipe_enabled` and the CRTC's state at each point of the tail. -/
def CommitPc.Tail (pipe active : Bool) : CommitPc → Prop
  | .idle | .done _ => active = false → pipe = false
  | .disable c => c.needsModeset = true ∧ c.active = active
  | .stop (.disable c) _ => pipe = false ∧ c.needsModeset = true ∧ c.active = active
  | .flush c | .flushed c _ =>
    c.active = active ∧ (c.needsModeset = true → pipe = false) ∧ (active = false → pipe = false)
  | .enable _ | .stop (.enable _ _) _ | .program _ _ | .programmed _ _ =>
    pipe = false ∧ active = true
  | .stop .remove _ => pipe = false ∧ active = false

def CommitPc.inDisable : CommitPc → Bool
  | .stop (.disable _) _ => true
  | _ => false

/-- The CRTC disable is about to wait for `upload_work`. -/
def CommitPc.awaitsUpload : CommitPc → Bool
  | .stop (.disable _) .cancelUpload => true
  | _ => false

/-- The mode that is programmed and not yet active. -/
def CommitPc.programmedMode : CommitPc → Option VideoMode
  | .programmed _ mode => some mode
  | _ => none

/-- The mode a run of `upload_work` submits for. -/
def UploadPc.mode : UploadPc → Option VideoMode
  | .prepared _ mode | .marked _ mode => some mode
  | _ => none

def Hw.all (mode : VideoMode) : Hw := ⟨some mode, some mode, some mode⟩

namespace Sys

/-- From the return of `fpga_drm_stop_uploads` in the CRTC disable until the CRTC enable
sets `pipe_enabled`. -/
def InWindow (s : Sys) : Prop := s.pipeEnabled = false ∧ s.commit.inDisable = false

/-- The pipe is disabled, and the run of `upload_work` that may have seen it enabled has
been waited for. -/
def Halted (s : Sys) : Prop :=
  s.pipeEnabled = false ∧ s.commit.awaitsUpload = false

theorem InWindow.halted {s : Sys} (h : s.InWindow) : s.Halted := by
  obtain ⟨h1, h2⟩ := h
  refine ⟨h1, ?_⟩
  unfold CommitPc.inDisable at h2
  unfold CommitPc.awaitsUpload
  split
  · next hc => rw [hc] at h2; cases h2
  · rfl

/-- A run of `upload_work` holds snapshots. -/
def HoldsSnapshots (s : Sys) : Prop :=
  ∃ pc l, s.upload.running = some pc ∧ pc.locals = some l

end Sys

structure ModeOk (p : Params) (s : Sys) : Prop where
  tail : s.commit.Tail s.pipeEnabled s.crtcActive
  quiet : s.Halted → ∀ pc, s.upload.running = some pc → pc = .entry
  mode : ∀ pc mode, s.upload.running = some pc → pc.mode = some mode → mode = s.activeMode
  hw : p.configurePipeline = true → s.pipeEnabled = true ∨ s.HoldsSnapshots → s.hw = .all s.activeMode
  programmed : ∀ mode, s.commit.programmedMode = some mode → p.configurePipeline = true →
    s.hw = .all mode
  frames : ∀ f ∈ s.submitted, f.lineSize = f.mode.lineBytes ∧ f.lineCount = f.mode.drm.vdisplay ∧
    (p.configurePipeline = true → f.hw = .all f.mode)

namespace ModeOk

open Sys

variable {p : Params} {s t : Sys}

theorem init : ModeOk p init where
  tail _ := rfl
  quiet _ _ h := by cases h
  mode _ _ h := by cases h
  hw _ h := by
    obtain h | ⟨pc, l, h, -⟩ := h
    · cases h
    · cases h
  programmed _ h := by cases h
  frames _ h := by cases h

/-- In the window no run of `upload_work` holds snapshots. -/
theorem no_snapshots (hi : ModeOk p s) (hh : s.Halted) : ¬ s.HoldsSnapshots := by
  rintro ⟨pc, l, hr, hl⟩
  rw [hi.quiet hh pc hr] at hl
  cases hl

/-- A move of `upload_work` past its entry is made outside the window. -/
theorem not_halted (hi : ModeOk p s) {pc : UploadPc} (hr : s.upload.running = some pc)
    (hne : pc ≠ .entry) : ¬ s.Halted :=
  fun hh => hne (hi.quiet hh pc hr)

/-- What leaves the commit tail, the modes and `upload_work` alone. -/
theorem same (hi : ModeOk p s) (hu : t.upload.running = s.upload.running)
    (hc : t.commit = s.commit) (hpipe : t.pipeEnabled = s.pipeEnabled)
    (ha : t.crtcActive = s.crtcActive) (hm : t.activeMode = s.activeMode) (hhw : t.hw = s.hw)
    (hs : t.submitted = s.submitted) : ModeOk p t where
  tail := by rw [hc, hpipe, ha]; exact hi.tail
  quiet hh pc hr := hi.quiet (by unfold Halted at hh ⊢; rwa [hc, hpipe] at hh) pc (hu ▸ hr)
  mode pc m hr := by rw [hm]; exact hi.mode pc m (hu ▸ hr)
  hw hconf h := by
    rw [hhw, hm]
    unfold HoldsSnapshots at h
    rw [hpipe, hu] at h
    exact hi.hw hconf h
  programmed mode h := by rw [hhw]; exact hi.programmed mode (hc ▸ h)
  frames := by rw [hs]; exact hi.frames

/-- A run of `upload_work` that returns. -/
theorem ended (hi : ModeOk p s) (hu : t.upload.running = none) (hc : t.commit = s.commit)
    (hpipe : t.pipeEnabled = s.pipeEnabled) (ha : t.crtcActive = s.crtcActive)
    (hm : t.activeMode = s.activeMode) (hhw : t.hw = s.hw) (hs : t.submitted = s.submitted) :
    ModeOk p t where
  tail := by rw [hc, hpipe, ha]; exact hi.tail
  quiet _ pc hr := by rw [hu] at hr; cases hr
  mode pc m hr := by rw [hu] at hr; cases hr
  hw hconf h := by
    obtain h | ⟨pc, l, hr, -⟩ := h
    · rw [hhw, hm]
      exact hi.hw hconf (.inl (hpipe ▸ h))
    · rw [hu] at hr
      cases hr
  programmed mode h := by rw [hhw]; exact hi.programmed mode (hc ▸ h)
  frames := by rw [hs]; exact hi.frames

/-- A run of `upload_work` that goes on past its entry: the modes are those of the
enabled pipe. -/
theorem goto (hi : ModeOk p s) {pc : UploadPc} (hr : t.upload.running = some pc)
    (hnh : ¬ s.Halted) (hhold : s.pipeEnabled = true ∨ s.HoldsSnapshots)
    (hmode : ∀ mode, pc.mode = some mode → mode = s.activeMode)
    (hc : t.commit = s.commit) (hpipe : t.pipeEnabled = s.pipeEnabled)
    (ha : t.crtcActive = s.crtcActive) (hm : t.activeMode = s.activeMode) (hhw : t.hw = s.hw)
    (hs : ∀ f ∈ t.submitted, f ∈ s.submitted ∨
      (f.lineSize = f.mode.lineBytes ∧ f.lineCount = f.mode.drm.vdisplay ∧
        f.mode = s.activeMode ∧ f.hw = s.hw)) : ModeOk p t where
  tail := by rw [hc, hpipe, ha]; exact hi.tail
  quiet hh := by
    unfold Halted at hh
    rw [hc, hpipe] at hh
    exact absurd hh hnh
  mode pc' m hr' hm' := by
    rw [hr] at hr'
    cases hr'
    rw [hm]
    exact hmode m hm'
  hw hconf _ := by
    rw [hhw, hm]
    exact hi.hw hconf hhold
  programmed mode h := by rw [hhw]; exact hi.programmed mode (hc ▸ h)
  frames f hf := by
    obtain hf | ⟨h1, h2, h3, h4⟩ := hs f hf
    · exact hi.frames f hf
    · exact ⟨h1, h2, fun hconf => by rw [h4, h3]; exact hi.hw hconf hhold⟩

theorem uploadMove (hi : ModeOk p s) (h : UploadMove p s t) : ModeOk p t := by
  have hold : ∀ f ∈ s.submitted, f ∈ s.submitted ∨
      (f.lineSize = f.mode.lineBytes ∧ f.lineCount = f.mode.drm.vdisplay ∧
        f.mode = s.activeMode ∧ f.hw = s.hw) := fun f hf => .inl hf
  cases h with
  | start hr hq =>
    refine ⟨hi.tail, fun _ pc h => ?_, fun pc m h hm => ?_, fun hconf h => ?_, hi.programmed,
      hi.frames⟩
    · cases h
      rfl
    · cases h
      cases hm
    · obtain h | ⟨pc, l, hr, hl⟩ := h
      · exact hi.hw hconf (.inl h)
      · cases hr
        cases hl
  | captureNone hr hc => exact hi.ended rfl rfl rfl rfl rfl rfl rfl
  | capture hr hp he =>
    refine hi.goto (WorkItem.goto_running_of_some hr) (fun hh => ?_) (.inl hp) nofun
      rfl rfl rfl rfl rfl hold
    rw [hh.1] at hp
    cases hp
  | skip l hr he => exact hi.ended rfl rfl rfl rfl rfl rfl rfl
  | busy l hr he hl hb => exact hi.ended rfl rfl rfl rfl rfl rfl rfl
  | lock l hr he hl hb =>
    exact hi.goto (WorkItem.goto_running_of_some hr) (hi.not_halted hr nofun)
      (.inr ⟨_, l, hr, rfl⟩) nofun rfl rfl rfl rfl rfl hold
  | composeFailed l hr => exact hi.ended rfl rfl rfl rfl rfl rfl rfl
  | composed l hr n =>
    exact hi.goto (WorkItem.goto_running_of_some hr) (hi.not_halted hr nofun)
      (.inr ⟨_, l, hr, rfl⟩) nofun rfl rfl rfl rfl rfl hold
  | prepare l hr =>
    refine hi.goto (WorkItem.goto_running_of_some hr) (hi.not_halted hr nofun)
      (.inr ⟨_, l, hr, rfl⟩) (fun m hm => ?_) rfl rfl rfl rfl rfl hold
    cases hm
    rfl
  | inflight l mode hr =>
    exact hi.goto (WorkItem.goto_running_of_some hr) (hi.not_halted hr nofun)
      (.inr ⟨_, l, hr, rfl⟩) (fun m hm => hi.mode _ m hr hm) rfl rfl rfl rfl rfl hold
  | refuse l mode hr =>
    exact hi.goto (WorkItem.goto_running_of_some hr) (hi.not_halted hr nofun)
      (.inr ⟨_, l, hr, rfl⟩) nofun rfl rfl rfl rfl rfl hold
  | accept l mode hr hcb =>
    refine hi.goto (WorkItem.goto_running_of_some hr) (hi.not_halted hr nofun)
      (.inr ⟨_, l, hr, rfl⟩) nofun rfl rfl rfl rfl rfl fun f hf => ?_
    obtain hf | hf := List.mem_append.1 hf
    · exact .inl hf
    · rw [List.mem_singleton.1 hf]
      exact .inr ⟨rfl, rfl, hi.mode _ mode hr rfl, rfl⟩
  | rollBack l hr => exact hi.ended rfl rfl rfl rfl rfl rfl rfl
  | arm l hr => exact hi.ended rfl rfl rfl rfl rfl rfl rfl

theorem completeMove (hi : ModeOk p s) (h : CompleteMove s t) : ModeOk p t := by
  cases h with
  | count ret up hr =>
    refine hi.same ?_ rfl rfl rfl rfl rfl rfl
    cases up <;> simp [countFinish]
  | _ => exact hi.same rfl rfl rfl rfl rfl rfl rfl

theorem signalMove (hi : ModeOk p s) (h : SignalMove s t) : ModeOk p t := by
  cases h <;> exact hi.same rfl rfl rfl rfl rfl rfl rfl

/-- A move of the commit tail that changes neither the modes nor what it may halt. -/
theorem advance (hi : ModeOk p s) (hu : t.upload.running = s.upload.running)
    (htail : t.commit.Tail t.pipeEnabled t.crtcActive) (hpipe : t.pipeEnabled = s.pipeEnabled)
    (hh : s.commit.awaitsUpload = false) (hp : t.commit.programmedMode = none)
    (hm : t.activeMode = s.activeMode) (hhw : t.hw = s.hw) (hs : t.submitted = s.submitted) :
    ModeOk p t where
  tail := htail
  quiet h pc hr := hi.quiet ⟨hpipe ▸ h.1, hh⟩ pc (hu ▸ hr)
  mode pc m hr := by rw [hm]; exact hi.mode pc m (hu ▸ hr)
  hw hconf h := by
    rw [hhw, hm]
    unfold HoldsSnapshots at h
    rw [hpipe, hu] at h
    exact hi.hw hconf h
  programmed mode h := by rw [hp] at h; cases h
  frames := by rw [hs]; exact hi.frames

/-- A mode is programmed, as a whole, when all its stages succeed. -/
theorem programMode_ok {mode : VideoMode} {r : ProgramRets} {hw : Hw}
    (hconf : p.configurePipeline = true) (h : (programMode p mode r hw).1 = 0) :
    (programMode p mode r hw).2 = .all mode := by
  unfold programMode at h ⊢
  simp only [hconf, Bool.not_true, Bool.false_eq_true, if_false] at h ⊢
  split at h
  · next h1 => exact absurd h h1
  · split at h
    · next h2 => exact absurd h h2
    · split at h
      · next h3 => exact absurd h h3
      · next h1 h2 h3 =>
        rw [if_neg h1, if_neg h2, if_neg h3]
        split <;> rfl

/-- A move in the window that changes a mode: nothing depends on it. -/
theorem reprogram (hi : ModeOk p s) (hh : s.Halted) (hu : t.upload.running = s.upload.running)
    (htail : t.commit.Tail t.pipeEnabled t.crtcActive)
    (hhw : p.configurePipeline = true → t.pipeEnabled = true → t.hw = .all t.activeMode)
    (hp : ∀ mode, t.commit.programmedMode = some mode → p.configurePipeline = true → t.hw = .all mode)
    (hs : t.submitted = s.submitted) : ModeOk p t where
  tail := htail
  quiet _ pc hr := hi.quiet hh pc (hu ▸ hr)
  mode pc m hr hm := by
    rw [hi.quiet hh pc (hu ▸ hr)] at hm
    cases hm
  hw hconf h := by
    obtain h | ⟨pc, l, hr, hl⟩ := h
    · exact hhw hconf h
    · exact absurd ⟨pc, l, hu ▸ hr, hl⟩ (hi.no_snapshots hh)
  programmed := hp
  frames := by rw [hs]; exact hi.frames

/-- The tail is in the window while a mode is programmed. -/
theorem halted_of_program (hi : ModeOk p s) {c : Commit} {mode : VideoMode}
    (hc : s.commit = .program c mode ∨ s.commit = .programmed c mode) :
    s.Halted ∧ s.crtcActive = true := by
  have htail := hi.tail
  obtain hc | hc := hc
  · rw [hc] at htail
    exact ⟨⟨htail.1, by rw [hc]; rfl⟩, htail.2⟩
  · rw [hc] at htail
    exact ⟨⟨htail.1, by rw [hc]; rfl⟩, htail.2⟩

/-- The tail after the flush: to the enable of a modeset, else to the end. -/
theorem afterFlush (hi : ModeOk p s) {c : Commit} {b : Bool} (hc : s.commit = .flushed c b)
    (hu : t.upload.running = s.upload.running)
    (ht : t.commit = if c.needsModeset && c.active then .enable c else .done c)
    (hpipe : t.pipeEnabled = s.pipeEnabled) (ha : t.crtcActive = s.crtcActive)
    (hm : t.activeMode = s.activeMode) (hhw : t.hw = s.hw) (hs : t.submitted = s.submitted) :
    ModeOk p t := by
  have htail := hi.tail
  rw [hc] at htail
  obtain ⟨h1, h2, h3⟩ := htail
  by_cases hms : (c.needsModeset && c.active) = true
  · obtain ⟨hn, hact⟩ := Bool.and_eq_true_iff.1 hms
    rw [if_pos hms] at ht
    refine hi.advance hu ?_ hpipe (by rw [hc]; rfl) (by rw [ht]; rfl) hm hhw hs
    rw [ht, hpipe, ha]
    exact ⟨h2 hn, h1 ▸ hact⟩
  · rw [if_neg hms] at ht
    refine hi.advance hu ?_ hpipe (by rw [hc]; rfl) (by rw [ht]; rfl) hm hhw hs
    rw [ht, hpipe, ha]
    exact h3

theorem stopMove (hi : ModeOk p s) {caller : StopCaller} {pc : StopPc}
    (hc : s.commit = .stop caller pc) (h : StopMove s caller pc t) : ModeOk p t := by
  have htail : ∀ pc', (CommitPc.stop caller pc').Tail s.pipeEnabled s.crtcActive := by
    have := hi.tail
    rw [hc] at this
    cases caller <;> exact fun _ => this
  have hlater : pc ≠ .cancelUpload → s.commit.awaitsUpload = false := by
    intro hne
    rw [hc]
    cases caller <;> cases pc <;> first | rfl | exact absurd rfl hne
  cases h with
  | cancelUpload hu =>
    have hnone : ∀ pc, s.upload.running = some pc → False := by
      intro pc hr
      rw [hu] at hr
      cases hr
    refine ⟨htail _, fun _ pc hr => (hnone pc hr).elim, fun pc m hr => (hnone pc hr).elim,
      fun hconf h => ?_, fun mode h => ?_, hi.frames⟩
    · obtain h | ⟨pc, l, hr, -⟩ := h
      · exact hi.hw hconf (.inl h)
      · exact (hnone pc hr).elim
    · cases h
  | clear b =>
    have ht := htail .clear
    have hlater := hlater (by simp)
    cases caller with
    | disable c => exact hi.advance rfl ⟨ht.2.2, fun _ => ht.1, fun _ => ht.1⟩ rfl hlater rfl rfl rfl rfl
    | enable c mode => exact hi.advance rfl ht rfl hlater rfl rfl rfl rfl
    | remove => exact hi.advance rfl (fun _ => ht.1) rfl hlater rfl rfl rfl rfl
  | _ => exact hi.advance rfl (htail _) rfl (hlater (by simp)) rfl rfl rfl rfl

/-- A commit without a disable finds the pipe off, or leaves the mode and `active`. -/
theorem flip_of_pipe (hi : ModeOk p s) {c : Commit} (hc : s.commit = .idle)
    (ha : c.needsModeset = false → c.active = s.crtcActive)
    (hm : ¬ (s.crtcActive && c.needsModeset) = true) :
    (c.needsModeset = true → s.pipeEnabled = false) ∧ (c.active = false → s.pipeEnabled = false) := by
  have htail := hi.tail
  rw [hc] at htail
  by_cases hact : s.crtcActive = true
  · have hn : c.needsModeset = false := by simpa [hact] using hm
    refine ⟨fun h => ?_, fun h => ?_⟩
    · rw [hn] at h
      cases h
    · rw [ha hn, hact] at h
      cases h
  · have hoff : s.pipeEnabled = false := htail (by simpa using hact)
    exact ⟨fun _ => hoff, fun _ => hoff⟩

theorem commitMove (hi : ModeOk p s) (h : CommitMove p s t) : ModeOk p t := by
  have htail := hi.tail
  cases h with
  | disable c hc =>
    rw [hc] at htail
    refine ⟨⟨rfl, htail⟩, fun h => ?_, hi.mode, fun hconf h => ?_, fun mode h => ?_, hi.frames⟩
    · cases h.2
    · obtain h | h := h
      · cases h
      · exact hi.hw hconf (.inr h)
    · cases h
  | stop caller pc hc ht => exact hi.stopMove hc ht
  | flush c hc =>
    rw [hc] at htail
    exact hi.advance rfl htail rfl (by rw [hc]; rfl) rfl rfl rfl rfl
  | queue c hc => exact hi.afterFlush hc (WorkItem.schedule_running _) rfl rfl rfl rfl rfl rfl
  | unchanged c hc => exact hi.afterFlush hc rfl rfl rfl rfl rfl rfl rfl
  | unknownMode c hc hm =>
    rw [hc] at htail
    exact hi.advance rfl (fun _ => htail.1) rfl (by rw [hc]; rfl) rfl rfl rfl rfl
  | enable c mode hc hm =>
    rw [hc] at htail
    exact hi.advance rfl htail rfl (by rw [hc]; rfl) rfl rfl rfl rfl
  | programFailed c mode r hc hr =>
    obtain ⟨hh, ha⟩ := hi.halted_of_program (.inl hc)
    refine hi.reprogram hh rfl (fun _ => hh.1) (fun _ h => ?_) (fun mode h => ?_) rfl
    · rw [hh.1] at h
      cases h
    · cases h
  | program c mode r hc hr =>
    obtain ⟨hh, ha⟩ := hi.halted_of_program (.inl hc)
    refine hi.reprogram hh rfl ⟨hh.1, ha⟩ (fun _ h => ?_) (fun mode' h hconf => ?_) rfl
    · rw [hh.1] at h
      cases h
    · cases h
      exact programMode_ok hconf hr
  | enabled c mode hc =>
    obtain ⟨hh, ha⟩ := hi.halted_of_program (.inr hc)
    refine hi.reprogram hh rfl (fun h => ?_) (fun hconf _ => ?_) (fun mode h => ?_) rfl
    · rw [ha] at h
      cases h
    · exact hi.programmed mode (by rw [hc]; rfl) hconf
    · cases h
  | finish c hc =>
    rw [hc] at htail
    exact hi.advance rfl htail rfl (by rw [hc]; rfl) rfl rfl rfl rfl
  | begin c hc hrem ha =>
    rw [hc] at htail
    have hlater : s.commit.awaitsUpload = false := by rw [hc]; rfl
    by_cases hm : (s.crtcActive && c.needsModeset) = true
    · obtain ⟨-, hn⟩ := Bool.and_eq_true_iff.1 hm
      rw [if_pos hm]
      exact hi.advance rfl ⟨hn, rfl⟩ rfl hlater rfl rfl rfl rfl
    · rw [if_neg hm]
      obtain ⟨hn, hact⟩ := hi.flip_of_pipe hc (fun hn => (ha hn).1) hm
      exact hi.advance rfl ⟨rfl, hn, hact⟩ rfl hlater rfl rfl rfl rfl
  | remove hc ha =>
    rw [hc] at htail
    exact hi.advance rfl ⟨htail ha, ha⟩ rfl (by rw [hc]; rfl) rfl rfl rfl rfl

theorem move (hi : ModeOk p s) (h : Move p s t) : ModeOk p t := by
  cases h with
  | upload h => exact hi.uploadMove h
  | complete h => exact hi.completeMove h
  | signal h => exact hi.signalMove h
  | commit h => exact hi.commitMove h

end ModeOk

theorem Reachable.modeOk {p : Params} {s : Sys} (h : Reachable p s) : ModeOk p s :=
  Sys.Reachable.induction .init (fun _ _ => ModeOk.move) h

end FpgaDrm
