import SimpleDisplay.Lib.Mailbox
import SimpleDisplay.Drm.ActiveMode

/-!
# The mailbox behind the snapshots

Commits post pairs of snapshots, `upload_work` shows them: seen through `Sys.mailbox`,
every run of the driver is a run of a coalescing mailbox (`Reachable.mailbox`), so that
a submitted frame is composed from the pair of a single commit, and no frame goes back
behind an earlier one.
-/

namespace FpgaDrm

open Work StateMachine

/-! ## The mailbox -/

/-- What a pair of snapshots shows: the primary, and the overlay when it is enabled. -/
def picture (pair : PlaneSnapshot × PlaneSnapshot) : PlaneSnapshot × Option PlaneSnapshot :=
  (pair.1, overlayArg pair.2 pair.2.enabled)

def Frame.shown (f : Frame) : Option (Nat × (PlaneSnapshot × Option PlaneSnapshot)) :=
  f.content.map fun c => (c.commit, (c.primary, c.overlay))

/-- The commits as posts, the submitted frames as what is shown of them. -/
def Sys.mailbox (s : Sys) : Mailbox (PlaneSnapshot × Option PlaneSnapshot) :=
  ⟨s.commits.map picture, s.submitted.filterMap Frame.shown⟩

def Locals.staged (l : Locals) : Staged :=
  ⟨l.commit, l.primary, overlayArg l.overlay l.haveOverlay⟩

/-- The local copies are the pair of commit `l.commit`. -/
structure Locals.Of (l : Locals) (commits : List (PlaneSnapshot × PlaneSnapshot)) : Prop where
  pos : 0 < l.commit
  pair : commits[l.commit - 1]? = some (l.primary, l.overlay)
  haveOverlay : l.haveOverlay = l.overlay.enabled

/-- The locals of a run between its composition and its submission. -/
def UploadPc.composedLocals : UploadPc → Option Locals
  | .composed l | .prepared l _ | .marked l _ => some l
  | _ => none

structure Staging (s : Sys) : Prop where
  slots : s.primary.enabled = true → s.commits.getLast? = some (s.primary, s.overlay)
  locals : ∀ pc l, s.upload.running = some pc → pc.locals = some l → l.Of s.commits
  bufs : ∀ pc l, s.upload.running = some pc → pc.composedLocals = some l →
    s.lineBufs = some l.staged
  order : ∀ pc l, s.upload.running = some pc → pc.locals = some l →
    ∀ e ∈ s.mailbox.shown, e.1 ≤ l.commit
  bound : ∀ e ∈ s.mailbox.shown, e.1 ≤ s.commits.length
  content : ∀ f ∈ s.submitted, f.content.isSome

/-! ## Lemmas -/

theorem UploadPc.locals_of_composed {pc : UploadPc} {l : Locals} (h : pc.composedLocals = some l) :
    pc.locals = some l := by
  cases pc <;> first | exact h | cases h

theorem Locals.Of.append {l : Locals} {commits : List (PlaneSnapshot × PlaneSnapshot)} (h : l.Of commits)
    (pair : PlaneSnapshot × PlaneSnapshot) : l.Of (commits ++ [pair]) := by
  obtain ⟨h1, h2, h3⟩ := h
  have hlt : l.commit - 1 < commits.length := (List.getElem?_eq_some_iff.1 h2).1
  exact ⟨h1, by rw [List.getElem?_append_left hlt, h2], h3⟩

theorem Locals.Of.picture_eq {l : Locals} {s : Sys} (h : l.Of s.commits) :
    s.mailbox.log[l.commit - 1]? = some (l.staged.primary, l.staged.overlay) := by
  simp [Sys.mailbox, h.pair, picture, Locals.staged, h.haveOverlay]

/-- An acceptance shows what is in the line buffers. -/
theorem Sys.acceptFrame_mailbox {s : Sys} {l : Locals} (mode : VideoMode)
    (hb : s.lineBufs = some l.staged) :
    (s.acceptFrame l mode).mailbox = ⟨s.mailbox.log,
      s.mailbox.shown ++ [(l.commit, (l.staged.primary, l.staged.overlay))]⟩ := by
  simp [mailbox, acceptFrame, Frame.shown, hb, Locals.staged]

namespace Staging

open Sys

variable {p : Params} {s t : Sys}

theorem init : Staging init where
  slots h := by cases h
  locals _ _ h := by cases h
  bufs _ _ h := by cases h
  order _ _ h := by cases h
  bound e h := by cases h
  content f h := by cases h

/-- What leaves the slots, the record and the running `upload_work` alone. -/
theorem same (hi : Staging s) (hu : t.upload.running = s.upload.running)
    (hp : t.primary = s.primary) (ho : t.overlay = s.overlay) (hb : t.lineBufs = s.lineBufs)
    (hc : t.commits = s.commits) (hs : t.submitted = s.submitted) : Staging t where
  slots h := by rw [hc, hp, ho]; exact hi.slots (hp ▸ h)
  locals pc l hr hl := by rw [hc]; exact hi.locals pc l (hu ▸ hr) hl
  bufs pc l hr hl := by rw [hb]; exact hi.bufs pc l (hu ▸ hr) hl
  order pc l hr hl := by unfold mailbox; rw [hs]; exact hi.order pc l (hu ▸ hr) hl
  bound := by unfold mailbox; rw [hs, hc]; exact hi.bound
  content := by rw [hs]; exact hi.content

/-- A run that returns, or has not captured. -/
theorem outside (hi : Staging s) (hu : ∀ pc, t.upload.running = some pc → pc.locals = none)
    (hp : t.primary = s.primary) (ho : t.overlay = s.overlay) (hc : t.commits = s.commits)
    (hs : t.submitted = s.submitted) : Staging t where
  slots h := by rw [hc, hp, ho]; exact hi.slots (hp ▸ h)
  locals pc l hr hl := by rw [hu pc hr] at hl; cases hl
  bufs pc l hr hl := by
    have hl := UploadPc.locals_of_composed hl
    rw [hu pc hr] at hl
    cases hl
  order pc l hr hl := by rw [hu pc hr] at hl; cases hl
  bound := by unfold mailbox; rw [hs, hc]; exact hi.bound
  content := by rw [hs]; exact hi.content

theorem ended (hi : Staging s) (hu : t.upload.running = none) (hp : t.primary = s.primary)
    (ho : t.overlay = s.overlay) (hc : t.commits = s.commits) (hs : t.submitted = s.submitted) :
    Staging t :=
  hi.outside (fun pc h => by rw [hu] at h; cases h) hp ho hc hs

/-- A run that goes on with the same local copies. -/
theorem goto {pc pc' : UploadPc} {l : Locals} (hi : Staging s) (hr : s.upload.running = some pc)
    (hl : pc.locals = some l) (hr' : t.upload.running = some pc') (hl' : pc'.locals = some l)
    (hb : pc'.composedLocals = some l → t.lineBufs = some l.staged)
    (hp : t.primary = s.primary) (ho : t.overlay = s.overlay) (hc : t.commits = s.commits)
    (hs : t.submitted = s.submitted) : Staging t where
  slots h := by rw [hc, hp, ho]; exact hi.slots (hp ▸ h)
  locals pc l hr hl := by
    rw [hr'] at hr
    cases hr
    rw [hl'] at hl
    cases hl
    rw [hc]
    exact hi.locals _ _ ‹_› ‹_›
  bufs pc l hr hl := by
    rw [hr'] at hr
    cases hr
    have hl2 := UploadPc.locals_of_composed hl
    rw [hl'] at hl2
    cases hl2
    exact hb hl
  order pc l hr hl := by
    rw [hr'] at hr
    cases hr
    rw [hl'] at hl
    cases hl
    unfold mailbox
    rw [hs]
    exact hi.order _ _ ‹_› ‹_›
  bound := by unfold mailbox; rw [hs, hc]; exact hi.bound
  content := by rw [hs]; exact hi.content

/-- The slots a capture copies are the newest commit's. -/
theorem captured_of (hi : Staging s) (he : s.primary.enabled = true) : s.captured.Of s.commits := by
  have hlast := hi.slots he
  rw [List.getLast?_eq_getElem?] at hlast
  have hlt := (List.getElem?_eq_some_iff.1 hlast).1
  exact ⟨by show 0 < s.commits.length; omega, hlast, rfl⟩

theorem capture (hi : Staging s) (he : s.primary.enabled = true)
    (hr : t.upload.running = some (.captured s.captured)) (hp : t.primary = s.primary)
    (ho : t.overlay = s.overlay) (hc : t.commits = s.commits) (hs : t.submitted = s.submitted) :
    Staging t where
  slots h := by rw [hc, hp, ho]; exact hi.slots (hp ▸ h)
  locals pc l hr' hl := by
    rw [hr] at hr'
    cases hr'
    cases hl
    rw [hc]
    exact hi.captured_of he
  bufs pc l hr' hl := by
    rw [hr] at hr'
    cases hr'
    cases hl
  order pc l hr' hl := by
    rw [hr] at hr'
    cases hr'
    cases hl
    unfold mailbox
    rw [hs]
    exact hi.bound
  bound := by unfold mailbox; rw [hs, hc]; exact hi.bound
  content := by rw [hs]; exact hi.content

/-- The frame that is accepted is the composition of the local copies. -/
theorem accept {l : Locals} {mode : VideoMode} (hi : Staging s)
    (hr : s.upload.running = some (.marked l mode)) : Staging (s.acceptFrame l mode) := by
  have hbufs := hi.bufs _ l hr rfl
  have hof := hi.locals _ l hr rfl
  have hlt : l.commit - 1 < s.commits.length := (List.getElem?_eq_some_iff.1 hof.pair).1
  have hpos := hof.pos
  have hshown : (s.acceptFrame l mode).mailbox.shown =
      s.mailbox.shown ++ [(l.commit, (l.staged.primary, l.staged.overlay))] := by
    rw [acceptFrame_mailbox mode hbufs]
  have hr' : (s.acceptFrame l mode).upload.running = some (.accepted l) :=
    WorkItem.goto_running_of_some hr
  refine ⟨hi.slots, ?_, ?_, ?_, ?_, ?_⟩
  · intro pc l' h hl
    rw [hr'] at h
    cases h
    cases hl
    exact hof
  · intro pc l' h hl
    rw [hr'] at h
    cases h
    cases hl
  · intro pc l' h hl e he
    rw [hr'] at h
    cases h
    cases hl
    rw [hshown] at he
    obtain he | he := List.mem_append.1 he
    · exact hi.order _ l hr rfl e he
    · rw [List.mem_singleton.1 he]
  · intro e he
    rw [hshown] at he
    show e.1 ≤ s.commits.length
    obtain he | he := List.mem_append.1 he
    · exact hi.bound e he
    · rw [List.mem_singleton.1 he]
      show l.commit ≤ s.commits.length
      omega
  · intro f hf
    obtain hf | hf := List.mem_append.1 hf
    · exact hi.content f hf
    · rw [List.mem_singleton.1 hf]
      show s.lineBufs.isSome
      rw [hbufs]
      rfl

theorem uploadMove (hi : Staging s) (h : UploadMove p s t) : Staging t := by
  cases h with
  | start hr hq => exact hi.outside (fun pc h => by cases h; rfl) rfl rfl rfl rfl
  | captureNone hr hc => exact hi.ended rfl rfl rfl rfl rfl
  | capture hr hp he =>
    exact hi.capture he (WorkItem.goto_running_of_some hr) rfl rfl rfl rfl
  | skip l hr he => exact hi.ended rfl rfl rfl rfl rfl
  | busy l hr he hl hb => exact hi.ended rfl rfl rfl rfl rfl
  | lock l hr he hl hb =>
    exact hi.goto hr rfl (WorkItem.goto_running_of_some hr) rfl nofun rfl rfl rfl rfl
  | composeFailed l hr => exact hi.ended rfl rfl rfl rfl rfl
  | composed l hr n =>
    exact hi.goto hr rfl (WorkItem.goto_running_of_some hr) rfl (fun _ => rfl) rfl rfl rfl rfl
  | prepare l hr =>
    exact hi.goto hr rfl (WorkItem.goto_running_of_some hr) rfl (fun _ => hi.bufs _ l hr rfl)
      rfl rfl rfl rfl
  | inflight l mode hr =>
    exact hi.goto hr rfl (WorkItem.goto_running_of_some hr) rfl (fun _ => hi.bufs _ l hr rfl)
      rfl rfl rfl rfl
  | refuse l mode hr =>
    exact hi.goto hr rfl (WorkItem.goto_running_of_some hr) rfl nofun rfl rfl rfl rfl
  | accept l mode hr hcb => exact hi.accept hr
  | rollBack l hr => exact hi.ended rfl rfl rfl rfl rfl
  | arm l hr => exact hi.ended rfl rfl rfl rfl rfl

theorem completeMove (hi : Staging s) (h : CompleteMove s t) : Staging t := by
  cases h with
  | count ret up hr =>
    refine hi.same ?_ rfl rfl rfl rfl rfl
    cases up <;> simp [countFinish]
  | _ => exact hi.same rfl rfl rfl rfl rfl rfl

theorem signalMove (hi : Staging s) (h : SignalMove s t) : Staging t := by
  cases h <;> exact hi.same rfl rfl rfl rfl rfl rfl

/-- A flush posts the pair it leaves in the slots, or changes nothing. -/
theorem flush (hi : Staging s) (c : Commit) (hu : t.upload.running = s.upload.running)
    (hp : t.primary = flushedPrimary c s) (ho : t.overlay = flushedOverlay p c s)
    (hb : t.lineBufs = s.lineBufs)
    (hc : t.commits = if changes p c then s.commits ++ [(flushedPrimary c s, flushedOverlay p c s)]
      else s.commits)
    (hs : t.submitted = s.submitted) : Staging t := by
  by_cases hch : changes p c = true
  · rw [if_pos hch] at hc
    refine ⟨?_, ?_, ?_, ?_, ?_, ?_⟩
    · intro _
      rw [hc, hp, ho, List.getLast?_concat]
    · intro pc l hr hl
      rw [hc]
      exact (hi.locals pc l (hu ▸ hr) hl).append _
    · intro pc l hr hl
      rw [hb]
      exact hi.bufs pc l (hu ▸ hr) hl
    · intro pc l hr hl
      unfold mailbox
      rw [hs]
      exact hi.order pc l (hu ▸ hr) hl
    · intro e he
      unfold mailbox at he
      rw [hs] at he
      have hle : e.1 ≤ s.commits.length := hi.bound e he
      rw [hc, List.length_append]
      omega
    · rw [hs]
      exact hi.content
  · rw [if_neg hch] at hc
    have hnone : c.primary = none ∧ overlayState p c = none := by
      simpa [changes] using hch
    refine hi.same hu ?_ ?_ hb hc hs
    · rw [hp, flushedPrimary, hnone.1]
    · rw [ho, flushedOverlay, hnone.2]

theorem commitMove (hi : Staging s) (h : CommitMove p s t) : Staging t := by
  cases h with
  | stop caller pc hc ht =>
    cases ht with
    | clear b =>
      refine ⟨fun h => (nomatch h), hi.locals, hi.bufs, hi.order, hi.bound, hi.content⟩
    | _ => exact hi.same rfl rfl rfl rfl rfl rfl
  | flush c hc => exact hi.flush c rfl rfl rfl rfl rfl rfl
  | queue c hc => exact hi.same (WorkItem.schedule_running _) rfl rfl rfl rfl rfl
  | _ => exact hi.same rfl rfl rfl rfl rfl rfl

theorem move (hi : Staging s) (h : Move p s t) : Staging t := by
  cases h with
  | upload h => exact hi.uploadMove h
  | complete h => exact hi.completeMove h
  | signal h => exact hi.signalMove h
  | commit h => exact hi.commitMove h

/-! ## Refinement -/

theorem mailbox_same (hc : t.commits = s.commits) (hs : t.submitted = s.submitted) :
    Mailbox.Step s.mailbox t.mailbox := by
  have heq : t.mailbox = s.mailbox := by
    unfold mailbox
    rw [hc, hs]
  rw [heq]
  exact .idle

/-- Every move is a step of the mailbox: an acceptance shows, a flush posts. -/
theorem mailbox_step (hi : Staging s) (h : Move p s t) : Mailbox.Step s.mailbox t.mailbox := by
  cases h with
  | upload h =>
    cases h with
    | accept l mode hr hcb =>
      have hof := hi.locals _ l hr rfl
      have hstep := Mailbox.Step.show l.commit (l.staged.primary, l.staged.overlay) hof.pos
        hof.picture_eq (hi.order _ l hr rfl)
      rwa [← acceptFrame_mailbox mode (hi.bufs _ l hr rfl)] at hstep
    | _ => exact mailbox_same rfl rfl
  | complete h => cases h <;> exact mailbox_same rfl rfl
  | signal h => cases h <;> exact mailbox_same rfl rfl
  | commit h =>
    cases h with
    | stop caller pc hc ht => cases ht <;> exact mailbox_same rfl rfl
    | flush c hc =>
      by_cases hch : changes p c = true
      · have hstep := @Mailbox.Step.post _ s.mailbox
          (picture (flushedPrimary c s, flushedOverlay p c s))
        simpa [mailbox, hch] using hstep
      · exact mailbox_same (if_neg hch) rfl
    | _ => exact mailbox_same rfl rfl

end Staging

theorem Reachable.staging {p : Params} {s : Sys} (h : Reachable p s) : Staging s :=
  Sys.Reachable.induction .init (fun _ _ => Staging.move) h

/-- The driver refines the mailbox. -/
theorem Reachable.mailbox {p : Params} {s : Sys} (h : Reachable p s) :
    Relation.ReflTransGen Mailbox.Step Mailbox.empty s.mailbox :=
  Reaches.refines (fun _ _ _ hi ht => Staging.move hi (Sys.step_move ht))
    (fun _ _ _ hi ht => Staging.mailbox_step hi (Sys.step_move ht)) Staging.init h

end FpgaDrm
