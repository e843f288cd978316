import SimpleDisplay.Drm.Upload

/-!
# What a step can do

For every thread of the upload path, an inductive type with one constructor for each
branch of its step function, and the inversion lemma `…_move`: a step that is taken is
one of the moves.  Invariants are proved by cases on the move, and the step functions
are unfolded nowhere else.  The `Same…` lemmas say what a thread leaves alone.
-/

namespace FpgaDrm

open Work StateMachine

/-! ## Snapshots -/

theorem PlaneSnapshot.fb_of_enabled {snap : PlaneSnapshot} (h : snap.enabled = true) :
    ∃ fb, snap.fb = some fb :=
  Option.isSome_iff_exists.1 (snap.attached ▸ h)

theorem PlaneSnapshot.fb_of_disabled {snap : PlaneSnapshot} (h : snap.enabled = false) :
    snap.fb = none := by
  have := snap.attached
  rw [h] at this
  simpa using this.symm

/-- The references a copy of the snapshot stands for. -/
def PlaneSnapshot.held (snap : PlaneSnapshot) : List Framebuffer := snap.fb.toList

def Refs.getAll (r : Refs) (fbs : List Framebuffer) : Refs := { r with taken := fbs ++ r.taken }
def Refs.putAll (r : Refs) (fbs : List Framebuffer) : Refs := { r with dropped := fbs ++ r.dropped }

theorem getSnapshot_eq (src : PlaneSnapshot) (refs : Refs) :
    getSnapshot src refs = (src, src.enabled, refs.getAll src.held) := by
  cases he : src.enabled with
  | false => simp [getSnapshot, he, PlaneSnapshot.held, src.fb_of_disabled he, Refs.getAll]
  | true =>
    obtain ⟨fb, hfb⟩ := src.fb_of_enabled he
    simp [getSnapshot, he, PlaneSnapshot.held, hfb, Refs.getAll, Refs.get]

theorem putSnapshot_eq (snap : PlaneSnapshot) (refs : Refs) :
    putSnapshot snap refs = (.zero, refs.putAll snap.held) := by
  cases hfb : snap.fb <;> simp [putSnapshot, hfb, PlaneSnapshot.held, Refs.putAll, Refs.put]

theorem replaceSnapshot_eq (snap : PlaneSnapshot) (st : PlaneState) (refs : Refs) :
    replaceSnapshot snap st refs =
      (snapshotOf st, (refs.putAll snap.held).getAll (snapshotOf st).held) := by
  cases hfb : (snapshotOf st).fb <;>
    simp [replaceSnapshot, putSnapshot_eq, hfb, PlaneSnapshot.held, Refs.getAll, Refs.get]

/-- The references the local copies of a run stand for. -/
def Locals.held (l : Locals) : List Framebuffer :=
  l.primary.held ++ if l.haveOverlay then l.overlay.held else []

/-- The local copies of a run of `upload_work`, once it has captured. -/
def UploadPc.locals : UploadPc → Option Locals
  | .entry => none
  | .captured l | .locked l | .composed l | .prepared l _ | .marked l _ | .accepted l | .refused l =>
    some l

theorem Sys.endUpload_eq (s : Sys) (l : Locals) :
    s.endUpload l = { s with
      refs := ⟨s.refs.taken, (if l.haveOverlay then l.overlay.held else []) ++
        (l.primary.held ++ s.refs.dropped)⟩
      upload := s.upload.finish } := by
  cases h : l.haveOverlay <;> simp [Sys.endUpload, h, putSnapshot_eq, Refs.putAll]

/-! ## `upload_work` -/

namespace Sys

/-- The locals of a run that captures the snapshots of `s`. -/
def captured (s : Sys) : Locals := ⟨s.primary, s.overlay, s.overlay.enabled, s.commits.length⟩

inductive UploadMove (p : Params) (s : Sys) : Sys → Prop
  | start (hr : s.upload.running = none) (hq : s.upload.queued = true) :
      UploadMove p s { s with upload := s.upload.start .entry }
  | captureNone (hr : s.upload.running = some .entry)
      (hc : s.pipeEnabled = false ∨ s.primary.enabled = false) :
      UploadMove p s
        { s with refs := s.refs.getAll s.overlay.held, upload := s.upload.finish }
  | capture (hr : s.upload.running = some .entry) (hp : s.pipeEnabled = true)
      (he : s.primary.enabled = true) :
      UploadMove p s
        { s with
          refs := (s.refs.getAll s.primary.held).getAll s.overlay.held
          upload := s.upload.goto (.captured s.captured) }
  | skip (l : Locals) (hr : s.upload.running = some (.captured l)) (he : p.uploadEnabled = false) :
      UploadMove p s (s.endUpload l)
  | busy (l : Locals) (hr : s.upload.running = some (.captured l)) (he : p.uploadEnabled = true)
      (hl : s.completeHoldsDmaLock = false) (hb : s.dmaBusy = true) :
      UploadMove p s ({ s with uploadPending := true }.endUpload l)
  | lock (l : Locals) (hr : s.upload.running = some (.captured l)) (he : p.uploadEnabled = true)
      (hl : s.completeHoldsDmaLock = false) (hb : s.dmaBusy = false) :
      UploadMove p s { s with upload := s.upload.goto (.locked l) }
  | composeFailed (l : Locals) (hr : s.upload.running = some (.locked l))
      (hret : composeRet s.activeMode l.primary (overlayArg l.overlay l.haveOverlay) ≠ 0) :
      UploadMove p s (({ s with lineBufs := none }.failUpload l).endUpload l)
  | composed (l : Locals) (hr : s.upload.running = some (.locked l)) (n : Nat) :
      UploadMove p s
        { s with
          lineBufs := some ⟨l.commit, l.primary, overlayArg l.overlay l.haveOverlay⟩
          cpuCompositions := n
          upload := s.upload.goto (.composed l) }
  | prepare (l : Locals) (hr : s.upload.running = some (.composed l)) :
      UploadMove p s (s.prepareFrame l)
  | inflight (l : Locals) (mode : VideoMode) (hr : s.upload.running = some (.prepared l mode)) :
      UploadMove p s (s.setInflight l mode)
  | refuse (l : Locals) (mode : VideoMode) (hr : s.upload.running = some (.marked l mode)) :
      UploadMove p s (s.refuseFrame l)
  | accept (l : Locals) (mode : VideoMode) (hr : s.upload.running = some (.marked l mode))
      (hcb : s.callback = none) : UploadMove p s (s.acceptFrame l mode)
  | rollBack (l : Locals) (hr : s.upload.running = some (.refused l)) :
      UploadMove p s (s.clearInflight l)
  | arm (l : Locals) (hr : s.upload.running = some (.accepted l)) :
      UploadMove p s ({ s with timeout := s.timeout.schedule s.frame }.endUpload l)

theorem captureSnapshots_move {p : Params} {s : Sys} (hr : s.upload.running = some .entry) :
    UploadMove p s s.captureSnapshots := by
  simp only [captureSnapshots, getSnapshot_eq]
  by_cases hp : s.pipeEnabled = true
  · rw [if_pos hp]
    by_cases he : s.primary.enabled = true
    · rw [if_pos he]
      simpa only [he, captured] using UploadMove.capture hr hp he
    · have he : s.primary.enabled = false := by simpa using he
      have hh : s.primary.held = [] := by
        simp only [PlaneSnapshot.held, s.primary.fb_of_disabled he, Option.toList_none]
      rw [if_neg (by simp [he]), hh]
      exact .captureNone hr (.inr he)
  · rw [if_neg hp]
    exact .captureNone hr (.inl (by simpa using hp))

theorem uploadStep_move {p : Params} {ret : Int} {s t : Sys} (h : s.uploadStep p ret = some t) :
    UploadMove p s t := by
  unfold uploadStep at h
  split at h
  · next hr =>
    split at h
    · next hq => cases h; exact .start hr hq
    · cases h
  · next hr => cases h; exact captureSnapshots_move hr
  · next l hr =>
    split at h
    · next he => cases h; exact .skip l hr (by simpa using he)
    · next he =>
      split at h
      · cases h
      · next hl =>
        split at h
        · next hb => cases h; exact .busy l hr (by simpa using he) (by simpa using hl) hb
        · next hb => cases h; exact .lock l hr (by simpa using he) (by simpa using hl) (by simpa using hb)
  · next l hr =>
    unfold composeSnapshots at h
    simp only [Option.some.injEq] at h
    subst h
    split
    · next hret => exact .composeFailed l hr hret
    · exact .composed l hr _
  · next l hr => cases h; exact .prepare l hr
  · next l mode hr => cases h; exact .inflight l mode hr
  · next l mode hr =>
    split at h
    · cases h; exact .refuse l mode hr
    · split at h
      · cases h
      · next hcb => cases h; exact .accept l mode hr (by simpa using hcb)
  · next l hr => cases h; exact .rollBack l hr
  · next l hr => cases h; exact .arm l hr

theorem uploadStep_queued {p : Params} {s t : Sys} {l : Locals} {mode : VideoMode}
    (hr : s.upload.running = some (.marked l mode)) (h : s.uploadStep p (- EIOCBQUEUED) = some t) :
    t = s.acceptFrame l mode := by
  unfold uploadStep at h
  rw [hr] at h
  simp only [ne_eq, not_true_eq_false, if_false] at h
  split at h
  · cases h
  · cases h; rfl

/-! ## `dma_complete_work` -/

inductive CompleteMove (s : Sys) : Sys → Prop
  | start (hr : s.complete.running = none) (hq : s.complete.queued = true) :
      CompleteMove s { s with complete := s.complete.start .entry }
  | lock (hr : s.complete.running = some .entry) (hl : s.uploadHoldsDmaLock = false) :
      CompleteMove s { s with complete := s.complete.goto .locked }
  | nothing (hr : s.complete.running = some .locked) (hp : s.dmaCompletionPending = false) :
      CompleteMove s { s with complete := s.complete.finish }
  | found (hr : s.complete.running = some .locked) (hp : s.dmaCompletionPending = true) :
      CompleteMove s { s with complete := s.complete.goto (.pending s.dmaCompletionErr) }
  | cancel (err : Int) (hr : s.complete.running = some (.pending err)) :
      CompleteMove s
        { s with timeout := s.timeout.cancel, complete := s.complete.goto (.cancelled err) }
  | noRequest (err : Int) (hr : s.complete.running = some (.cancelled err))
      (hf : s.frameReq = none) :
      CompleteMove s { s with complete := s.complete.goto (.released err 0) }
  | release (err : Int) (n : Nat) (hr : s.complete.running = some (.cancelled err))
      (hf : s.frameReq = some n) :
      CompleteMove s
        { (s.releaseRequest n).1 with
          frameReq := none
          complete := s.complete.goto (.released err (s.releaseRequest n).2) }
  | compare (err : Int) (len : Nat) (ret : Int) (hr : s.complete.running = some (.released err len))
      (hret : ret = if err = 0 ∧ len ≠ s.activeMode.frameBytes then - EIO else err) :
      CompleteMove s { s with complete := s.complete.goto (.compared s.activeMode ret) }
  | finish (mode : VideoMode) (ret : Int) (hr : s.complete.running = some (.compared mode ret)) :
      CompleteMove s (s.dmaFinish mode ret)
  | count (ret : Int) (up : Bool) (hr : s.complete.running = some (.finished ret up)) :
      CompleteMove s (s.countFinish ret up)

theorem completeStep_move {s t : Sys} (h : s.completeStep = some t) : CompleteMove s t := by
  unfold completeStep at h
  split at h
  · next hr =>
    split at h
    · next hq => cases h; exact .start hr hq
    · cases h
  · next hr =>
    split at h
    · cases h
    · next hl => cases h; exact .lock hr (by simpa using hl)
  · next hr =>
    split at h
    · next hp => cases h; exact .nothing hr (by simpa using hp)
    · next hp => cases h; exact .found hr (by simpa using hp)
  · next err hr => cases h; exact .cancel err hr
  · next err hr =>
    split at h
    · next hf => cases h; exact .noRequest err hr hf
    · next n hf => cases h; exact .release err n hr hf
  · next err len hr => cases h; exact .compare err len _ hr rfl
  · next mode ret hr => cases h; exact .finish mode ret hr
  · next ret up hr => cases h; exact .count ret up hr

/-! ## The engine, its callback and the timer -/

inductive SignalMove (s : Sys) : Sys → Prop
  | service (r : Request) (st : XferState) (hcb : s.callback = none) (hr : r ∈ s.reqs)
      (hs : r.state = .submitted) :
      SignalMove s
        { s with
          reqs := s.reqs.map fun r' => if r'.frame = r.frame then { r' with state := st } else r'
          callback := some (r.frame, .begun) }
  | callback (n : Nat) (hcb : s.callback = some (n, .begun)) (ht : s.takesCompletion = true) :
      SignalMove s { s.markCompletion 0 (.callback n) with callback := some (n, .marked) }
  | callbackDrop (n : Nat) (hcb : s.callback = some (n, .begun)) (ht : s.takesCompletion = false) :
      SignalMove s { s with callback := none }
  | callbackSchedule (n : Nat) (hcb : s.callback = some (n, .marked)) :
      SignalMove s { s with complete := s.complete.schedule, callback := none }
  | timeoutBegin (n : Nat) (hp : s.timeout.pending = some n) (hr : s.timeout.running = none) :
      SignalMove s { s with timeout := ⟨none, some (n, .begun)⟩ }
  | timeout (n : Nat) (hr : s.timeout.running = some (n, .begun)) (ht : s.takesCompletion = true) :
      SignalMove s
        { s.markCompletion (-ETIMEDOUT) (.timeout n) with
          timeout := ⟨s.timeout.pending, some (n, .marked)⟩ }
  | timeoutDrop (n : Nat) (hr : s.timeout.running = some (n, .begun))
      (ht : s.takesCompletion = false) :
      SignalMove s { s with timeout := ⟨s.timeout.pending, none⟩ }
  | timeoutSchedule (n : Nat) (hr : s.timeout.running = some (n, .marked)) :
      SignalMove s { s with complete := s.complete.schedule, timeout := ⟨s.timeout.pending, none⟩ }

theorem serviceStep_move {ok : Bool} {s t : Sys} (h : s.serviceStep ok = some t) :
    SignalMove s t := by
  unfold serviceStep at h
  split at h
  · cases h
  · next hcb =>
    split at h
    · cases h
    · next r hf =>
      cases h
      exact .service r _ (by simpa using hcb) (List.mem_of_find?_eq_some hf)
        (by simpa using List.find?_some hf)

theorem callbackStep_move {s t : Sys} (h : s.callbackStep = some t) : SignalMove s t := by
  unfold callbackStep at h
  split at h
  · cases h
  · next n hcb =>
    split at h
    · next ht => cases h; exact .callback n hcb ht
    · next ht => cases h; exact .callbackDrop n hcb (by simpa using ht)
  · next n hcb => cases h; exact .callbackSchedule n hcb

theorem timeoutBegin_move {s t : Sys} (h : s.timeoutBegin = some t) : SignalMove s t := by
  unfold Sys.timeoutBegin at h
  split at h
  · next n hp hr => cases h; exact .timeoutBegin n hp hr
  · cases h

theorem timeoutStep_move {s t : Sys} (h : s.timeoutStep = some t) : SignalMove s t := by
  unfold timeoutStep at h
  split at h
  · cases h
  · next n hr =>
    split at h
    · next ht => cases h; exact .timeout n hr ht
    · next ht => cases h; exact .timeoutDrop n hr (by simpa using ht)
  · next n hr => cases h; exact .timeoutSchedule n hr

/-! ## The commit tail -/

inductive StopMove (s : Sys) (caller : StopCaller) : StopPc → Sys → Prop
  | cancelUpload (hu : s.upload.running = none) :
      StopMove s caller .cancelUpload
        { s with upload := s.upload.cancel, commit := .stop caller .waitIdle }
  | idle (hi : s.dmaIdle = true) :
      StopMove s caller .waitIdle { s with commit := .stop caller .cancelTimeout }
  | waitOut (hi : s.dmaIdle = false) :
      StopMove s caller .waitIdle { s with commit := .stop caller .force }
  | force (ht : s.takesCompletion = true) :
      StopMove s caller .force
        { s.markCompletion (-ETIMEDOUT) .forced with commit := .stop caller .forced }
  | forceDrop (ht : s.takesCompletion = false) :
      StopMove s caller .force { s with commit := .stop caller .beginFlush }
  | schedule :
      StopMove s caller .forced
        { s with complete := s.complete.schedule, commit := .stop caller .beginFlush }
  | beginFlush :
      StopMove s caller .beginFlush { s with commit := .stop caller (.flush s.complete.seq) }
  | flushed (t : Nat) (hf : s.complete.flushed t = true) :
      StopMove s caller (.flush t) { s with commit := .stop caller .cancelTimeout }
  | cancelTimeout (hr : s.timeout.running = none) :
      StopMove s caller .cancelTimeout
        { s with timeout := s.timeout.cancel, commit := .stop caller .beginLastFlush }
  | beginLastFlush :
      StopMove s caller .beginLastFlush { s with commit := .stop caller (.lastFlush s.complete.seq) }
  | lastFlushed (t : Nat) (hf : s.complete.flushed t = true) :
      StopMove s caller (.lastFlush t) { s with commit := .stop caller .clear }
  | clear (b : Bool) :
      StopMove s caller .clear
        { s with
          primary := .zero
          overlay := .zero
          refs := (s.refs.putAll s.overlay.held).putAll s.primary.held
          removed := b
          commit := caller.next }

theorem stopStep_move {s t : Sys} {caller : StopCaller} {pc : StopPc}
    (h : s.stopStep caller pc = some t) : StopMove s caller pc t := by
  cases pc with
  | cancelUpload =>
    simp only [stopStep] at h
    split at h
    · cases h
    · next hu => cases h; exact .cancelUpload (by simpa using hu)
  | waitIdle =>
    simp only [stopStep] at h
    split at h
    · next hi => cases h; exact .idle hi
    · next hi => cases h; exact .waitOut (by simpa using hi)
  | force =>
    simp only [stopStep] at h
    split at h
    · next ht => cases h; exact .force ht
    · next ht => cases h; exact .forceDrop (by simpa using ht)
  | forced => cases h; exact .schedule
  | beginFlush => cases h; exact .beginFlush
  | flush n =>
    simp only [stopStep] at h
    split at h
    · next hf => cases h; exact .flushed n hf
    · cases h
  | cancelTimeout =>
    simp only [stopStep] at h
    split at h
    · cases h
    · next hr => cases h; exact .cancelTimeout (by simpa using hr)
  | beginLastFlush => cases h; exact .beginLastFlush
  | lastFlush n =>
    simp only [stopStep] at h
    split at h
    · next hf => cases h; exact .lastFlushed n hf
    · cases h
  | clear =>
    simp only [stopStep, clearSnapshots, putSnapshot_eq, Option.some.injEq] at h
    subst h
    cases caller <;> exact .clear _

/-- What a flush installs, plane by plane. -/
def flushedPrimary (c : Commit) (s : Sys) : PlaneSnapshot :=
  match c.primary with
  | some st => snapshotOf st
  | none => s.primary

def overlayState (p : Params) (c : Commit) : Option PlaneState :=
  if p.enableOverlay then c.overlay else none

def flushedOverlay (p : Params) (c : Commit) (s : Sys) : PlaneSnapshot :=
  match overlayState p c with
  | some st => snapshotOf st
  | none => s.overlay

/-- Whether a flush installs anything. -/
def changes (p : Params) (c : Commit) : Bool := c.primary.isSome || (overlayState p c).isSome

/-- The references after it. -/
def flushedRefs (p : Params) (c : Commit) (s : Sys) : Refs :=
  let refs := match c.primary with
    | some st => (s.refs.putAll s.primary.held).getAll (snapshotOf st).held
    | none => s.refs
  match overlayState p c with
  | some st => (refs.putAll s.overlay.held).getAll (snapshotOf st).held
  | none => refs

theorem flushSnapshots_eq (p : Params) (c : Commit) (s : Sys) :
    s.flushSnapshots p c =
      ({ s with
        primary := flushedPrimary c s
        overlay := flushedOverlay p c s
        refs := flushedRefs p c s
        commits := if changes p c then s.commits ++ [(flushedPrimary c s, flushedOverlay p c s)]
          else s.commits }, changes p c) := by
  unfold flushSnapshots flushedPrimary flushedOverlay flushedRefs changes
  rw [show (if p.enableOverlay then c.overlay else none) = overlayState p c from rfl]
  cases c.primary <;> cases overlayState p c <;> simp [replaceSnapshot_eq]

inductive CommitMove (p : Params) (s : Sys) : Sys → Prop
  | disable (c : Commit) (hc : s.commit = .disable c) :
      CommitMove p s { s with pipeEnabled := false, commit := .stop (.disable c) .cancelUpload }
  | stop (caller : StopCaller) (pc : StopPc) {t : Sys} (hc : s.commit = .stop caller pc)
      (ht : StopMove s caller pc t) : CommitMove p s t
  | flush (c : Commit) (hc : s.commit = .flush c) :
      CommitMove p s
        { s with
          primary := flushedPrimary c s
          overlay := flushedOverlay p c s
          refs := flushedRefs p c s
          commits := if changes p c then s.commits ++ [(flushedPrimary c s, flushedOverlay p c s)]
            else s.commits
          atomicCommits := s.atomicCommits + 1
          commit := .flushed c (changes p c) }
  | queue (c : Commit) (hc : s.commit = .flushed c true) :
      CommitMove p s
        { s with
          framesQueued := s.framesQueued + 1
          upload := s.upload.schedule
          commit := if c.needsModeset && c.active then .enable c else .done c }
  | unchanged (c : Commit) (hc : s.commit = .flushed c false) :
      CommitMove p s { s with commit := if c.needsModeset && c.active then .enable c else .done c }
  | unknownMode (c : Commit) (hc : s.commit = .enable c) (hm : findVideoMode c.mode = none) :
      CommitMove p s { s with commit := .done c }
  | enable (c : Commit) (mode : VideoMode) (hc : s.commit = .enable c)
      (hm : findVideoMode c.mode = some mode) :
      CommitMove p s { s with commit := .stop (.enable c mode) .cancelUpload }
  | programFailed (c : Commit) (mode : VideoMode) (r : ProgramRets) (hc : s.commit = .program c mode)
      (hr : (programMode p mode r s.hw).1 ≠ 0) :
      CommitMove p s { s with hw := (programMode p mode r s.hw).2, commit := .done c }
  | program (c : Commit) (mode : VideoMode) (r : ProgramRets) (hc : s.commit = .program c mode)
      (hr : (programMode p mode r s.hw).1 = 0) :
      CommitMove p s { s with hw := (programMode p mode r s.hw).2, commit := .programmed c mode }
  | enabled (c : Commit) (mode : VideoMode) (hc : s.commit = .programmed c mode) :
      CommitMove p s { s with activeMode := mode, pipeEnabled := true, commit := .done c }
  | finish (c : Commit) (hc : s.commit = .done c) : CommitMove p s { s with commit := .idle }
  | begin (c : Commit) (hc : s.commit = .idle) (hrem : s.removed = false)
      (ha : c.needsModeset = false → c.active = s.crtcActive ∧ some c.mode = s.crtcMode) :
      CommitMove p s
        { s with
          crtcActive := c.active
          crtcMode := some c.mode
          commit := if s.crtcActive && c.needsModeset then .disable c else .flush c }
  | remove (hc : s.commit = .idle) (ha : s.crtcActive = false) :
      CommitMove p s { s with commit := .stop .remove .cancelUpload }

theorem commitStep_move {p : Params} {r : ProgramRets} {s t : Sys}
    (h : s.commitStep p r = some t) : CommitMove p s t := by
  unfold commitStep at h
  split at h
  · cases h
  · next c hc => cases h; exact .disable c hc
  · next caller pc hc => exact .stop caller pc hc (stopStep_move h)
  · next c hc =>
    rw [flushSnapshots_eq] at h
    cases h
    exact .flush c hc
  · next c changed hc =>
    cases changed with
    | false => cases h; exact .unchanged c hc
    | true => cases h; exact .queue c hc
  · next c hc =>
    split at h
    · next hm => cases h; exact .unknownMode c hc hm
    · next mode hm => cases h; exact .enable c mode hc hm
  · next c mode hc =>
    by_cases hr : (programMode p mode r s.hw).1 = 0
    · simp only [hr, ne_eq, not_true_eq_false, if_false, Option.some.injEq] at h
      subst h
      exact .program c mode r hc hr
    · simp only [ne_eq, hr, not_false_eq_true, if_true, Option.some.injEq] at h
      subst h
      exact .programFailed c mode r hc hr
  · next c mode hc => cases h; exact .enabled c mode hc
  · next c hc => cases h; exact .finish c hc

theorem beginCommit_move {p : Params} {c : Commit} {s t : Sys} (h : s.beginCommit c = some t) :
    CommitMove p s t := by
  unfold beginCommit at h
  split at h
  · next hc =>
    split at h
    · cases h
    · next hrem =>
      split at h
      · cases h
      · next hn =>
        cases h
        refine .begin c hc (by simpa using hrem) fun hm => ?_
        simpa [hm] using hn
  · cases h

theorem beginCommit_eq {c : Commit} {s t : Sys} (h : s.beginCommit c = some t) :
    s.commit = .idle ∧ t = { s with
      crtcActive := c.active
      crtcMode := some c.mode
      commit := if s.crtcActive && c.needsModeset then .disable c else .flush c } := by
  unfold beginCommit at h
  split at h
  · next hc =>
    split at h
    · cases h
    · split at h
      · cases h
      · cases h; exact ⟨hc, rfl⟩
  · cases h

theorem beginRemove_move {p : Params} {s t : Sys} (h : s.beginRemove = some t) :
    CommitMove p s t := by
  unfold beginRemove at h
  split at h
  · next hc =>
    split at h
    · cases h
    · next hn =>
      cases h
      simp only [Bool.or_eq_true, not_or, Bool.not_eq_true] at hn
      exact .remove hc hn.2
  · cases h

/-! ## All threads -/

inductive Move (p : Params) (s t : Sys) : Prop
  | upload (h : UploadMove p s t)
  | complete (h : CompleteMove s t)
  | signal (h : SignalMove s t)
  | commit (h : CommitMove p s t)

theorem step_move {p : Params} {a : Act} {s t : Sys} (h : step p a s = some t) : Move p s t := by
  cases a with
  | begin c => exact .commit (beginCommit_move h)
  | remove => exact .commit (beginRemove_move h)
  | commit r => exact .commit (commitStep_move h)
  | upload ret => exact .upload (uploadStep_move h)
  | complete => exact .complete (completeStep_move h)
  | service ok => exact .signal (serviceStep_move h)
  | callback => exact .signal (callbackStep_move h)
  | timeoutBegin => exact .signal (timeoutBegin_move h)
  | timeout => exact .signal (timeoutStep_move h)

/-- What holds after probe and survives every move holds in every reachable state. -/
theorem Reachable.induction {p : Params} {I : Sys → Prop} (h0 : I init)
    (hI : ∀ s t, I s → Move p s t → I t) {s : Sys} (h : Reachable p s) : I s :=
  Reaches.invariant (fun _ s t hs ht => hI s t hs (step_move ht)) h0 h

end Sys

end FpgaDrm
