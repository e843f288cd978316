import SimpleDisplay.Lib.Run
import SimpleDisplay.Lib.WorkItem
import SimpleDisplay.Drm.Plane

/-!
# The upload path as a state machine

The driver's threads are the DRM helpers' commit tail (`commitStep`), the work items
`upload_work` (`uploadStep`), `dma_complete_work` (`completeStep`) and
`dma_timeout_work` (`timeoutStep`), the XDMA engine (`serviceStep`) and the callback
it makes (`callbackStep`).  One step is one lock section or one call out of the
driver, so that a run (`StateMachine.run (step p)`) is an interleaving of the threads
at every point where another one can see a difference:

* `upload_lock` is held within single steps only;
* `dma_lock` is held from `locked` on in both work items, and taken only while the
  other does not hold it;
* what follows the last unlock of a function and touches local data only (the puts of
  the local snapshots, the counters) goes with that unlock.

The commit tail is the DRM helper's default one: CRTC disable of an active CRTC that
needs a modeset, flush, CRTC enable.  Its commits follow each other.

The fields from `commits` on are a record of the run that no step reads: a commit is
numbered by its place in `commits`, an accepted frame by its place in `submitted`.
-/

namespace FpgaDrm

open Work StateMachine

/-- Module parameters.  They are writable while the module is loaded (`0644`); a run is taken to
keep them as they are. -/
structure Params where
  uploadEnabled : Bool
  enableOverlay : Bool
  configurePipeline : Bool

/-! ## Mode programming -/

/-- The mode each block was last programmed with as a whole. -/
structure Hw where
  clkWiz : Option VideoMode
  vdma : Option VideoMode
  vtc : Option VideoMode

/-- What the stages of `fpga_drm_program_mode` return. -/
structure ProgramRets where
  clkWiz : Int
  vdma : Int
  vtc : Int
  ddrPattern : Int
  readback : Int

/-- A stage that fails leaves its block in no known mode. -/
def programMode (p : Params) (mode : VideoMode) (r : ProgramRets) (hw : Hw) : Int × Hw :=
  if !p.configurePipeline then (0, hw)
  else if r.clkWiz ≠ 0 then (r.clkWiz, { hw with clkWiz := none })
  else if r.vdma ≠ 0 then (r.vdma, { hw with clkWiz := some mode, vdma := none })
  else if r.vtc ≠ 0 then (r.vtc, { clkWiz := some mode, vdma := some mode, vtc := none })
  else if r.ddrPattern ≠ 0 then (r.ddrPattern, ⟨some mode, some mode, some mode⟩)
  else (r.readback, ⟨some mode, some mode, some mode⟩)

/-! ## Threads -/

/-- The new state of one atomic commit: the CRTC's and the planes' the commit carries. -/
structure Commit where
  active : Bool
  needsModeset : Bool
  mode : DisplayMode
  primary : Option PlaneState
  overlay : Option PlaneState

/-- The locals of an `upload_work` run that has a primary snapshot, and the number of
the last commit at the time of the capture. -/
structure Locals where
  primary : PlaneSnapshot
  overlay : PlaneSnapshot
  haveOverlay : Bool
  commit : Nat

/-- Where a run of `fpga_drm_upload_work` stands. -/
inductive UploadPc
  /-- begun, snapshots not captured -/
  | entry
  /-- `upload_lock` released -/
  | captured (l : Locals)
  /-- `dma_lock` taken, DMA found idle -/
  | locked (l : Locals)
  /-- the frame is in the line buffers -/
  | composed (l : Locals)
  /-- the scatter list and `frame_cb` are set up for `mode` -/
  | prepared (l : Locals) (mode : VideoMode)
  /-- `dma_inflight` set, `xdma_xfer_submit_lines_nowait` not returned -/
  | marked (l : Locals) (mode : VideoMode)
  /-- it returned `-EIOCBQUEUED`, the timer is not armed -/
  | accepted (l : Locals)
  /-- it returned something else, the flags are not taken back -/
  | refused (l : Locals)

/-- Where a run of `fpga_drm_dma_complete_work` stands. -/
inductive CompletePc
  | entry
  /-- `dma_lock` taken, `dma_completion_pending` not read -/
  | locked
  /-- a completion with this error was found -/
  | pending (err : Int)
  /-- the timer was cancelled -/
  | cancelled (err : Int)
  /-- `xdma_xfer_completion` returned this length -/
  | released (err : Int) (len : Nat)
  /-- `fpga_drm_dma_finish` computed `ret` from this mode -/
  | compared (mode : VideoMode) (ret : Int)
  /-- the flags are cleared, with this `upload_pending` found -/
  | finished (ret : Int) (uploadPending : Bool)

/-- Where a call of `fpga_drm_xdma_done` or `fpga_drm_dma_timeout_work` stands. -/
inductive HandlerPc
  | begun
  /-- it set `dma_completion_pending` and has not called `schedule_work` -/
  | marked
deriving DecidableEq

/-- The caller `fpga_drm_stop_uploads` returns to. -/
inductive StopCaller
  | disable (c : Commit)
  | enable (c : Commit) (mode : VideoMode)
  | remove

/-- Where `fpga_drm_stop_uploads` stands; `flush` and `lastFlush` wait for the
instances of `dma_complete_work` up to the given one. -/
inductive StopPc
  | cancelUpload
  | waitIdle
  | force
  | forced
  | beginFlush
  | flush (t : Nat)
  | cancelTimeout
  | beginLastFlush
  | lastFlush (t : Nat)
  | clear

/-- Where the commit tail (or the remove path) stands. -/
inductive CommitPc
  | idle
  | disable (c : Commit)
  | stop (caller : StopCaller) (pc : StopPc)
  | flush (c : Commit)
  /-- the snapshots are replaced, `upload_work` is not scheduled -/
  | flushed (c : Commit) (changed : Bool)
  | enable (c : Commit)
  | program (c : Commit) (mode : VideoMode)
  | programmed (c : Commit) (mode : VideoMode)
  /-- the last callback returned -/
  | done (c : Commit)

def CommitPc.isIdle : CommitPc → Bool
  | .idle => true
  | _ => false

theorem CommitPc.idle_of_isIdle {pc : CommitPc} (h : pc.isIdle = true) : pc = .idle := by
  cases pc <;> first | rfl | cases h

/-- Where `fpga_drm_stop_uploads` returns to. -/
def StopCaller.next : StopCaller → CommitPc
  | .disable c => .flush c
  | .enable c mode => .program c mode
  | .remove => .idle

inductive XferState
  | submitted
  | completed
  | failed
deriving DecidableEq

/-- An accepted request that `xdma_xfer_completion` has not released. -/
structure Request where
  frame : Nat
  lineSize : Nat
  lineCount : Nat
  state : XferState

/-- The length `xdma_xfer_completion` reports: the whole transfer, or nothing when it
failed or had to be aborted. -/
def Request.completionLen (r : Request) : Nat :=
  if r.state = .completed then r.lineSize * r.lineCount else 0

/-! ## State -/

/-- What a composition put into the line buffers. -/
structure Staged where
  commit : Nat
  primary : PlaneSnapshot
  overlay : Option PlaneSnapshot

/-- An accepted submission, and how the pipeline was programmed at the time. -/
structure Frame where
  content : Option Staged
  mode : VideoMode
  lineSize : Nat
  lineCount : Nat
  hw : Hw

/-- An execution of `fpga_drm_dma_finish`: the frame in flight, the mode it compared
with, its result. -/
structure Finish where
  frame : Nat
  mode : VideoMode
  ret : Int

/-- Who set `dma_completion_pending`. -/
inductive Source
  | callback (frame : Nat)
  | timeout (frame : Nat)
  | forced
deriving DecidableEq

structure Sys where
  -- struct fpga_drm_device
  pipeEnabled : Bool
  activeMode : VideoMode
  primary : PlaneSnapshot
  overlay : PlaneSnapshot
  /-- Contents of `line_bufs`; `none` before the first and after a failed composition. -/
  lineBufs : Option Staged
  /-- `active_frame_sgt`: entries, bytes of each. -/
  activeSgt : Nat × Nat
  /-- `frame_cb.req`, by the frame it was made for. -/
  frameReq : Option Nat
  dmaInflight : Bool
  dmaCompletionPending : Bool
  dmaCompletionErr : Int
  uploadPending : Bool
  framesQueued : Nat
  framesUploaded : Nat
  uploadFailures : Nat
  atomicCommits : Nat
  cpuCompositions : Nat
  -- threads
  upload : WorkItem UploadPc
  complete : WorkItem CompletePc
  timeout : DelayedWork Nat (Nat × HandlerPc)
  callback : Option (Nat × HandlerPc)
  commit : CommitPc
  -- XDMA engine, video pipeline, DRM core
  reqs : List Request
  hw : Hw
  crtcActive : Bool
  crtcMode : Option DisplayMode
  removed : Bool
  refs : Refs
  -- record of the run
  commits : List (PlaneSnapshot × PlaneSnapshot)
  submitted : List Frame
  finishes : List Finish
  failed : List Nat
  released : Nat
  /-- The frame `dma_inflight` was last set for. -/
  frame : Nat
  pendingBy : Option Source

/-- After `fpga_drm_probe`. -/
def init : Sys where
  pipeEnabled := false
  activeMode := preferredMode
  primary := .zero
  overlay := .zero
  lineBufs := none
  activeSgt := (0, 0)
  frameReq := none
  dmaInflight := false
  dmaCompletionPending := false
  dmaCompletionErr := 0
  uploadPending := false
  framesQueued := 0
  framesUploaded := 0
  uploadFailures := 0
  atomicCommits := 0
  cpuCompositions := 0
  upload := .idle
  complete := .idle
  timeout := .idle
  callback := none
  commit := .idle
  reqs := []
  hw := ⟨none, none, none⟩
  crtcActive := false
  crtcMode := none
  removed := false
  refs := ⟨[], []⟩
  commits := []
  submitted := []
  finishes := []
  failed := []
  released := 0
  frame := 0
  pendingBy := none

/-! ## Locks and flags -/

def UploadPc.holdsDmaLock : UploadPc → Bool
  | .entry | .captured _ => false
  | _ => true

def CompletePc.holdsDmaLock : CompletePc → Bool
  | .entry => false
  | _ => true

namespace Sys

def uploadHoldsDmaLock (s : Sys) : Bool := s.upload.running.any UploadPc.holdsDmaLock

def completeHoldsDmaLock (s : Sys) : Bool := s.complete.running.any CompletePc.holdsDmaLock

/-- `fpga_drm_dma_busy` and `fpga_drm_dma_idle` read the two flags. -/
def dmaBusy (s : Sys) : Bool := s.dmaInflight || s.dmaCompletionPending

def dmaIdle (s : Sys) : Bool := !s.dmaBusy

/-- `fpga_drm_queue_dma_completion` drops a signal that finds no frame in flight or a
completion already pending. -/
def takesCompletion (s : Sys) : Bool := s.dmaInflight && !s.dmaCompletionPending

/-- Its lock section when it takes the signal. -/
def markCompletion (s : Sys) (err : Int) (src : Source) : Sys :=
  { s with dmaCompletionPending := true, dmaCompletionErr := err, pendingBy := some src }

/-! ## `fpga_drm_upload_work` -/

/-- The end of a run: the local snapshots are put. -/
def endUpload (s : Sys) (l : Locals) : Sys :=
  let refs := (putSnapshot l.primary s.refs).2
  { s with
    refs := if l.haveOverlay then (putSnapshot l.overlay refs).2 else refs
    upload := s.upload.finish }

/-- A failed composition or submission. -/
def failUpload (s : Sys) (l : Locals) : Sys :=
  { s with uploadFailures := s.uploadFailures + 1, failed := l.commit :: s.failed }

/-- The section under `upload_lock`; without a primary snapshot the run returns at once,
and keeps what it took of the overlay. -/
def captureSnapshots (s : Sys) : Sys :=
  let (primary, havePrimary, refs) :=
    if s.pipeEnabled then getSnapshot s.primary s.refs else (.zero, false, s.refs)
  let (overlay, haveOverlay, refs) := getSnapshot s.overlay refs
  if havePrimary then
    { s with
      refs := refs
      upload := s.upload.goto (.captured ⟨primary, overlay, haveOverlay, s.commits.length⟩) }
  else { s with refs := refs, upload := s.upload.finish }

/-- `fpga_drm_compose_frame` on the local snapshots. -/
def composeSnapshots (s : Sys) (l : Locals) : Sys :=
  let overlay := overlayArg l.overlay l.haveOverlay
  if composeRet s.activeMode l.primary overlay ≠ 0 then
    ({ s with lineBufs := none }.failUpload l).endUpload l
  else
    { s with
      lineBufs := some ⟨l.commit, l.primary, overlay⟩
      cpuCompositions := s.cpuCompositions + if overlay.any (·.enabled) then 1 else 0
      upload := s.upload.goto (.composed l) }

/-- `fpga_drm_submit_frame_nowait` up to its first lock section. -/
def prepareFrame (s : Sys) (l : Locals) : Sys :=
  { s with
    activeSgt := (s.activeMode.drm.vdisplay, s.activeMode.lineBytes)
    frameReq := none
    upload := s.upload.goto (.prepared l s.activeMode) }

/-- Its first lock section. -/
def setInflight (s : Sys) (l : Locals) (mode : VideoMode) : Sys :=
  { s with
    dmaInflight := true
    dmaCompletionPending := false
    dmaCompletionErr := 0
    uploadPending := false
    frame := s.submitted.length + 1
    pendingBy := none
    upload := s.upload.goto (.marked l mode) }

/-- `xdma_xfer_submit_lines_nowait` returns `-EIOCBQUEUED`. -/
def acceptFrame (s : Sys) (l : Locals) (mode : VideoMode) : Sys :=
  { s with
    frameReq := some s.frame
    reqs := s.reqs ++ [⟨s.frame, mode.lineBytes, mode.drm.vdisplay, .submitted⟩]
    submitted := s.submitted ++ [⟨s.lineBufs, mode, mode.lineBytes, mode.drm.vdisplay, s.hw⟩]
    upload := s.upload.goto (.accepted l) }

/-- It returns something else. -/
def refuseFrame (s : Sys) (l : Locals) : Sys :=
  { s with frameReq := none, upload := s.upload.goto (.refused l) }.failUpload l

/-- The second lock section of `fpga_drm_submit_frame_nowait`, and the rest of the run. -/
def clearInflight (s : Sys) (l : Locals) : Sys :=
  { s with
    dmaInflight := false
    dmaCompletionPending := false
    dmaCompletionErr := 0
    pendingBy := none }.endUpload l

/-- `ret` is what `xdma_xfer_submit_lines_nowait` returns, should this step call it.  It
accepts under the engine lock, which a callback holds while it runs. -/
def uploadStep (p : Params) (ret : Int) (s : Sys) : Option Sys :=
  match s.upload.running with
  | none => if s.upload.queued then some { s with upload := s.upload.start .entry } else none
  | some .entry => some s.captureSnapshots
  | some (.captured l) =>
    if !p.uploadEnabled then some (s.endUpload l)
    else if s.completeHoldsDmaLock then none
    else if s.dmaBusy then some ({ s with uploadPending := true }.endUpload l)
    else some { s with upload := s.upload.goto (.locked l) }
  | some (.locked l) => some (s.composeSnapshots l)
  | some (.composed l) => some (s.prepareFrame l)
  | some (.prepared l mode) => some (s.setInflight l mode)
  | some (.marked l mode) =>
    if ret ≠ -EIOCBQUEUED then some (s.refuseFrame l)
    else if s.callback.isSome then none
    else some (s.acceptFrame l mode)
  | some (.refused l) => some (s.clearInflight l)
  | some (.accepted l) => some ({ s with timeout := s.timeout.schedule s.frame }.endUpload l)

/-! ## `fpga_drm_dma_complete_work` -/

/-- `xdma_xfer_completion` of the request made for frame `n`: the engine no longer reads
its buffers. -/
def releaseRequest (s : Sys) (n : Nat) : Sys × Nat :=
  ({ s with reqs := s.reqs.filter (·.frame ≠ n), released := s.released + 1 },
    ((s.reqs.find? (·.frame = n)).map Request.completionLen).getD 0)

/-- The lock section of `fpga_drm_dma_finish`. -/
def dmaFinish (s : Sys) (mode : VideoMode) (ret : Int) : Sys :=
  { s with
    dmaInflight := false
    dmaCompletionPending := false
    dmaCompletionErr := 0
    uploadPending := false
    finishes := s.finishes ++ [⟨s.frame, mode, ret⟩]
    pendingBy := none
    complete := s.complete.goto (.finished ret s.uploadPending) }

/-- The rest of it, and the end of `dma_complete_work`. -/
def countFinish (s : Sys) (ret : Int) (uploadPending : Bool) : Sys :=
  { s with
    uploadFailures := if ret ≠ 0 then s.uploadFailures + 1 else s.uploadFailures
    framesUploaded := if ret ≠ 0 then s.framesUploaded else s.framesUploaded + 1
    upload := if uploadPending then s.upload.schedule else s.upload
    complete := s.complete.finish }

def completeStep (s : Sys) : Option Sys :=
  match s.complete.running with
  | none => if s.complete.queued then some { s with complete := s.complete.start .entry } else none
  | some .entry =>
    if s.uploadHoldsDmaLock then none else some { s with complete := s.complete.goto .locked }
  | some .locked =>
    if !s.dmaCompletionPending then some { s with complete := s.complete.finish }
    else some { s with complete := s.complete.goto (.pending s.dmaCompletionErr) }
  | some (.pending err) =>
    some { s with timeout := s.timeout.cancel, complete := s.complete.goto (.cancelled err) }
  | some (.cancelled err) =>
    match s.frameReq with
    | none => some { s with complete := s.complete.goto (.released err 0) }
    | some n =>
      let (s, len) := s.releaseRequest n
      some { s with frameReq := none, complete := s.complete.goto (.released err len) }
  | some (.released err len) =>
    let mode := s.activeMode
    let ret := if err = 0 ∧ len ≠ mode.frameBytes then - EIO else err
    some { s with complete := s.complete.goto (.compared mode ret) }
  | some (.compared mode ret) => some (s.dmaFinish mode ret)
  | some (.finished ret uploadPending) => some (s.countFinish ret uploadPending)

/-! ## The engine, its callback and the timer -/

/-- The interrupt handler settles the transfer in front and makes its callback, under the
engine lock. -/
def serviceStep (ok : Bool) (s : Sys) : Option Sys :=
  if s.callback.isSome then none
  else
    match s.reqs.find? (·.state = .submitted) with
    | none => none
    | some r =>
      some { s with
        reqs := s.reqs.map fun r' =>
          if r'.frame = r.frame then { r' with state := if ok then .completed else .failed } else r'
        callback := some (r.frame, .begun) }

/-- `fpga_drm_xdma_done`. -/
def callbackStep (s : Sys) : Option Sys :=
  match s.callback with
  | none => none
  | some (n, .begun) =>
    if s.takesCompletion then
      some { s.markCompletion 0 (.callback n) with callback := some (n, .marked) }
    else some { s with callback := none }
  | some (_, .marked) => some { s with complete := s.complete.schedule, callback := none }

/-- The timer fires and a worker enters `fpga_drm_dma_timeout_work`. -/
def timeoutBegin (s : Sys) : Option Sys :=
  match s.timeout.pending, s.timeout.running with
  | some n, none => some { s with timeout := ⟨none, some (n, .begun)⟩ }
  | _, _ => none

def timeoutStep (s : Sys) : Option Sys :=
  match s.timeout.running with
  | none => none
  | some (n, .begun) =>
    if s.takesCompletion then
      some { s.markCompletion (-ETIMEDOUT) (.timeout n) with
        timeout := ⟨s.timeout.pending, some (n, .marked)⟩ }
    else some { s with timeout := ⟨s.timeout.pending, none⟩ }
  | some (_, .marked) =>
    some { s with complete := s.complete.schedule, timeout := ⟨s.timeout.pending, none⟩ }

/-! ## The commit tail -/

/-- The last section of `fpga_drm_stop_uploads`. -/
def clearSnapshots (s : Sys) : Sys :=
  let refs := (putSnapshot s.overlay s.refs).2
  { s with primary := .zero, overlay := .zero, refs := (putSnapshot s.primary refs).2 }

/-- One step of `fpga_drm_stop_uploads` until it has cleared the snapshots.  `waitIdle`
goes on when DMA is idle, and otherwise runs out. -/
def stopStep (s : Sys) (caller : StopCaller) : StopPc → Option Sys
  | .cancelUpload =>
    if s.upload.running.isSome then none
    else some { s with upload := s.upload.cancel, commit := .stop caller .waitIdle }
  | .waitIdle =>
    if s.dmaIdle then some { s with commit := .stop caller .cancelTimeout }
    else some { s with commit := .stop caller .force }
  | .force =>
    if s.takesCompletion then
      some { s.markCompletion (-ETIMEDOUT) .forced with commit := .stop caller .forced }
    else some { s with commit := .stop caller .beginFlush }
  | .forced => some { s with complete := s.complete.schedule, commit := .stop caller .beginFlush }
  | .beginFlush => some { s with commit := .stop caller (.flush s.complete.seq) }
  | .flush t =>
    if s.complete.flushed t then some { s with commit := .stop caller .cancelTimeout } else none
  | .cancelTimeout =>
    if s.timeout.running.isSome then none
    else some { s with timeout := s.timeout.cancel, commit := .stop caller .beginLastFlush }
  | .beginLastFlush => some { s with commit := .stop caller (.lastFlush s.complete.seq) }
  | .lastFlush t =>
    if s.complete.flushed t then some { s with commit := .stop caller .clear } else none
  | .clear =>
    some { s.clearSnapshots with
      removed := match caller with
        | .remove => true
        | _ => s.removed
      commit := caller.next }

/-- The section of `fpga_drm_crtc_atomic_flush` under `upload_lock`, and whether it
installed a snapshot. -/
def flushSnapshots (p : Params) (c : Commit) (s : Sys) : Sys × Bool :=
  let overlayState := if p.enableOverlay then c.overlay else none
  let (primary, refs) := match c.primary with
    | some st => replaceSnapshot s.primary st s.refs
    | none => (s.primary, s.refs)
  let (overlay, refs) := match overlayState with
    | some st => replaceSnapshot s.overlay st refs
    | none => (s.overlay, refs)
  let changed := c.primary.isSome || overlayState.isSome
  ({ s with
    primary := primary
    overlay := overlay
    refs := refs
    commits := if changed then s.commits ++ [(primary, overlay)] else s.commits }, changed)

/-- The next step of the commit tail; `r` is what `fpga_drm_program_mode` meets, should
this step call it. -/
def commitStep (p : Params) (r : ProgramRets) (s : Sys) : Option Sys :=
  match s.commit with
  | .idle => none
  | .disable c => some { s with pipeEnabled := false, commit := .stop (.disable c) .cancelUpload }
  | .stop caller pc => s.stopStep caller pc
  | .flush c =>
    let (s, changed) := s.flushSnapshots p c
    some { s with atomicCommits := s.atomicCommits + 1, commit := .flushed c changed }
  | .flushed c changed =>
    let next : CommitPc := if c.needsModeset && c.active then .enable c else .done c
    if changed then
      some { s with
        framesQueued := s.framesQueued + 1, upload := s.upload.schedule, commit := next }
    else some { s with commit := next }
  | .enable c =>
    match findVideoMode c.mode with
    | none => some { s with commit := .done c }
    | some mode => some { s with commit := .stop (.enable c mode) .cancelUpload }
  | .program c mode =>
    let (ret, hw) := programMode p mode r s.hw
    some { s with hw := hw, commit := if ret ≠ 0 then .done c else .programmed c mode }
  | .programmed c mode =>
    some { s with activeMode := mode, pipeEnabled := true, commit := .done c }
  | .done _ => some { s with commit := .idle }

/-- The DRM core begins to commit: a change of `active` or of an active mode is a
modeset, and an active CRTC that needs one is disabled first. -/
def beginCommit (c : Commit) (s : Sys) : Option Sys :=
  match s.commit with
  | .idle =>
    if s.removed then none
    else if !c.needsModeset && (c.active != s.crtcActive || decide (some c.mode ≠ s.crtcMode)) then none
    else
      some { s with
        crtcActive := c.active
        crtcMode := some c.mode
        commit := if s.crtcActive && c.needsModeset then .disable c else .flush c }
  | _ => none

/-- `fpga_drm_remove`, once the shutdown helper has committed an inactive CRTC. -/
def beginRemove (s : Sys) : Option Sys :=
  match s.commit with
  | .idle =>
    if s.removed || s.crtcActive then none
    else some { s with commit := .stop .remove .cancelUpload }
  | _ => none

end Sys

/-! ## Steps and runs -/

inductive Act
  | begin (c : Commit)
  | remove
  | commit (r : ProgramRets)
  | upload (ret : Int)
  | complete
  | service (ok : Bool)
  | callback
  | timeoutBegin
  | timeout

def step (p : Params) : Act → Sys → Option Sys
  | .begin c, s => s.beginCommit c
  | .remove, s => s.beginRemove
  | .commit r, s => s.commitStep p r
  | .upload ret, s => s.uploadStep p ret
  | .complete, s => s.completeStep
  | .service ok, s => s.serviceStep ok
  | .callback, s => s.callbackStep
  | .timeoutBegin, s => s.timeoutBegin
  | .timeout, s => s.timeoutStep

/-- A state that some interleaving leads to. -/
def Reachable (p : Params) (s : Sys) : Prop := Reaches (step p) init s

end FpgaDrm
