import SimpleDisplay.Lib.Run
import SimpleDisplay.Xdma.Completion

/-!
# Frame after frame

The driver hands its frames to `xdma_xfer_submit_lines_nowait` one at a time and completes each
that was accepted before it hands over the next.  Whatever becomes of them, between two frames the
ring is free, all that they took is given back, and each of them is counted once (`frames_run`).
An engine at rest accepts a frame whose lines are mapped one by one (`Ready.accepted`).
-/

namespace FpgaDrm.Xdma

open Word StateMachine

/-! ## A frame -/

/-- What a frame meets. -/
structure FrameCase where
  kernel : Kernel
  /-- what the service of the engine has written before the completion -/
  service : DmaEngine → Serviced
  found : Found
  /-- `dma_completion_err` -/
  err : Int

/-- The driver with what `fpga_drm_dma_finish` and `fpga_drm_upload_work` count. -/
structure Uploads where
  fpga : FrameUpload
  framesUploaded : Nat
  uploadFailures : Nat
  /-- the frames handed over, and those that completed without an error; nothing reads them -/
  handed : Nat
  completed : Nat

/-- `fpga_drm_dma_finish`; `upload_work` is not scheduled here. -/
def dmaFinish (completionErr completionLen : Int) (u : Uploads) : Uploads :=
  let ret := if completionErr = 0 ∧ completionLen ≠ u.fpga.mode.frameBytes then - EIO else completionErr
  let fpga := { u.fpga with
    dmaInflight := false
    dmaCompletionPending := false
    dmaCompletionErr := 0
    uploadPending := false
    idleWakes := u.fpga.idleWakes + 1 }
  if ret ≠ 0 then { u with fpga := fpga, uploadFailures := u.uploadFailures + 1 }
  else { u with fpga := fpga, framesUploaded := u.framesUploaded + 1 }

/-- `fpga_drm_dma_complete_work` when a completion is pending; `found` are the transfers of
`frame_cb.req`. -/
def dmaCompleteWork (dev : Device) (a : Submission) (found : List (QueuedTransfer × Found))
    (err : Int) (u : Uploads) : Option Uploads :=
  match u.fpga.xdma.cbReq with
  | none => some (dmaFinish err 0 { u with fpga := { u.fpga with timeout := none } })
  | some req =>
    (xferCompletion dev a.ioCall req.swDescCnt found u.fpga.xdma).map fun r =>
      dmaFinish err r.1 { u with
        fpga := { u.fpga with timeout := none, xdma := { r.2 with cbReq := none } } }

inductive FrameEvent
  | setMode (mode : VideoMode)
  | frame (c : FrameCase)

section

variable (dev : Device) (xdmaHndl : Option Nat) (h2cChannel streamEpAddr : Nat)

/-- A frame is refused, or accepted and completed. -/
def uploadFrame (c : FrameCase) (u : Uploads) : Option Uploads :=
  let a := u.fpga.submission xdmaHndl h2cChannel streamEpAddr
  match submitFrameNowait dev c.kernel xdmaHndl h2cChannel streamEpAddr u.fpga with
  | none => none
  | some (ret, fpga) =>
    let u := { u with fpga := fpga, handed := u.handed + 1 }
    if ret ≠ 0 then some { u with uploadFailures := u.uploadFailures + 1 }
    else
      -- the list was empty, and holds the transfer of the frame
      let e := fpga.xdma.engines a.key
      let found := e.transferList.map fun x => (x, c.found)
      dmaCompleteWork dev a found c.err { u with
        fpga := { fpga with xdma := fpga.xdma.setEngine a.key (e.serve (c.service e)) }
        completed := u.completed + if c.err = 0 ∧ c.found.fine then 1 else 0 }

def frameStep : FrameEvent → Uploads → Option Uploads
  | .setMode mode, u =>
    if mode ∈ fpgaVideoModes then some { u with fpga := { u.fpga with activeMode := some mode } }
    else none
  | .frame c, u => uploadFrame dev xdmaHndl h2cChannel streamEpAddr c u

end

/-! ## When a frame is accepted -/

/-- Lines that are mapped one by one need a descriptor each. -/
theorem length_segments_lines {line max : Nat} (hl : 0 < line) (hle : line ≤ max) {es : List SgEntry}
    (hes : ∀ e ∈ es, e.len = line) {pos : Nat} (hpos : pos % line = 0) :
    (segments line max pos es).length = es.length := by
  induction es generalizing pos with
  | nil => rfl
  | cons e es ih =>
    have hlen := hes e List.mem_cons_self
    have hpiece : Cut.pieceLen line max pos line = line := by
      unfold Cut.pieceLen
      omega
    have hchunk : Cut.chunk line max pos e.len = [⟨pos, line⟩] := by
      rw [hlen, Cut.chunk_of_ne_zero (by omega), hpiece, Nat.sub_self, Cut.chunk_zero]
    have hrest := ih (fun e' he' => hes e' (List.mem_cons_of_mem e he'))
      (show (pos + line) % line = 0 by rw [Nat.add_mod_right]; exact hpos)
    rw [segments, hchunk, List.length_append, hlen, hrest, List.length_map, List.length_singleton,
      List.length_cons, Nat.add_comm]

theorem total_lines {line : Nat} {es : List SgEntry} (hes : ∀ e ∈ es, e.len = line) :
    total es = line * es.length := by
  induction es with
  | nil => rfl
  | cons e es ih =>
    rw [total_cons, hes e List.mem_cons_self, ih fun e' he' => hes e' (List.mem_cons_of_mem e he'),
      List.length_cons, Nat.mul_succ, Nat.add_comm]

/-- The engine is at rest, and the lines of the frame are mapped one by one. -/
structure Ready (dev : Device) (kernel : Kernel) (a : Submission) (e : DmaEngine) : Prop where
  args : a.cbHndl = true ∧ a.sgt = true ∧ 0 < a.lineSize ∧ 0 < a.lineCount
  known : a.devHndl.any dev.knows = true
  channel : a.write = true ∧ a.channel < dev.h2cChannelMax
  magic : e.magic = magicEngine
  dir : e.dir = .toDevice
  streaming : e.streaming = true
  online : kernel.offlineAtEntry = false ∧ kernel.offlineAtQueue = false
  opened : e.shutdown &&& engineShutdownRequest = 0
  idle : e.busy = false
  memory : kernel.kzalloc ∨ kernel.vmalloc
  lines : ∀ sg ∈ kernel.dmaMapSg, sg.len = a.lineSize
  count : kernel.dmaMapSg.length = a.lineCount
  fits : a.lineSize ≤ kernel.descBlenMax
  room : a.lineCount ≤ e.descMax ∧ a.lineCount < 2 ^ 32

theorem Ready.accepted {dev : Device} {kernel : Kernel} {a : Submission} {e : DmaEngine}
    (h : Ready dev kernel a e) : verdict dev kernel a e = -EIOCBQUEUED := by
  obtain ⟨hcb, hsgt, hl, hc⟩ := h.args
  obtain ⟨hwrite, hchannel⟩ := h.channel
  obtain ⟨hentry, hqueue⟩ := h.online
  obtain ⟨hroom, h32⟩ := h.room
  have hdir : a.dir = .toDevice := by
    unfold Submission.dir
    rw [hwrite]
    rfl
  have hcount : a.descCount kernel kernel.dmaMapSg = a.lineCount := by
    unfold Submission.descCount
    rw [length_segments_lines hl h.fits h.lines (Nat.zero_mod _), h.count, u32_natCast]
    exact Nat.mod_eq_of_lt h32
  have hfits : Fits kernel a kernel.dmaMapSg :=
    ⟨Nat.lt_of_lt_of_le hl h.fits, by rw [total_lines h.lines, h.count]⟩
  have hgoes : ¬ Leaving kernel e := by
    rintro (hoff | hshut)
    · rw [hqueue] at hoff
      cases hoff
    · exact hshut h.opened
  have hverdict : queueVerdict kernel a.lineCount e = 0 := by
    unfold queueVerdict
    rw [if_neg (by omega), if_neg hgoes]
  have hnonempty : kernel.dmaMapSg.length ≠ 0 := by
    rw [h.count]
    omega
  unfold verdict engineVerdict mappedVerdict requestVerdict
  rw [if_neg (by simp [hcb, hsgt]; omega), if_neg (by simp [h.known]),
    if_neg (fun hover => by omega), if_neg (by simp [hwrite]), if_neg (not_not.2 h.magic),
    if_neg (by simp [hentry]), if_neg (by rw [h.dir, hdir]; simp), if_neg (by simp [hwrite, h.streaming]),
    if_neg hnonempty, if_neg (not_not.2 hfits), hcount, if_neg (by omega),
    if_neg (not_not.2 h.memory), h.idle, if_neg (by decide), hverdict, if_neg (not_not.2 rfl)]

/-! ## What holds between two frames -/

def Resource.isMapped : Resource → Bool
  | .mapped _ => true
  | _ => false

def Resource.isUnmapped : Resource → Bool
  | .unmapped _ => true
  | _ => false

/-- As many requests freed as allocated, and as many mappings undone as made. -/
structure Returned (l : List Resource) : Prop where
  freed : l.count .freed = l.count .allocated
  unmapped : l.countP Resource.isUnmapped = l.countP Resource.isMapped

theorem Returned.append {l l' : List Resource} (h : Returned l) (h' : Returned l') : Returned (l ++ l') where
  freed := by rw [List.count_append, List.count_append, h.freed, h'.freed]
  unmapped := by rw [List.countP_append, List.countP_append, h.unmapped, h'.unmapped]

theorem balanced_returned {n : Nat} {back : List Resource} (h : back ∈ balanced n) : Returned back := by
  simp only [balanced, List.mem_cons, List.not_mem_nil, or_false] at h
  rcases h with rfl | rfl | rfl <;> exact ⟨rfl, rfl⟩

theorem frameLedger_returned (a : Submission) (origNents nents : Nat) :
    Returned (a.frameLedger origNents nents) := by
  unfold Submission.frameLedger
  split <;> exact ⟨rfl, rfl⟩

/-- No frame is under way on the engine. -/
structure Rests (key : Bool × Int) (s : Sys) : Prop where
  descUsed : (s.engines key).descUsed = 0
  held : s.held = []
  cbReq : s.cbReq = none
  nents : s.sgt.nents = 0
  resources : Returned s.resources

structure Between (key : Bool × Int) (u : Uploads) : Prop where
  mode : u.fpga.mode ∈ fpgaVideoModes
  rests : Rests key u.fpga.xdma
  idle : u.fpga.dmaInflight = false ∧ u.fpga.dmaCompletionPending = false
  uploaded : u.framesUploaded = u.completed
  counted : u.framesUploaded + u.uploadFailures = u.handed

section

variable {dev : Device} {xdmaHndl : Option Nat} {h2cChannel streamEpAddr : Nat}

theorem submission_key (fpga : FrameUpload) :
    (fpga.submission xdmaHndl h2cChannel streamEpAddr).key = (true, s32 h2cChannel) := by
  simp only [Submission.key, FrameUpload.submission]

/-- A frame is refused, and leaves nothing behind, or its transfer is queued. -/
theorem submitFrameNowait_ways (dev : Device) (kernel : Kernel) (xdmaHndl : Option Nat)
    (h2cChannel streamEpAddr : Nat) (fpga : FrameUpload) :
    (∃ ret fpga', submitFrameNowait dev kernel xdmaHndl h2cChannel streamEpAddr fpga = some (ret, fpga') ∧
      verdict dev kernel (fpga.submission xdmaHndl h2cChannel streamEpAddr)
        (fpga.xdma.engines (true, s32 h2cChannel)) ≠ -EIOCBQUEUED ∧ ret ≠ 0 ∧ fpga'.mode = fpga.mode ∧ (fpga'.dmaInflight = false ∧ fpga'.dmaCompletionPending = false) ∧
      Restored fpga.start.xdma fpga'.xdma) ∨
    ∃ fpga', submitFrameNowait dev kernel xdmaHndl h2cChannel streamEpAddr fpga = some (0, fpga') ∧
      fpga'.mode = fpga.mode ∧ submitLines dev kernel (fpga.submission xdmaHndl h2cChannel streamEpAddr)
        fpga.start.xdma = some (-EIOCBQUEUED, fpga'.xdma) := by
  obtain ⟨t, ht, hrest⟩ := submitLines_verdict dev kernel
    (a := fpga.submission xdmaHndl h2cChannel streamEpAddr) (s := fpga.start.xdma) rfl rfl rfl
  rw [submission_key] at ht hrest
  change submitLines _ _ _ _ = some (verdict dev kernel _ (fpga.xdma.engines _), t) at ht
  change verdict dev kernel _ (fpga.xdma.engines _) ≠ _ → _ at hrest
  generalize verdict dev kernel _ _ = rv at ht hrest ⊢
  unfold submitFrameNowait
  dsimp only
  rw [ht]
  dsimp only
  by_cases hrv : rv = -EIOCBQUEUED
  · rw [if_neg (not_not.2 hrv), ← hrv]
    exact .inr ⟨_, rfl, rfl, rfl⟩
  · rw [if_pos hrv]
    refine .inl ⟨_, _, rfl, hrv, ?_, rfl, ⟨rfl, rfl⟩, hrest hrv⟩
    split
    next hneg => exact Int.ne_of_lt hneg
    next => decide

theorem Rests.restored {key : Bool × Int} {s t : Sys} (h : Rests key s) (ht : Restored s t) :
    Rests key t := by
  obtain ⟨back, hback, hundone⟩ := ht
  refine ⟨(hundone.engines key).descUsed.trans h.descUsed, hundone.held.trans h.held, hundone.cbReq,
    hundone.nents, ?_⟩
  rw [hundone.resources]
  exact h.resources.append (balanced_returned hback)

/-- A frame of a mode of the table is less than 4 GiB, and not empty. -/
theorem frameBytes_lt {mode : VideoMode} (h : mode ∈ fpgaVideoModes) :
    mode.frameBytes = mode.lineBytes * mode.drm.vdisplay ∧ 0 < mode.frameBytes ∧
      mode.lineBytes * mode.drm.vdisplay < 2 ^ 32 := by
  revert mode
  decide

/-- A finished frame is counted: as uploaded when it completed without an error. -/
structure Finished (well : Prop) [Decidable well] (u u' : Uploads) : Prop where
  uploaded : u'.framesUploaded = u.framesUploaded + if well then 1 else 0
  counted : u'.framesUploaded + u'.uploadFailures = u.framesUploaded + u.uploadFailures + 1
  mode : u'.fpga.mode = u.fpga.mode
  idle : u'.fpga.dmaInflight = false ∧ u'.fpga.dmaCompletionPending = false
  handed : u'.handed = u.handed
  completed : u'.completed = u.completed

theorem dmaFinish_finished (err : Int) (fine : Bool) {u : Uploads} (hmode : 0 < u.fpga.mode.frameBytes) :
    Finished (err = 0 ∧ fine) u
      (dmaFinish err ((if fine then u.fpga.mode.frameBytes else 0 : Nat) : Int) u) := by
  unfold dmaFinish
  dsimp only
  obtain ⟨ret, hret⟩ : ∃ ret, (if err = 0 ∧ ((if fine then u.fpga.mode.frameBytes else 0 : Nat) : Int) ≠
      u.fpga.mode.frameBytes then - EIO else err) = ret := ⟨_, rfl⟩
  rw [hret]
  have hfine : ret = 0 ↔ err = 0 ∧ fine = true := by
    rw [← hret]
    by_cases herr : err = 0
    swap
    · rw [if_neg (fun h => herr h.1)]
      exact ⟨fun h => absurd h herr, fun h => h.1⟩
    cases fine with
    | true =>
      rw [if_neg (fun h => h.2 rfl)]
      exact ⟨fun h => ⟨h, rfl⟩, fun h => h.1⟩
    | false =>
      -- nothing was moved, and a frame is not empty
      have hshort : ((if false = true then u.fpga.mode.frameBytes else 0 : Nat) : Int) ≠
          u.fpga.mode.frameBytes := by
        rw [if_neg (by decide)]
        omega
      rw [if_pos ⟨herr, hshort⟩]
      exact ⟨fun h => absurd h (by decide), fun h => absurd h.2 (by decide)⟩
  by_cases hzero : ret = 0
  · rw [if_neg (not_not.2 hzero)]
    refine ⟨?_, Nat.add_right_comm _ _ _, rfl, ⟨rfl, rfl⟩, rfl, rfl⟩
    rw [if_pos (hfine.1 hzero)]
  · rw [if_pos hzero]
    refine ⟨?_, rfl, rfl, ⟨rfl, rfl⟩, rfl, rfl⟩
    rw [if_neg (fun h => hzero (hfine.2 h))]
    rfl

theorem dmaFinish_xdma (err len : Int) (u : Uploads) : (dmaFinish err len u).fpga.xdma = u.fpga.xdma := by
  unfold dmaFinish
  dsimp only
  generalize (if err = 0 ∧ len ≠ _ then - EIO else err) = ret
  by_cases hret : ret ≠ 0
  · rw [if_pos hret]
  · rw [if_neg hret]

/-- An accepted frame is completed. -/
theorem dmaCompleteWork_finishes {a : Submission} {s t : Sys} {x : QueuedTransfer} {u : Uploads}
    (hx : Accepted dev a s t x) (hw : Meanwhile a.key t u.fpga.xdma) (hmap : a.dmaMapped = false)
    (hrests : Rests a.key s) (hreq : u.fpga.xdma.cbReq = t.cbReq)
    (hlen : a.lineSize * a.lineCount = u.fpga.mode.frameBytes)
    (hpos : 0 < u.fpga.mode.frameBytes) (f : Found) (err : Int) :
    ∃ u', dmaCompleteWork dev a [(x, f)] err u = some u' ∧ Finished (err = 0 ∧ f.fine) u u' ∧
      Rests a.key u'.fpga.xdma := by
  obtain ⟨v, hcall, hused, hheld, hnents, hledger⟩ := hx.completes hw f
  rw [hlen] at hcall
  unfold dmaCompleteWork
  rw [hreq, hx.cbReq]
  dsimp only
  rw [hcall]
  generalize hr : ({ u with fpga := { u.fpga with timeout := none, xdma := { v with cbReq := none } } } :
    Uploads) = r
  have hmode : r.fpga.mode = u.fpga.mode := by
    rw [← hr]
    rfl
  have hfinished := dmaFinish_finished err f.fine (u := r) (hmode ▸ hpos)
  have hxdma := dmaFinish_xdma err ((if f.fine then u.fpga.mode.frameBytes else 0 : Nat) : Int) r
  rw [hmode] at hfinished
  refine ⟨_, congrArg some (congrArg (dmaFinish err _) hr), ?_, ?_⟩
  · rw [← hr] at hfinished ⊢
    exact ⟨hfinished.uploaded, hfinished.counted, hfinished.mode, hfinished.idle, hfinished.handed,
      hfinished.completed⟩
  · rw [hxdma, ← hr]
    refine ⟨hused, hheld.trans hrests.held, rfl, hnents hmap, ?_⟩
    show Returned v.resources
    rw [hledger]
    exact hrests.resources.append (frameLedger_returned _ _ _)

/-- **A frame** comes to an end, and leaves everything as it should be between two frames. -/
theorem Between.frame {u : Uploads} (h : Between (true, s32 h2cChannel) u) (c : FrameCase) :
    ∃ u', uploadFrame dev xdmaHndl h2cChannel streamEpAddr c u = some u' ∧
      Between (true, s32 h2cChannel) u' ∧ u'.handed = u.handed + 1 ∧
      (Ready dev c.kernel (u.fpga.submission xdmaHndl h2cChannel streamEpAddr)
          (u.fpga.xdma.engines (true, s32 h2cChannel)) → c.err = 0 → c.found.fine = true →
        u'.framesUploaded = u.framesUploaded + 1) := by
  obtain ⟨hmode, hrests, -, huploaded, hcounted⟩ := h
  have hstart : Rests (true, s32 h2cChannel) u.fpga.start.xdma :=
    ⟨hrests.descUsed, hrests.held, rfl, rfl, hrests.resources⟩
  unfold uploadFrame
  dsimp only
  rcases submitFrameNowait_ways dev c.kernel xdmaHndl h2cChannel streamEpAddr u.fpga with
    ⟨ret, fpga, heq, hrefused, hret, hsame, hidle, hrestored⟩ | ⟨fpga, heq, hsame, hlines⟩
  · rw [heq]
    dsimp only
    rw [if_pos hret]
    refine ⟨_, rfl, ⟨hsame ▸ hmode, hstart.restored hrestored, hidle, huploaded, ?_⟩, rfl,
      fun hready => absurd hready.accepted hrefused⟩
    dsimp only
    omega
  · rw [heq]
    dsimp only
    rw [if_neg (not_not.2 rfl)]
    obtain ⟨hbytes, hsize, h32⟩ := frameBytes_lt hmode
    obtain ⟨x, hx⟩ := submitLines_accepted hlines h32
    let a := u.fpga.submission xdmaHndl h2cChannel streamEpAddr
    have hlen : a.lineSize * a.lineCount = fpga.mode.frameBytes := by
      rw [hsame]
      exact hbytes.symm
    rw [hx.list, List.map_singleton]
    generalize hu₁ : Uploads.mk _ u.framesUploaded u.uploadFailures _ _ = u₁
    have hw : Meanwhile a.key fpga.xdma u₁.fpga.xdma := by
      rw [← hu₁]
      exact ⟨⟨_, Sys.setEngine_self _ _ _⟩, rfl, rfl, rfl⟩
    have hreq : u₁.fpga.xdma.cbReq = fpga.xdma.cbReq := by
      rw [← hu₁]
      rfl
    have hmode₁ : u₁.fpga.mode = fpga.mode := by
      rw [← hu₁]
      rfl
    rw [← submission_key u.fpga] at hstart
    obtain ⟨u', hwork, hfinished, hnext⟩ := dmaCompleteWork_finishes hx hw rfl hstart hreq
      (hlen.trans (congrArg VideoMode.frameBytes hmode₁.symm)) (by rw [hmode₁, hsame]; exact hsize) c.found c.err
    rw [submission_key] at hnext
    refine ⟨u', hwork, ⟨?_, hnext, hfinished.idle, ?_, ?_⟩, ?_, fun _ herr hfine => ?_⟩
    · rw [hfinished.mode, hmode₁, hsame]
      exact hmode
    · rw [hfinished.uploaded, hfinished.completed, ← hu₁]
      exact congrArg (· + _) huploaded
    · rw [hfinished.counted, hfinished.handed, ← hu₁]
      exact congrArg (· + 1) hcounted
    · rw [hfinished.handed, ← hu₁]
    · rw [hfinished.uploaded, if_pos ⟨herr, hfine⟩, ← hu₁]

/-- **Over any number of frames**, refused or accepted, completed, failed or aborted, in whatever
modes of the table: every frame comes to an end, and between two frames the driver is idle, no
slot of the ring is in use, no lock is held, every request has been freed and every mapping undone;
`frames_uploaded` and `upload_failures` have counted each frame once, as uploaded just when its
transfer completed without an error; and such a frame is uploaded whenever the engine is at rest. -/
theorem frames_run {u u' : Uploads} (h : Between (true, s32 h2cChannel) u)
    (hrun : Reaches (frameStep dev xdmaHndl h2cChannel streamEpAddr) u u') :
    Between (true, s32 h2cChannel) u' ∧
      ∀ c, ∃ u'', frameStep dev xdmaHndl h2cChannel streamEpAddr (.frame c) u' = some u'' ∧
        u''.handed = u'.handed + 1 ∧
        (Ready dev c.kernel (u'.fpga.submission xdmaHndl h2cChannel streamEpAddr)
            (u'.fpga.xdma.engines (true, s32 h2cChannel)) → c.err = 0 → c.found.fine = true →
          u''.framesUploaded = u'.framesUploaded + 1) := by
  have hbetween : Between (true, s32 h2cChannel) u' := by
    refine hrun.invariant (fun event u u' hu hstep => ?_) h
    cases event with
    | setMode mode =>
      unfold frameStep at hstep
      dsimp only at hstep
      split at hstep
      next hmem =>
        obtain rfl := Option.some.inj hstep
        exact ⟨hmem, hu.rests, hu.idle, hu.uploaded, hu.counted⟩
      next => cases hstep
    | frame c =>
      obtain ⟨v, hv, hnext, -⟩ := @Between.frame dev xdmaHndl h2cChannel streamEpAddr u hu c
      obtain rfl := Option.some.inj (hv.symm.trans hstep)
      exact hnext
  refine ⟨hbetween, fun c => ?_⟩
  obtain ⟨u'', hu'', -, hcounts⟩ := @Between.frame dev xdmaHndl h2cChannel streamEpAddr u' hbetween c
  exact ⟨u'', hu'', hcounts⟩

end

def restingUploads : Uploads := ⟨⟨none, restingSys, false, false, 0, false, 0, none⟩, 0, 0, 0, 0⟩

theorem wholeLine_len_lt : preferredMode.lineBytes < 2 ^ 32 := by decide

def wholeLine : SgEntry := ⟨0x100000, preferredMode.lineBytes, lineEntry_addr_lt, wholeLine_len_lt⟩

/-- A frame whose lines are mapped one by one, and which completes. -/
def wholeFrame : FrameCase where
  kernel := { lineMapping with dmaMapSg := List.replicate preferredMode.drm.vdisplay wholeLine }
  service := fun e => ⟨false, engineShutdownNone, 1080, 0, [], e.regs⟩
  found := .completed []
  err := 0

theorem restingUploads_between : Between (true, s32 (0 : Nat)) restingUploads :=
  ⟨preferredMode_mem, ⟨rfl, rfl, rfl, rfl, ⟨rfl, rfl⟩⟩, ⟨rfl, rfl⟩, rfl, rfl⟩

theorem wholeFrame_ready : Ready knownDevice wholeFrame.kernel
    (restingUploads.fpga.submission (some 1) 0 0) restingEngine where
  args := ⟨rfl, rfl, by decide, by decide⟩
  known := by decide
  channel := ⟨rfl, by decide⟩
  magic := rfl
  dir := rfl
  streaming := rfl
  online := ⟨rfl, rfl⟩
  opened := by decide
  idle := by decide
  memory := .inl rfl
  lines := by
    intro sg hsg
    rw [List.eq_of_mem_replicate hsg]
    rfl
  count := List.length_replicate
  fits := by decide
  room := ⟨by decide, by decide⟩

theorem frames_run_one : ∃ u', frameStep knownDevice (some 1) 0 0 (.frame wholeFrame) restingUploads = some u' ∧
    u'.handed = 1 ∧ u'.framesUploaded = 1 ∧ Between (true, s32 (0 : Nat)) u' := by
  obtain ⟨-, hframes⟩ := frames_run restingUploads_between (Reaches.refl restingUploads)
  obtain ⟨u', hu', hhanded, huploaded⟩ := hframes wholeFrame
  exact ⟨u', hu', hhanded, huploaded wholeFrame_ready rfl rfl,
    (frames_run restingUploads_between ((Reaches.refl restingUploads).tail hu')).1⟩

end FpgaDrm.Xdma
