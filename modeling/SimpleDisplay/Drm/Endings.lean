import SimpleDisplay.Lib.History
import SimpleDisplay.Drm.ActiveMode

/-!
# How frames end

A frame is ended by an execution of `fpga_drm_dma_finish`.  Its result rests on three
things read at different times: the error the signal left in `dma_completion_err`, the
length `xdma_xfer_completion` makes of the transfer's state, and the active mode.  The
callback reports 0 for failed transfers too, so that the length alone tells them.

`Watch` records what each execution was told (`note`).  Over all runs, every accepted
frame is ended once and in order, each end is counted once, and as uploaded only when the
whole transfer completed (`every_frame_finished_once`).
-/

namespace FpgaDrm

open Work StateMachine

/-! ## What a finish is told -/

/-- The recorded error, the request in `frame_cb.req`, and the length
`xdma_xfer_completion` returned for it. -/
structure Told where
  err : Int
  req : Option Request
  len : Nat

/-- An execution of `fpga_drm_dma_finish`. -/
structure Ending where
  frame : Nat
  told : Option Told
  mode : VideoMode
  ret : Int

def Ending.finish (e : Ending) : Finish := ⟨e.frame, e.mode, e.ret⟩

structure Watch where
  /-- By the last run of `dma_complete_work` that found a completion. -/
  told : Option Told
  endings : List Ending

namespace Sys

/-- The request that `frame_cb.req` points to. -/
def heldRequest (s : Sys) : Option Request :=
  s.frameReq.bind fun n => s.reqs.find? (·.frame = n)

def note : Act → Sys → Watch → Watch
  | .complete, s, w =>
    match s.complete.running with
    | some (.cancelled err) =>
      let len := match s.frameReq with
        | some n => (s.releaseRequest n).2
        | none => 0
      { w with told := some ⟨err, s.heldRequest, len⟩ }
    | some (.compared mode ret) =>
      { w with endings := w.endings ++ [⟨s.frame, w.told, mode, ret⟩] }
    | _ => w
  | _, _, w => w

/-- The upload path with the record of its endings. -/
def watched (p : Params) : Act → Sys × Watch → Option (Sys × Watch) := recorded (step p) note

/-- `dma_inflight` is set for a frame that was accepted. -/
def unfinished (s : Sys) : Bool := s.dmaInflight && decide (s.frame ≤ s.submitted.length)

/-- `fpga_drm_dma_finish` has cleared the flags and not counted. -/
def counting (s : Sys) : Bool :=
  match s.complete.running with
  | some (.finished _ _) => true
  | _ => false

end Sys

/-- The endings that have been counted. -/
def Watch.counted (w : Watch) (s : Sys) : List Ending :=
  if s.counting then w.endings.dropLast else w.endings

/-- The whole transfer made for the frame, at the size of the mode it was submitted for. -/
def Told.Of (t : Told) (frame : Nat) (submitted : List Frame) : Prop :=
  ∃ r f, t.req = some r ∧ r.frame = frame ∧ t.len = r.completionLen ∧
    submitted[frame - 1]? = some f ∧ r.lineSize * r.lineCount = f.mode.frameBytes

theorem Told.Of.append {t : Told} {n : Nat} {fs : List Frame} (h : t.Of n fs) (gs : List Frame) :
    t.Of n (fs ++ gs) := by
  obtain ⟨r, f, h1, h2, h3, h4, h5⟩ := h
  have hlt := (List.getElem?_eq_some_iff.1 h4).1
  exact ⟨r, f, h1, h2, h3, by rw [List.getElem?_append_left hlt, h4], h5⟩

/-! ## Sizes -/

/-- The mode a CRTC enable is going to make active. -/
def CommitPc.enabling : CommitPc → Option VideoMode
  | .stop (.enable _ mode) _ | .program _ mode | .programmed _ mode => some mode
  | _ => none

/-- Every mode in use is one of the table, and a request has the size of its frame. -/
structure Sized (s : Sys) : Prop where
  active : s.activeMode ∈ fpgaVideoModes
  enabling : ∀ mode, s.commit.enabling = some mode → mode ∈ fpgaVideoModes
  reqs : ∀ r ∈ s.reqs, ∃ f, s.submitted[r.frame - 1]? = some f ∧
    r.lineSize * r.lineCount = f.mode.frameBytes

theorem frameBytes_eq {m : VideoMode} (h : m ∈ fpgaVideoModes) :
    m.frameBytes = m.lineBytes * m.drm.vdisplay :=
  (fpgaVideoModes_sizes m h).2.1

theorem frameBytes_pos {m : VideoMode} (h : m ∈ fpgaVideoModes) : 0 < m.frameBytes := by
  obtain ⟨h1, h2, h3, -, h4, -⟩ := fpgaVideoModes_sizes m h
  rw [h2, h1]
  exact Nat.mul_pos (Nat.mul_pos h3 (by decide)) h4

namespace Sized

open Sys

variable {p : Params} {s t : Sys}

theorem init : Sized init where
  active := preferredMode_mem
  enabling _ h := by cases h
  reqs _ h := by cases h

/-- What changes no mode and adds no request. -/
theorem same (hi : Sized s) (hm : t.activeMode = s.activeMode) (hc : t.commit = s.commit)
    (hr : ∀ r ∈ t.reqs, ∃ r' ∈ s.reqs, r.frame = r'.frame ∧ r.lineSize = r'.lineSize ∧
      r.lineCount = r'.lineCount) (hs : t.submitted = s.submitted) : Sized t where
  active := hm ▸ hi.active
  enabling := hc ▸ hi.enabling
  reqs r h := by
    obtain ⟨r', h', h1, h2, h3⟩ := hr r h
    rw [h1, h2, h3, hs]
    exact hi.reqs r' h'

theorem keep {r : Request} {rs : List Request} (h : r ∈ rs) : ∃ r' ∈ rs, r.frame = r'.frame ∧
    r.lineSize = r'.lineSize ∧ r.lineCount = r'.lineCount :=
  ⟨r, h, rfl, rfl, rfl⟩

theorem uploadMove (ho : Owned s) (hm : ModeOk p s) (hi : Sized s) (h : UploadMove p s t) :
    Sized t := by
  cases h with
  | accept l mode hr hcb =>
    have hoff : s.dma.Offered := ho.upload _ hr rfl
    have hnil : s.reqs = [] := hoff.reqs
    have hframe : s.frame = s.submitted.length + 1 := hoff.frame
    have hmode : mode = s.activeMode := hm.mode _ mode hr rfl
    refine ⟨hi.active, hi.enabling, fun r h => ?_⟩
    have h : r ∈ s.reqs ++ [_] := h
    rw [hnil, List.nil_append, List.mem_singleton] at h
    subst h
    refine ⟨⟨s.lineBufs, mode, mode.lineBytes, mode.drm.vdisplay, s.hw⟩, ?_, ?_⟩
    · show (s.submitted ++ [_])[s.frame - 1]? = some _
      rw [hframe, Nat.add_sub_cancel, List.getElem?_concat_length]
    · exact (frameBytes_eq (hmode ▸ hi.active)).symm
  | _ => exact hi.same rfl rfl (fun _ => keep) rfl

theorem completeMove (hi : Sized s) (h : CompleteMove s t) : Sized t := by
  cases h with
  | release err n hr hf => exact hi.same rfl rfl (fun _ h => keep (List.mem_filter.1 h).1) rfl
  | _ => exact hi.same rfl rfl (fun _ => keep) rfl

theorem signalMove (hi : Sized s) (h : SignalMove s t) : Sized t := by
  cases h with
  | service r st hcb hr hs =>
    refine hi.same rfl rfl (fun r' h => ?_) rfl
    obtain ⟨r'', hmem, rfl⟩ := List.mem_map.1 h
    refine ⟨r'', hmem, ?_⟩
    split <;> exact ⟨rfl, rfl, rfl⟩
  | _ => exact hi.same rfl rfl (fun _ => keep) rfl

/-- A commit move that takes up no other mode. -/
theorem other (hi : Sized s) (hm : t.activeMode = s.activeMode) (hr : t.reqs = s.reqs)
    (hs : t.submitted = s.submitted)
    (hc : ∀ mode, t.commit.enabling = some mode → s.commit.enabling = some mode) : Sized t where
  active := hm ▸ hi.active
  enabling mode h := hi.enabling mode (hc mode h)
  reqs := by rw [hr, hs]; exact hi.reqs

theorem stopMove (hi : Sized s) {caller : StopCaller} {pc : StopPc}
    (hc : s.commit = .stop caller pc) (h : StopMove s caller pc t) : Sized t := by
  have hnext : ∀ mode, caller.next.enabling = some mode → s.commit.enabling = some mode := by
    intro mode hm
    rw [hc]
    cases caller with
    | enable c m => exact hm
    | disable c => cases hm
    | remove => cases hm
  have hstop : ∀ pc' mode, (CommitPc.stop caller pc').enabling = some mode →
      s.commit.enabling = some mode := by
    intro pc' mode hm
    rw [hc]
    cases caller <;> exact hm
  cases h with
  | clear b => exact hi.other rfl rfl rfl hnext
  | _ => exact hi.other rfl rfl rfl (hstop _)

theorem commitMove (hi : Sized s) (h : CommitMove p s t) : Sized t := by
  have hback : ∀ (b : Bool) (c : Commit) (mode : VideoMode),
      (if b then CommitPc.enable c else CommitPc.done c).enabling ≠ some mode := by
    intro b c mode
    cases b <;> simp [CommitPc.enabling]
  cases h with
  | stop caller pc hc ht => exact hi.stopMove hc ht
  | queue c hc => exact hi.other rfl rfl rfl fun mode h => absurd h (hback _ c mode)
  | unchanged c hc => exact hi.other rfl rfl rfl fun mode h => absurd h (hback _ c mode)
  | enable c mode hc hm =>
    refine ⟨hi.active, ?_, hi.reqs⟩
    rintro _ ⟨⟩
    exact findVideoMode_mem hm
  | program c mode r hc hr => exact hi.other rfl rfl rfl fun m h => by rw [hc]; exact h
  | enabled c mode hc =>
    refine ⟨hi.enabling mode (by rw [hc]; rfl), ?_, hi.reqs⟩
    rintro _ ⟨⟩
  | begin c hc hrem ha =>
    refine hi.other rfl rfl rfl fun mode h => ?_
    have h : (if s.crtcActive && c.needsModeset then CommitPc.disable c
      else CommitPc.flush c).enabling = some mode := h
    split at h <;> cases h
  | _ => exact hi.other rfl rfl rfl nofun

theorem move (ho : Owned s) (hm : ModeOk p s) (hi : Sized s) (h : Move p s t) : Sized t := by
  cases h with
  | upload h => exact hi.uploadMove ho hm h
  | complete h => exact hi.completeMove h
  | signal h => exact hi.signalMove h
  | commit h => exact hi.commitMove h

end Sized

/-! ## Exactly once -/

/-- Every accepted frame is ended or in flight, and each end is counted once. -/
structure Accounted (s : Sys) (w : Watch) : Prop where
  ended : s.submitted.length = w.endings.length + if s.unfinished then 1 else 0
  order : ∀ i e, w.endings[i]? = some e → e.frame = i + 1
  uploaded : s.framesUploaded = (w.counted s).countP (·.ret = 0)
  failures : s.uploadFailures = s.failed.length + (w.counted s).countP (·.ret ≠ 0)
  last : ∀ ret up, s.complete.running = some (.finished ret up) →
    ∃ es e, w.endings = es ++ [e] ∧ e.ret = ret
  finishes : s.finishes = w.endings.map Ending.finish

namespace Accounted

open Sys

variable {p : Params} {s t : Sys} {w : Watch}

theorem init : Accounted init ⟨none, []⟩ where
  ended := rfl
  order _ _ h := by cases h
  uploaded := rfl
  failures := rfl
  last _ _ h := by cases h
  finishes := rfl

/-- What ends no frame and begins no count. -/
theorem same (hi : Accounted s w) (hu : t.unfinished = s.unfinished)
    (hs : t.submitted = s.submitted) (hc : t.counting = s.counting)
    (hl : ∀ ret up, t.complete.running = some (.finished ret up) →
      s.complete.running = some (.finished ret up))
    (h1 : t.framesUploaded = s.framesUploaded)
    (h2 : ∃ k, t.failed.length = s.failed.length + k ∧ t.uploadFailures = s.uploadFailures + k)
    (hf : t.finishes = s.finishes) : Accounted t w where
  ended := by rw [hs, hu]; exact hi.ended
  order := hi.order
  uploaded := by
    have hcount : w.counted t = w.counted s := by unfold Watch.counted; rw [hc]
    rw [h1, hcount]
    exact hi.uploaded
  failures := by
    have hcount : w.counted t = w.counted s := by unfold Watch.counted; rw [hc]
    obtain ⟨k, hk, hfail⟩ := h2
    have := hi.failures
    rw [hfail, hk, hcount]
    omega
  last ret up h := hi.last ret up (hl ret up h)
  finishes := by rw [hf]; exact hi.finishes

theorem counting_of_running {s : Sys} {pc : CompletePc} (h : s.complete.running = some pc)
    (hne : ∀ ret up, pc ≠ .finished ret up) : s.counting = false := by
  unfold counting
  rw [h]
  cases pc with
  | finished ret up => exact absurd rfl (hne ret up)
  | _ => rfl

theorem unfinished_of_idle (h : s.dma.Idle) : s.unfinished = false := by
  have hin : s.dmaInflight = false := h.inflight
  simp [unfinished, hin]

theorem unfinished_of_offered (h : s.dma.Offered) : s.unfinished = false := by
  have hframe : s.frame = s.submitted.length + 1 := h.frame
  simp [unfinished, hframe]

theorem unfinished_of_released (h : s.dma.Released) : s.unfinished = true := by
  have hin : s.dmaInflight = true := h.inflight
  have hframe : s.frame = s.submitted.length := h.frame
  simp [unfinished, hin, hframe]

theorem uploadMove (ho : Owned s) (hi : Accounted s w) (h : UploadMove p s t) :
    Accounted t w := by
  cases h with
  | composeFailed l hr hret => exact hi.same rfl rfl rfl (fun _ _ => id) rfl ⟨1, rfl, rfl⟩ rfl
  | refuse l mode hr => exact hi.same rfl rfl rfl (fun _ _ => id) rfl ⟨1, rfl, rfl⟩ rfl
  | inflight l mode hr =>
    have hidle : s.dma.Idle := ho.upload _ hr rfl
    refine hi.same ?_ rfl rfl (fun _ _ => id) rfl ⟨0, rfl, rfl⟩ rfl
    rw [unfinished_of_idle hidle]
    show decide (s.submitted.length + 1 ≤ s.submitted.length) = false
    simp only [decide_eq_false_iff_not]
    omega
  | rollBack l hr =>
    have hoff : s.dma.Offered := ho.upload _ hr rfl
    refine hi.same ?_ rfl rfl (fun _ _ => id) rfl ⟨0, rfl, rfl⟩ rfl
    rw [unfinished_of_offered hoff]
    rfl
  | accept l mode hr hcb =>
    have hoff : s.dma.Offered := ho.upload _ hr rfl
    have hin : s.dmaInflight = true := hoff.inflight
    have hframe : s.frame = s.submitted.length + 1 := hoff.frame
    have hend := hi.ended
    refine ⟨?_, hi.order, hi.uploaded, hi.failures, hi.last, hi.finishes⟩
    rw [unfinished_of_offered hoff] at hend
    simp [unfinished, acceptFrame, hin, hframe, hend]
  | _ => exact hi.same rfl rfl rfl (fun _ _ => id) rfl ⟨0, rfl, rfl⟩ rfl

/-- A move of `dma_complete_work` that neither clears the flags nor counts. -/
theorem quiet (hi : Accounted s w) (hu : t.unfinished = s.unfinished)
    (hs : t.submitted = s.submitted) (hc : s.counting = false)
    (hl : ∀ ret up, t.complete.running ≠ some (.finished ret up))
    (h1 : t.framesUploaded = s.framesUploaded) (h2 : t.failed = s.failed)
    (h3 : t.uploadFailures = s.uploadFailures) (hf : t.finishes = s.finishes) :
    Accounted t w := by
  refine hi.same hu hs ?_ (fun ret up h => absurd h (hl ret up)) h1 ⟨0, by rw [h2]; rfl, h3⟩ hf
  rw [hc]
  unfold counting
  split
  · next ret up hr => exact absurd hr (hl ret up)
  · rfl

theorem goto_not_finished {pc pc' : CompletePc} (hr : s.complete.running = some pc)
    (hne : ∀ ret up, pc' ≠ .finished ret up) (ret : Int) (up : Bool) :
    (s.complete.goto pc').running ≠ some (.finished ret up) := by
  rw [WorkItem.goto_running_of_some hr]
  exact fun h => hne ret up (Option.some.inj h)

/-- The frame in flight is ended, and not counted yet. -/
theorem finish {mode : VideoMode} {ret : Int} (ho : Owned s) (hi : Accounted s w)
    (hr : s.complete.running = some (.compared mode ret)) :
    Accounted (s.dmaFinish mode ret) (note .complete s w) := by
  have hrel : s.dma.Released := ho.complete _ hr rfl
  have hframe : s.frame = s.submitted.length := hrel.frame
  have hcount : w.counted s = w.endings := by
    simp [Watch.counted, counting_of_running hr]
  have hend := hi.ended
  rw [unfinished_of_released hrel] at hend
  have hnote : note .complete s w =
      { w with endings := w.endings ++ [⟨s.frame, w.told, mode, ret⟩] } := by simp [note, hr]
  have hcount' : (note .complete s w).counted (s.dmaFinish mode ret) = w.endings := by
    simp [Watch.counted, counting, dmaFinish, WorkItem.goto_running_of_some hr, hnote]
  constructor
  · rw [hnote]
    simpa [unfinished, dmaFinish] using hend
  · intro i e he
    rw [hnote] at he
    rcases Nat.lt_trichotomy i w.endings.length with hlt | heq | hgt
    · exact hi.order i e (by rwa [List.getElem?_append_left hlt] at he)
    · subst heq
      rw [List.getElem?_concat_length] at he
      cases he
      show s.frame = w.endings.length + 1
      simp only [if_true] at hend
      omega
    · rw [List.getElem?_eq_none (by simp; omega)] at he
      cases he
  · rw [hcount', ← hcount]
    exact hi.uploaded
  · rw [hcount', ← hcount]
    exact hi.failures
  · intro ret' up h
    have h : (s.complete.goto (.finished ret s.uploadPending)).running = some (.finished ret' up) := h
    rw [WorkItem.goto_running_of_some hr] at h
    cases h
    exact ⟨w.endings, _, by rw [hnote], rfl⟩
  · rw [hnote]
    simp [dmaFinish, hi.finishes, Ending.finish]

/-- The last ending is counted, by its result. -/
theorem count {ret : Int} {up : Bool} (hi : Accounted s w)
    (hr : s.complete.running = some (.finished ret up)) :
    Accounted (s.countFinish ret up) (note .complete s w) := by
  have hnote : note .complete s w = w := by simp [note, hr]
  obtain ⟨es, e, hes, he⟩ := hi.last ret up hr
  have hcs : w.counted s = es := by simp [Watch.counted, counting, hr, hes]
  have hct : w.counted (s.countFinish ret up) = es ++ [e] := by
    simp [Watch.counted, counting, countFinish, hes]
  rw [hnote]
  refine ⟨hi.ended, hi.order, ?_, ?_, fun ret' up' h => ?_, hi.finishes⟩
  · have := hi.uploaded
    rw [hcs] at this
    rw [hct]
    by_cases h0 : ret = 0 <;> simp [countFinish, h0, he, this]
  · have := hi.failures
    rw [hcs] at this
    rw [hct]
    by_cases h0 : ret = 0 <;> simp [countFinish, h0, he, this]
    omega
  · cases h

theorem completeMove (ho : Owned s) (hi : Accounted s w) (h : CompleteMove s t) :
    Accounted t (note .complete s w) := by
  cases h with
  | start hr hq =>
    rw [show note .complete s w = w by simp [note, hr]]
    exact hi.quiet rfl rfl (by simp [counting, hr]) (by simp) rfl rfl rfl rfl
  | lock hr hl =>
    rw [show note .complete s w = w by simp [note, hr]]
    exact hi.quiet rfl rfl (counting_of_running hr (by simp)) (goto_not_finished hr (by simp))
      rfl rfl rfl rfl
  | nothing hr hp =>
    rw [show note .complete s w = w by simp [note, hr]]
    exact hi.quiet rfl rfl (counting_of_running hr (by simp)) (by simp) rfl rfl rfl rfl
  | found hr hp =>
    rw [show note .complete s w = w by simp [note, hr]]
    exact hi.quiet rfl rfl (counting_of_running hr (by simp)) (goto_not_finished hr (by simp))
      rfl rfl rfl rfl
  | cancel err hr =>
    rw [show note .complete s w = w by simp [note, hr]]
    exact hi.quiet rfl rfl (counting_of_running hr (by simp)) (goto_not_finished hr (by simp))
      rfl rfl rfl rfl
  | noRequest err hr hf =>
    obtain ⟨hfly, -⟩ : s.dma.Flying ∧ s.dma.pending = true := ho.complete _ hr rfl
    have := hf.symm.trans hfly.req
    cases this
  | release err n hr hf =>
    have hq := hi.quiet (t := { (s.releaseRequest n).1 with
        frameReq := none
        complete := s.complete.goto (.released err (s.releaseRequest n).2) }) rfl rfl
      (counting_of_running hr (by simp)) (goto_not_finished hr (by simp)) rfl rfl rfl rfl
    simp only [note, hr]
    exact ⟨hq.ended, hq.order, hq.uploaded, hq.failures, hq.last, hq.finishes⟩
  | compare err len ret hr hret =>
    rw [show note .complete s w = w by simp [note, hr]]
    exact hi.quiet rfl rfl (counting_of_running hr (by simp)) (goto_not_finished hr (by simp))
      rfl rfl rfl rfl
  | finish mode ret hr => exact hi.finish ho hr
  | count ret up hr => exact hi.count hr

theorem signalMove (hi : Accounted s w) (h : SignalMove s t) : Accounted t w := by
  have hcount : ∀ c : WorkItem CompletePc, c.running = s.complete.running →
      ({ s with complete := c } : Sys).counting = s.counting := by
    intro c hc
    unfold counting
    rw [hc]
  cases h with
  | callbackSchedule n hcb =>
    exact hi.same rfl rfl (hcount _ (WorkItem.schedule_running _)) (fun ret up h => by
      rwa [WorkItem.schedule_running] at h) rfl ⟨0, rfl, rfl⟩ rfl
  | timeoutSchedule n hr =>
    exact hi.same rfl rfl (hcount _ (WorkItem.schedule_running _)) (fun ret up h => by
      rwa [WorkItem.schedule_running] at h) rfl ⟨0, rfl, rfl⟩ rfl
  | _ => exact hi.same rfl rfl rfl (fun _ _ => id) rfl ⟨0, rfl, rfl⟩ rfl

theorem commitMove (hi : Accounted s w) (h : CommitMove p s t) : Accounted t w := by
  cases h with
  | stop caller pc hc ht =>
    cases ht with
    | schedule =>
      refine hi.same rfl rfl ?_ (fun ret up h => ?_) rfl ⟨0, rfl, rfl⟩ rfl
      · simp only [counting, WorkItem.schedule_running]
      · rwa [WorkItem.schedule_running] at h
    | _ => exact hi.same rfl rfl rfl (fun _ _ => id) rfl ⟨0, rfl, rfl⟩ rfl
  | _ => exact hi.same rfl rfl rfl (fun _ _ => id) rfl ⟨0, rfl, rfl⟩ rfl

end Accounted

/-! ## Classified correctly -/

/-- What `fpga_drm_dma_finish` makes of it. -/
def Told.ret (t : Told) (mode : VideoMode) : Int :=
  if t.err = 0 ∧ t.len ≠ mode.frameBytes then - EIO else t.err

/-- The ending followed from the error and the length of the frame's own transfer. -/
def Ending.Judged (e : Ending) (submitted : List Frame) : Prop :=
  ∃ t, e.told = some t ∧ t.Of e.frame submitted ∧ 0 < e.mode.frameBytes ∧ e.ret = t.ret e.mode

theorem Ending.Judged.append {e : Ending} {fs : List Frame} (h : e.Judged fs) (gs : List Frame) :
    e.Judged (fs ++ gs) := by
  obtain ⟨t, h1, h2, h3⟩ := h
  exact ⟨t, h1, h2.append gs, h3⟩

/-- A result of 0 means no error, and the whole transfer of the submitted mode. -/
theorem Told.Of.completed {t : Told} {n : Nat} {fs : List Frame} (h : t.Of n fs)
    {mode : VideoMode} (hm : 0 < mode.frameBytes) (hret : t.ret mode = 0) :
    t.err = 0 ∧ ∃ r f, t.req = some r ∧ r.frame = n ∧ r.state = .completed ∧
      fs[n - 1]? = some f ∧ t.len = f.mode.frameBytes := by
  obtain ⟨r, f, hreq, hframe, hlen, hf, hsize⟩ := h
  unfold Told.ret at hret
  split at hret
  · cases hret
  · next hne =>
    have hmode : t.len = mode.frameBytes := by
      by_contra hc
      exact hne ⟨hret, hc⟩
    refine ⟨hret, r, f, hreq, hframe, ?_, hf, ?_⟩
    · by_contra hc
      rw [Request.completionLen, if_neg hc] at hlen
      omega
    · by_cases hc : r.state = .completed
      · rw [hlen, Request.completionLen, if_pos hc, hsize]
      · rw [Request.completionLen, if_neg hc] at hlen
        omega

structure Judged (s : Sys) (w : Watch) : Prop where
  released : ∀ err len, s.complete.running = some (.released err len) →
    ∃ t, w.told = some t ∧ t.Of s.frame s.submitted ∧ t.err = err ∧ t.len = len
  compared : ∀ mode ret, s.complete.running = some (.compared mode ret) →
    ∃ t, w.told = some t ∧ t.Of s.frame s.submitted ∧ 0 < mode.frameBytes ∧ ret = t.ret mode
  endings : ∀ e ∈ w.endings, e.Judged s.submitted

namespace Judged

open Sys

variable {p : Params} {s t : Sys} {w : Watch}

theorem init : Judged init ⟨none, []⟩ where
  released _ _ h := by cases h
  compared _ _ h := by cases h
  endings _ h := by cases h

theorem same (hi : Judged s w) (hf : t.frame = s.frame) (hs : t.submitted = s.submitted)
    (hc : t.complete.running = s.complete.running) : Judged t w where
  released := by rw [hc, hf, hs]; exact hi.released
  compared := by rw [hc, hf, hs]; exact hi.compared
  endings := by rw [hs]; exact hi.endings

/-- Outside the two points where something is held. -/
theorem of_endings (h : ∀ e ∈ w.endings, e.Judged s.submitted)
    (h1 : ∀ err len, s.complete.running ≠ some (.released err len))
    (h2 : ∀ mode ret, s.complete.running ≠ some (.compared mode ret)) : Judged s w where
  released err len hr := absurd hr (h1 err len)
  compared mode ret hr := absurd hr (h2 mode ret)
  endings := h

/-- While `upload_work` holds the lock, `dma_complete_work` holds no verdict. -/
theorem uploadMove (ho : Owned s) (hi : Judged s w) (h : UploadMove p s t) : Judged t w := by
  have hout : s.completeHoldsDmaLock = false → ∀ pc, s.complete.running = some pc →
      pc.holdsDmaLock = false := by
    intro hl pc hr
    rwa [completeHolds_eq hr] at hl
  cases h with
  | inflight l mode hr =>
    have hnot := hout (ho.upload_excludes hr rfl)
    exact of_endings hi.endings (fun err len h => by cases hnot _ h) fun m r h => by
      cases hnot _ h
  | accept l mode hr hcb =>
    have hnot := hout (ho.upload_excludes hr rfl)
    exact of_endings (fun e he => (hi.endings e he).append _) (fun err len h => by cases hnot _ h)
      fun m r h => by cases hnot _ h
  | _ => exact hi.same rfl rfl rfl

/-- The request the completion finds is the one of the frame in flight. -/
theorem release_of (ho : Owned s) (hz : Sized s) {err : Int} {n : Nat}
    (hr : s.complete.running = some (.cancelled err)) (hf : s.frameReq = some n) :
    (⟨err, s.heldRequest, (s.releaseRequest n).2⟩ : Told).Of s.frame s.submitted := by
  obtain ⟨hfly, -⟩ : s.dma.Flying ∧ s.dma.pending = true := ho.complete _ hr rfl
  obtain ⟨r, hreqs, hframe⟩ := hfly.reqs
  have hreqs : s.reqs = [r] := hreqs
  have hframe : r.frame = s.frame := hframe
  have hn : n = s.frame := Option.some.inj (hf.symm.trans hfly.req)
  obtain ⟨f, hsub, hsize⟩ := hz.reqs r (by simp [hreqs])
  rw [hframe] at hsub
  refine ⟨r, f, ?_, hframe, ?_, hsub, hsize⟩
  · simp [heldRequest, hf, hreqs, hn, hframe]
  · simp [releaseRequest, hreqs, hn, hframe]

/-- The verdict on the frame in flight is what the released request told. -/
theorem release {err : Int} {n : Nat} (ho : Owned s) (hz : Sized s) (hi : Judged s w)
    (hr : s.complete.running = some (.cancelled err)) (hf : s.frameReq = some n) :
    Judged { (s.releaseRequest n).1 with
      frameReq := none
      complete := s.complete.goto (.released err (s.releaseRequest n).2) }
      (note .complete s w) := by
  have hnote : note .complete s w =
      { w with told := some ⟨err, s.heldRequest, (s.releaseRequest n).2⟩ } := by
    simp [note, hr, hf]
  rw [hnote]
  refine ⟨fun err' len' h => ?_, fun m r h => ?_, hi.endings⟩
  · have h : (s.complete.goto (.released err (s.releaseRequest n).2)).running =
        some (.released err' len') := h
    rw [WorkItem.goto_running_of_some hr] at h
    cases h
    exact ⟨_, rfl, release_of ho hz hr hf, rfl, rfl⟩
  · have h : (s.complete.goto (.released err (s.releaseRequest n).2)).running =
        some (.compared m r) := h
    rw [WorkItem.goto_running_of_some hr] at h
    cases h

theorem compare {err ret : Int} {len : Nat} (hz : Sized s) (hi : Judged s w)
    (hr : s.complete.running = some (.released err len))
    (hret : ret = if err = 0 ∧ len ≠ s.activeMode.frameBytes then - EIO else err) :
    Judged { s with complete := s.complete.goto (.compared s.activeMode ret) }
      (note .complete s w) := by
  rw [show note .complete s w = w by simp [note, hr]]
  obtain ⟨t, ht, hof, herr, hlen⟩ := hi.released err len hr
  refine ⟨fun err' len' h => ?_, fun m r h => ?_, hi.endings⟩
  · have h : (s.complete.goto (.compared s.activeMode ret)).running = some (.released err' len') := h
    rw [WorkItem.goto_running_of_some hr] at h
    cases h
  · have h : (s.complete.goto (.compared s.activeMode ret)).running = some (.compared m r) := h
    rw [WorkItem.goto_running_of_some hr] at h
    cases h
    refine ⟨t, ht, hof, frameBytes_pos hz.active, ?_⟩
    rw [hret, Told.ret, herr, hlen]

theorem completeMove (ho : Owned s) (hz : Sized s) (hi : Judged s w) (h : CompleteMove s t) :
    Judged t (note .complete s w) := by
  have hgo : ∀ {pc : CompletePc}, s.complete.running = some pc → ∀ pc' : CompletePc,
      (∀ err len, pc' ≠ .released err len) → (∀ mode ret, pc' ≠ .compared mode ret) →
      (∀ err len, (s.complete.goto pc').running ≠ some (.released err len)) ∧
        ∀ mode ret, (s.complete.goto pc').running ≠ some (.compared mode ret) := by
    intro pc hr pc' h1 h2
    rw [WorkItem.goto_running_of_some hr]
    exact ⟨fun err len h => h1 err len (Option.some.inj h), fun m r h => h2 m r (Option.some.inj h)⟩
  cases h with
  | start hr hq =>
    rw [show note .complete s w = w by simp [note, hr]]
    exact of_endings hi.endings (by simp) (by simp)
  | lock hr hl =>
    rw [show note .complete s w = w by simp [note, hr]]
    obtain ⟨h1, h2⟩ := hgo hr .locked (by simp) (by simp)
    exact of_endings hi.endings h1 h2
  | nothing hr hp =>
    rw [show note .complete s w = w by simp [note, hr]]
    exact of_endings hi.endings (by simp) (by simp)
  | found hr hp =>
    rw [show note .complete s w = w by simp [note, hr]]
    obtain ⟨h1, h2⟩ := hgo hr (.pending s.dmaCompletionErr) (by simp) (by simp)
    exact of_endings hi.endings h1 h2
  | cancel err hr =>
    rw [show note .complete s w = w by simp [note, hr]]
    obtain ⟨h1, h2⟩ := hgo hr (.cancelled err) (by simp) (by simp)
    exact of_endings hi.endings h1 h2
  | noRequest err hr hf =>
    obtain ⟨hfly, -⟩ : s.dma.Flying ∧ s.dma.pending = true := ho.complete _ hr rfl
    have := hf.symm.trans hfly.req
    cases this
  | release err n hr hf => exact hi.release ho hz hr hf
  | compare err len ret hr hret => exact hi.compare hz hr hret
  | finish mode ret hr =>
    have hnote : note .complete s w =
        { w with endings := w.endings ++ [⟨s.frame, w.told, mode, ret⟩] } := by simp [note, hr]
    rw [hnote]
    obtain ⟨h1, h2⟩ := hgo hr (.finished ret s.uploadPending) (by simp) (by simp)
    refine of_endings (fun e he => ?_) h1 h2
    rcases List.mem_append.1 he with he | he
    · exact hi.endings e he
    · rw [List.mem_singleton.1 he]
      exact hi.compared mode ret hr
  | count ret up hr =>
    rw [show note .complete s w = w by simp [note, hr]]
    exact of_endings hi.endings (by simp [countFinish]) (by simp [countFinish])

theorem signalMove (hi : Judged s w) (h : SignalMove s t) : Judged t w := by
  cases h with
  | callbackSchedule n hcb => exact hi.same rfl rfl (WorkItem.schedule_running _)
  | timeoutSchedule n hr => exact hi.same rfl rfl (WorkItem.schedule_running _)
  | _ => exact hi.same rfl rfl rfl

theorem commitMove (hi : Judged s w) (h : CommitMove p s t) : Judged t w := by
  cases h with
  | stop caller pc hc ht =>
    cases ht with
    | schedule => exact hi.same rfl rfl (WorkItem.schedule_running _)
    | _ => exact hi.same rfl rfl rfl
  | _ => exact hi.same rfl rfl rfl

end Judged

/-! ## Top theorem -/

/-- The invariant of the watched path. -/
structure Watched (p : Params) (s : Sys) (w : Watch) : Prop where
  owned : Owned s
  mode : ModeOk p s
  sized : Sized s
  accounted : Accounted s w
  judged : Judged s w

namespace Watched

open Sys

variable {p : Params} {s t : Sys} {w w' : Watch}

theorem init : Watched p init ⟨none, []⟩ := ⟨.init, .init, .init, .init, .init⟩

theorem step {a : Act} (hi : Watched p s w) (h : watched p a (s, w) = some (t, w')) :
    Watched p t w' := by
  obtain ⟨ht, rfl⟩ := recorded_eq_some.1 h
  have hm := step_move ht
  have hsame : Watched p t (note a s w) ↔ Accounted t (note a s w) ∧ Judged t (note a s w) :=
    ⟨fun h => ⟨h.accounted, h.judged⟩, fun h =>
      ⟨hi.owned.move hm, hi.mode.move hm, hi.sized.move hi.owned hi.mode hm, h.1, h.2⟩⟩
  have hsignal (h : SignalMove s t) : Accounted t w ∧ Judged t w :=
    ⟨hi.accounted.signalMove h, hi.judged.signalMove h⟩
  have hcommit (h : CommitMove p s t) : Accounted t w ∧ Judged t w :=
    ⟨hi.accounted.commitMove h, hi.judged.commitMove h⟩
  rw [hsame]
  cases a with
  | upload ret =>
    have hu := uploadStep_move ht
    exact ⟨hi.accounted.uploadMove hi.owned hu, hi.judged.uploadMove hi.owned hu⟩
  | complete =>
    have hc := completeStep_move ht
    exact ⟨hi.accounted.completeMove hi.owned hc, hi.judged.completeMove hi.owned hi.sized hc⟩
  | begin c => exact hcommit (beginCommit_move ht)
  | remove => exact hcommit (beginRemove_move ht)
  | commit r => exact hcommit (commitStep_move ht)
  | service ok => exact hsignal (serviceStep_move ht)
  | callback => exact hsignal (callbackStep_move ht)
  | timeoutBegin => exact hsignal (timeoutBegin_move ht)
  | timeout => exact hsignal (timeoutStep_move ht)

end Watched

/-- **Every accepted frame is finished once, and counted as uploaded only when its whole
transfer completed.** -/
theorem every_frame_finished_once {p : Params} {as : List Act} {s : Sys}
    (h : run (step p) as init = some s) :
    ∃ w, run (Sys.watched p) as (init, ⟨none, []⟩) = some (s, w) ∧
      s.finishes = w.endings.map Ending.finish ∧
      s.submitted.length = w.endings.length + (if s.unfinished then 1 else 0) ∧
      (∀ i e, w.endings[i]? = some e → e.frame = i + 1) ∧
      s.framesUploaded = (w.counted s).countP (·.ret = 0) ∧
      s.uploadFailures = s.failed.length + (w.counted s).countP (·.ret ≠ 0) ∧
      ∀ e ∈ w.endings, ∃ t, e.told = some t ∧
        (e.ret = 0 → t.err = 0 ∧ ∃ r f, t.req = some r ∧ r.frame = e.frame ∧
          r.state = .completed ∧ s.submitted[e.frame - 1]? = some f ∧
          t.len = f.mode.frameBytes) := by
  obtain ⟨w, hrun⟩ := run_recorded_exists Sys.note ⟨none, []⟩ h
  have hw : Watched p s w := by
    refine run_invariant (I := fun w => Watched p w.1 w.2) (fun a s t hi ht => ?_) .init hrun
    exact hi.step ht
  have ha := hw.accounted
  refine ⟨w, hrun, ha.finishes, ha.ended, ha.order, ha.uploaded, ha.failures, fun e he => ?_⟩
  obtain ⟨t, htold, hof, hpos, hret⟩ := hw.judged.endings e he
  exact ⟨t, htold, fun h0 => hof.completed hpos (hret.symm.trans h0)⟩

/-- Two frames, the second of which the engine gives up; its callback reports 0 all the
same. -/
def failedSecond : List Act :=
  firstFlip ++ uploadSteps 8 ++ [.service true, .callback, .callback] ++ completeSteps 8 ++
    .begin (vgaFrame false) :: commitSteps 3 ++ uploadSteps 8 ++
    [.service false, .callback, .callback] ++ completeSteps 8

theorem every_frame_finished_once_second :
    ∃ s, run (step allOn) failedSecond init = some s ∧
      (s.framesUploaded = 1 ∧ s.uploadFailures = 1 ∧
        s.finishes.map (fun f => (f.frame, f.ret)) = [(1, 0), (2, - EIO)]) ∧
      ∃ w : Watch, s.finishes = w.endings.map Ending.finish ∧
        s.submitted.length = w.endings.length + (if s.unfinished then 1 else 0) := by
  have hrun : (run (step allOn) failedSecond init).any (fun s =>
      decide (s.framesUploaded = 1 ∧ s.uploadFailures = 1 ∧
        s.finishes.map (fun f => (f.frame, f.ret)) = [(1, 0), (2, - EIO)])) = true := by
    decide
  obtain ⟨s, hs, htest⟩ := run_any hrun
  obtain ⟨w, -, hfin, hsub, -⟩ := every_frame_finished_once hs
  exact ⟨s, hs, of_decide_eq_true htest, w, hfin, hsub⟩

end FpgaDrm
