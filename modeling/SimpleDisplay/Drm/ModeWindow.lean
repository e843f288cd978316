import SimpleDisplay.Drm.StopUploads

/-!
# Mode changes

No request is outstanding and none is submitted from the end of `fpga_drm_stop_uploads` in
a CRTC disable to the next enable, and each frame is submitted, shown and finished under
one mode, while no callback outruns the last flush (`no_traffic_across_mode_change`).  One
that does leaves its frame in flight (`callback_outruns_stop`).
-/

namespace FpgaDrm

open Work StateMachine

/-! ## The mode a frame is finished for -/

/-- The mode `fpga_drm_dma_finish` compares with is the mode the frame was submitted
for. -/
structure FinishOk (s : Sys) : Prop where
  flight : s.dmaInflight = true → s.frame = s.submitted.length →
    ∃ f, s.submitted[s.frame - 1]? = some f ∧ f.mode = s.activeMode
  compared : ∀ mode ret, s.complete.running = some (.compared mode ret) → mode = s.activeMode
  finishes : ∀ fin ∈ s.finishes, ∃ f, s.submitted[fin.frame - 1]? = some f ∧ fin.mode = f.mode

namespace FinishOk

open Sys

variable {p : Params} {s t : Sys}

theorem init : FinishOk init where
  flight h := by cases h
  compared _ _ h := by cases h
  finishes _ h := by cases h

theorem same (hi : FinishOk s) (hin : t.dmaInflight = true → s.dmaInflight = true)
    (hf : t.frame = s.frame) (hs : t.submitted = s.submitted) (hm : t.activeMode = s.activeMode)
    (hc : ∀ mode ret, t.complete.running = some (.compared mode ret) →
      s.complete.running = some (.compared mode ret))
    (hfin : t.finishes = s.finishes) : FinishOk t where
  flight h1 h2 := by rw [hs, hf, hm]; exact hi.flight (hin h1) (hs ▸ hf ▸ h2)
  compared mode ret h := by rw [hm]; exact hi.compared mode ret (hc mode ret h)
  finishes := by rw [hfin, hs]; exact hi.finishes

theorem uploadMove (ho : Owned s) (hm : ModeOk p s) (hi : FinishOk s) (h : UploadMove p s t) :
    FinishOk t := by
  cases h with
  | inflight l mode hr =>
    refine ⟨fun _ h => ?_, hi.compared, hi.finishes⟩
    have h : s.submitted.length + 1 = s.submitted.length := h
    omega
  | accept l mode hr hcb =>
    have hoff : s.dma.Offered := ho.upload _ hr rfl
    have hframe : s.frame = s.submitted.length + 1 := hoff.frame
    refine ⟨fun _ _ => ?_, hi.compared, fun fin hfin => ?_⟩
    · refine ⟨⟨s.lineBufs, mode, mode.lineBytes, mode.drm.vdisplay, s.hw⟩, ?_, hm.mode _ mode hr rfl⟩
      show (s.submitted ++ [_])[s.frame - 1]? = some _
      rw [hframe, Nat.add_sub_cancel, List.getElem?_concat_length]
    · obtain ⟨f, hf, hmode⟩ := hi.finishes fin hfin
      have hlt := (List.getElem?_eq_some_iff.1 hf).1
      refine ⟨f, ?_, hmode⟩
      show (s.submitted ++ [_])[fin.frame - 1]? = some f
      rw [List.getElem?_append_left hlt, hf]
  | rollBack l hr => exact ⟨nofun, hi.compared, hi.finishes⟩
  | _ => exact hi.same id rfl rfl rfl (fun _ _ => id) rfl

theorem completeMove (ho : Owned s) (hi : FinishOk s) (h : CompleteMove s t) : FinishOk t := by
  have hgo : ∀ {pc pc' : CompletePc}, s.complete.running = some pc →
      (∀ mode ret, pc' ≠ .compared mode ret) → ∀ mode ret,
      (s.complete.goto pc').running = some (.compared mode ret) →
        s.complete.running = some (.compared mode ret) := by
    intro pc pc' hr hne mode ret h
    rw [WorkItem.goto_running_of_some hr] at h
    exact absurd (Option.some.inj h) (hne mode ret)
  cases h with
  | start hr hq => exact hi.same id rfl rfl rfl (fun _ _ h => by cases h) rfl
  | nothing hr hp => exact hi.same id rfl rfl rfl (fun _ _ h => by cases h) rfl
  | count ret up hr => exact hi.same id rfl rfl rfl (fun _ _ h => by cases h) rfl
  | compare err len ret hr hret =>
    refine ⟨hi.flight, fun mode ret h => ?_, hi.finishes⟩
    have h : (s.complete.goto (.compared s.activeMode _)).running = some (.compared mode ret) := h
    rw [WorkItem.goto_running_of_some hr] at h
    cases h
    rfl
  | finish mode ret hr =>
    have hrel : s.dma.Released := ho.complete _ hr rfl
    refine ⟨nofun, fun m r h => ?_, fun fin hfin => ?_⟩
    · have h : (s.complete.goto (.finished ret s.uploadPending)).running = some (.compared m r) := h
      rw [WorkItem.goto_running_of_some hr] at h
      cases h
    · obtain hfin | hfin := List.mem_append.1 hfin
      · exact hi.finishes fin hfin
      · obtain ⟨f, hf, hmode⟩ := hi.flight hrel.inflight hrel.frame
        rw [List.mem_singleton.1 hfin]
        exact ⟨f, hf, (hi.compared mode ret hr).trans hmode.symm⟩
  | _ => exact hi.same id rfl rfl rfl (hgo ‹_› (by simp)) rfl

theorem signalMove (hi : FinishOk s) (h : SignalMove s t) : FinishOk t := by
  have hsched : ∀ mode ret, s.complete.schedule.running = some (.compared mode ret) →
      s.complete.running = some (.compared mode ret) := by
    intro mode ret h
    rwa [WorkItem.schedule_running] at h
  cases h with
  | callbackSchedule n hcb => exact hi.same id rfl rfl rfl hsched rfl
  | timeoutSchedule n hr => exact hi.same id rfl rfl rfl hsched rfl
  | _ => exact hi.same id rfl rfl rfl (fun _ _ => id) rfl

/-- A run of `dma_complete_work` that compares has a frame in flight. -/
theorem not_compared_of_idle (ho : Owned s) (hd : s.dma.Idle) (mode : VideoMode) (ret : Int) :
    s.complete.running ≠ some (.compared mode ret) := by
  intro hr
  have hrel : s.dma.Released := ho.complete _ hr rfl
  have hin := hrel.inflight
  rw [hd.inflight] at hin
  cases hin

/-- The active mode changes while nothing is in flight. -/
theorem commitMove (ho : Owned s) (hm : ModeOk p s) (hd : Drained s) (hi : FinishOk s)
    (h : CommitMove p s t) : FinishOk t := by
  cases h with
  | enabled c mode hc =>
    have htail := hm.tail
    rw [hc] at htail
    have hidle : s.dma.Idle := hd.window ⟨htail.1, by rw [hc]; rfl⟩
    refine ⟨fun hin => ?_, fun mode ret hr => ?_, hi.finishes⟩
    · have hin : s.dma.inflight = true := hin
      rw [hidle.inflight] at hin
      cases hin
    · exact absurd hr (not_compared_of_idle ho hidle mode ret)
  | stop caller pc hc ht =>
    cases ht with
    | schedule =>
      refine hi.same id rfl rfl rfl (fun mode ret h => ?_) rfl
      rwa [WorkItem.schedule_running] at h
    | _ => exact hi.same id rfl rfl rfl (fun _ _ => id) rfl
  | _ => exact hi.same id rfl rfl rfl (fun _ _ => id) rfl

theorem move (ho : Owned s) (hm : ModeOk p s) (hd : Drained s) (hi : FinishOk s)
    (h : Move p s t) : FinishOk t := by
  cases h with
  | upload h => exact hi.uploadMove ho hm h
  | complete h => exact hi.completeMove ho h
  | signal h => exact hi.signalMove h
  | commit h => exact hi.commitMove ho hm hd h

end FinishOk

/-! ## Top theorem -/

/-- Nothing is submitted while the pipe is halted. -/
theorem ModeOk.submitted_unchanged {p : Params} {s t : Sys} (hi : ModeOk p s) (hh : s.Halted)
    (h : Sys.Move p s t) : t.submitted = s.submitted := by
  cases h with
  | upload h =>
    cases h with
    | accept l mode hr hcb => exact absurd hh (hi.not_halted hr (by simp))
    | _ => rfl
  | complete h => cases h <;> rfl
  | signal h => cases h <;> rfl
  | commit h =>
    cases h with
    | stop caller pc hc ht => cases ht <;> rfl
    | _ => rfl

/-- **While every callback has called `schedule_work` when a CRTC disable begins its last
flush, the window from a disable to the next enable is empty**, and each frame is
submitted and finished under one mode, with which the blocks are programmed when
`configure_pipeline` is set. -/
theorem no_traffic_across_mode_change {p : Params} {as : List Act} {s : Sys}
    (hq : Meets (step p) CallbackScheduled as init) (h : run (step p) as init = some s) :
    (s.InWindow → s.reqs = [] ∧ s.dmaInflight = false ∧
      ∀ a t, step p a s = some t → t.submitted = s.submitted) ∧
    (∀ c mode, s.commit = .program c mode → s.InWindow) ∧
    (∀ f ∈ s.submitted, f.lineSize = f.mode.lineBytes ∧ f.lineCount = f.mode.drm.vdisplay ∧
      (p.configurePipeline = true → f.hw = .all f.mode)) ∧
    (∀ fin ∈ s.finishes, ∃ f, s.submitted[fin.frame - 1]? = some f ∧ fin.mode = f.mode) := by
  have hall : Owned s ∧ ModeOk p s ∧ Signalled s ∧ Drained s ∧ FinishOk s := by
    refine run_invariant_of_meets
      (I := fun s => Owned s ∧ ModeOk p s ∧ Signalled s ∧ Drained s ∧ FinishOk s)
      (fun a s t hi hok ht => ?_) ⟨.init, .init, .init, .init, .init⟩ hq h
    obtain ⟨ho, hm, hs, hd, hf⟩ := hi
    have hmove := Sys.step_move ht
    exact ⟨ho.move hmove, hm.move hmove, hs.move ho hm hmove, hd.step ho hm hs hok ht,
      hf.move ho hm hd hmove⟩
  obtain ⟨ho, hm, hs, hd, hf⟩ := hall
  refine ⟨fun hw => ?_, fun c mode hc => ?_, hm.frames, hf.finishes⟩
  · have hidle := hd.window hw
    exact ⟨hidle.reqs, hidle.inflight, fun a t ht =>
      hm.submitted_unchanged hw.halted (Sys.step_move ht)⟩
  · have htail := hm.tail
    rw [hc] at htail
    exact ⟨htail.1, by rw [hc]; rfl⟩

/-! ## A callback that outruns the stop -/

/-- The first frame is in flight when a second modeset begins; the wait for idle runs
out, and the callback sets `dma_completion_pending` before the stop goes on. -/
def callbackInStop : List Act :=
  firstFlip ++ uploadSteps 8 ++ .begin (vgaFrame true) :: commitSteps 3 ++
    [.service true, .callback] ++ commitSteps 7

/-- `fpga_drm_stop_uploads` returns to the disable with the request not released. -/
theorem callback_outruns_stop :
    ∃ s, run (step allOn) callbackInStop init = some s ∧ s.InWindow ∧ s.reqs.length = 1 ∧
      s.dmaInflight = true := by
  have hrun : (run (step allOn) callbackInStop init).any (fun s =>
      decide (s.pipeEnabled = false ∧ s.commit.inDisable = false ∧ s.reqs.length = 1 ∧
        s.dmaInflight = true)) = true := by decide
  obtain ⟨s, hs, htest⟩ := run_any hrun
  obtain ⟨h1, h2, h3, h4⟩ := of_decide_eq_true htest
  exact ⟨s, hs, ⟨h1, h2⟩, h3, h4⟩

/-- With the callback's `schedule_work` before the last flush the window is empty. -/
theorem no_traffic_across_mode_change_second :
    ∃ s, run (step allOn) (firstFlip ++ uploadSteps 8 ++ [.service true, .callback, .callback] ++
        .begin (vgaFrame true) :: commitSteps 2 ++ completeSteps 8 ++ commitSteps 5) init = some s ∧
      s.InWindow ∧ s.submitted.length = 1 ∧ s.reqs = [] := by
  have hrun : (run (step allOn) (firstFlip ++ uploadSteps 8 ++
      [.service true, .callback, .callback] ++ .begin (vgaFrame true) :: commitSteps 2 ++
        completeSteps 8 ++ commitSteps 5) init).any (fun s =>
      decide (s.pipeEnabled = false ∧ s.commit.inDisable = false ∧ s.submitted.length = 1)) = true := by
    decide
  obtain ⟨s, hs, htest⟩ := run_any hrun
  obtain ⟨h1, h2, h3⟩ := of_decide_eq_true htest
  exact ⟨s, hs, ⟨h1, h2⟩, h3, ((no_traffic_across_mode_change (by decide) hs).1 ⟨h1, h2⟩).1⟩

end FpgaDrm
