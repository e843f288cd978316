import SimpleDisplay.Drm.Moves

/-!
# Who owns the staging buffers

`line_bufs`, `frame_sgt` and `frame_cb` belong to the engine from the acceptance of a
request until `xdma_xfer_completion` releases it.  The driver keeps no other account
of it than `dma_inflight`, written in three functions and read under another lock than
the one the copy holds.  The invariant `Owned` says what the flags and the engine's
queue are for each holder of `dma_lock`:

    nobody                      idle, or flying (one accepted request, `dma_inflight`)
    upload_work                 idle until the flags are set, then offered, then flying
    dma_complete_work           free, flying and pending, released, idle again

and the top theorems read off it that at most one request is outstanding, that nothing
is outstanding while the buffers are rewritten, and that an outstanding request is
always flagged (`single_frame_in_flight`).
-/

namespace FpgaDrm

open Work StateMachine

/-! ## Phases -/

/-- The DMA state as the flags, the engine's queue and `frame_cb.req` give it, with the
number of the frame in flight and of the frames accepted. -/
structure Dma where
  inflight : Bool
  pending : Bool
  reqs : List Request
  req : Option Nat
  frame : Nat
  accepted : Nat

def Sys.dma (s : Sys) : Dma :=
  ⟨s.dmaInflight, s.dmaCompletionPending, s.reqs, s.frameReq, s.frame, s.submitted.length⟩

namespace Dma

structure Idle (d : Dma) : Prop where
  inflight : d.inflight = false
  pending : d.pending = false
  reqs : d.reqs = []

/-- Flagged, but not accepted. -/
structure Offered (d : Dma) : Prop where
  inflight : d.inflight = true
  reqs : d.reqs = []
  frame : d.frame = d.accepted + 1

structure Flying (d : Dma) : Prop where
  inflight : d.inflight = true
  reqs : ∃ r, d.reqs = [r] ∧ r.frame = d.frame
  req : d.req = some d.frame
  frame : d.frame = d.accepted

/-- Released by the engine, and still flagged. -/
structure Released (d : Dma) : Prop where
  inflight : d.inflight = true
  pending : d.pending = true
  reqs : d.reqs = []
  frame : d.frame = d.accepted

def Free (d : Dma) : Prop := d.Idle ∨ d.Flying

theorem Free.idle_of_not_inflight {d : Dma} (h : d.Free) (hi : d.inflight = false) : d.Idle := by
  obtain h | h := h
  · exact h
  · have := h.inflight
    rw [hi] at this
    cases this

theorem Free.flying_of_pending {d : Dma} (h : d.Free) (hp : d.pending = true) : d.Flying := by
  obtain h | h := h
  · have := h.pending
    rw [hp] at this
    cases this
  · exact h

end Dma

/-- The phase a run of `upload_work` keeps DMA in while it holds `dma_lock`. -/
def UploadPc.Owns (d : Dma) : UploadPc → Prop
  | .entry | .captured _ => d.Free
  | .locked _ | .composed _ | .prepared _ _ => d.Idle
  | .marked _ _ | .refused _ => d.Offered
  | .accepted _ => d.Flying

def CompletePc.Owns (d : Dma) : CompletePc → Prop
  | .entry | .locked => d.Free
  | .pending _ | .cancelled _ => d.Flying ∧ d.pending = true
  | .released _ _ | .compared _ _ => d.Released
  | .finished _ _ => d.Idle

theorem UploadPc.Owns.imp {d d' : Dma} {pc : UploadPc} (hidle : d.Idle → d'.Idle)
    (hoff : d.Offered → d'.Offered) (hfly : d.Flying → d'.Flying) (h : pc.Owns d) : pc.Owns d' := by
  cases pc with
  | entry | captured => exact Or.imp hidle hfly h
  | locked | composed | prepared => exact hidle h
  | marked | refused => exact hoff h
  | accepted => exact hfly h

theorem CompletePc.Owns.imp {d d' : Dma} {pc : CompletePc} (hidle : d.Idle → d'.Idle)
    (hfly : d.Flying → d'.Flying) (hrel : d.Released → d'.Released)
    (hp : d.pending = true → d'.pending = true) (h : pc.Owns d) : pc.Owns d' := by
  cases pc with
  | entry | locked => exact Or.imp hidle hfly h
  | pending | cancelled => exact ⟨hfly h.1, hp h.2⟩
  | released | compared => exact hrel h
  | finished => exact hidle h

/-- The ownership invariant. -/
structure Owned (s : Sys) : Prop where
  lock : s.uploadHoldsDmaLock = true → s.completeHoldsDmaLock = false
  upload : ∀ pc, s.upload.running = some pc → pc.holdsDmaLock = true → pc.Owns s.dma
  complete : ∀ pc, s.complete.running = some pc → pc.holdsDmaLock = true → pc.Owns s.dma
  free : s.uploadHoldsDmaLock = false → s.completeHoldsDmaLock = false → s.dma.Free
  ledger : s.submitted.length = s.released + s.reqs.length

namespace Sys

variable {p : Params} {s t : Sys}

theorem uploadHolds_eq {pc : UploadPc} (h : s.upload.running = some pc) :
    s.uploadHoldsDmaLock = pc.holdsDmaLock := by
  simp [uploadHoldsDmaLock, h]

theorem uploadHolds_out {pc : UploadPc} (h : s.upload.running = some pc)
    (hh : pc.holdsDmaLock = false) : s.uploadHoldsDmaLock = false := by
  rw [uploadHolds_eq h, hh]

theorem uploadHolds_none (h : s.upload.running = none) : s.uploadHoldsDmaLock = false := by
  simp [uploadHoldsDmaLock, h]

theorem completeHolds_eq {pc : CompletePc} (h : s.complete.running = some pc) :
    s.completeHoldsDmaLock = pc.holdsDmaLock := by
  simp [completeHoldsDmaLock, h]

theorem completeHolds_none (h : s.complete.running = none) : s.completeHoldsDmaLock = false := by
  simp [completeHoldsDmaLock, h]

end Sys

/-! ## Lemmas -/

namespace Owned

open Sys

variable {p : Params} {s t : Sys}

/-- While `upload_work` holds the lock, its own clause is the whole invariant. -/
theorem of_upload {pc : UploadPc} (hr : s.upload.running = some pc) (hh : pc.holdsDmaLock = true)
    (hc : s.completeHoldsDmaLock = false) (hd : pc.Owns s.dma)
    (hl : s.submitted.length = s.released + s.reqs.length) : Owned s where
  lock _ := hc
  upload pc' hr' _ := by rw [hr] at hr'; cases hr'; exact hd
  complete pc' hr' hh' := by rw [completeHolds_eq hr', hh'] at hc; cases hc
  free hu _ := by rw [uploadHolds_eq hr, hh] at hu; cases hu
  ledger := hl

theorem of_complete {pc : CompletePc} (hr : s.complete.running = some pc)
    (hh : pc.holdsDmaLock = true) (hu : s.uploadHoldsDmaLock = false) (hd : pc.Owns s.dma)
    (hl : s.submitted.length = s.released + s.reqs.length) : Owned s where
  lock h := by rw [hu] at h; cases h
  upload pc' hr' hh' := by rw [uploadHolds_eq hr', hh'] at hu; cases hu
  complete pc' hr' _ := by rw [hr] at hr'; cases hr'; exact hd
  free _ hc := by rw [completeHolds_eq hr, hh] at hc; cases hc
  ledger := hl

theorem of_free (hu : s.uploadHoldsDmaLock = false) (hc : s.completeHoldsDmaLock = false)
    (hd : s.dma.Free) (hl : s.submitted.length = s.released + s.reqs.length) : Owned s where
  lock _ := hc
  upload pc' hr' hh' := by rw [uploadHolds_eq hr', hh'] at hu; cases hu
  complete pc' hr' hh' := by rw [completeHolds_eq hr', hh'] at hc; cases hc
  free _ _ := hd
  ledger := hl

/-- A holder of the lock in `upload_work` excludes one in `dma_complete_work`. -/
theorem upload_excludes (hi : Owned s) {pc : UploadPc} (hr : s.upload.running = some pc)
    (hh : pc.holdsDmaLock = true) : s.completeHoldsDmaLock = false :=
  hi.lock (by rw [uploadHolds_eq hr, hh])

theorem complete_excludes (hi : Owned s) {pc : CompletePc} (hr : s.complete.running = some pc)
    (hh : pc.holdsDmaLock = true) : s.uploadHoldsDmaLock = false := by
  cases hu : s.uploadHoldsDmaLock with
  | false => rfl
  | true =>
    have := hi.lock hu
    rw [completeHolds_eq hr, hh] at this
    cases this

/-- What moves no thread and keeps every phase keeps the invariant. -/
theorem of_phases (hi : Owned s) (hu : t.upload.running = s.upload.running)
    (hc : t.complete.running = s.complete.running)
    (hU : ∀ pc : UploadPc, pc.Owns s.dma → pc.Owns t.dma)
    (hC : ∀ pc : CompletePc, pc.Owns s.dma → pc.Owns t.dma)
    (hl : t.submitted.length = t.released + t.reqs.length) : Owned t where
  lock h := by
    unfold uploadHoldsDmaLock at h
    unfold completeHoldsDmaLock
    rw [hu] at h
    rw [hc]
    exact hi.lock h
  upload pc hr hh := hU pc (hi.upload pc (hu ▸ hr) hh)
  complete pc hr hh := hC pc (hi.complete pc (hc ▸ hr) hh)
  free h h' := by
    unfold uploadHoldsDmaLock at h
    unfold completeHoldsDmaLock at h'
    rw [hu] at h
    rw [hc] at h'
    exact hU .entry (hi.free h h')
  ledger := hl

/-- In particular what does not touch the DMA state. -/
theorem same (hi : Owned s) (hu : t.upload.running = s.upload.running)
    (hc : t.complete.running = s.complete.running) (hd : t.dma = s.dma)
    (hl : t.submitted.length = t.released + t.reqs.length) : Owned t :=
  hi.of_phases hu hc (fun _ h => hd ▸ h) (fun _ h => hd ▸ h) hl

/-- A move of `upload_work` outside the lock. -/
theorem outside_upload (hi : Owned s) (hu : s.uploadHoldsDmaLock = false)
    (hu' : t.uploadHoldsDmaLock = false) (hc : t.complete.running = s.complete.running)
    (hd : t.dma = s.dma) (hl : t.submitted.length = t.released + t.reqs.length) : Owned t where
  lock h := by rw [hu'] at h; cases h
  upload pc hr hh := by rw [uploadHolds_eq hr, hh] at hu'; cases hu'
  complete pc hr hh := by rw [hd]; exact hi.complete pc (hc ▸ hr) hh
  free _ h' := by
    unfold completeHoldsDmaLock at h'
    rw [hc] at h'
    rw [hd]
    exact hi.free hu h'
  ledger := hl

theorem outside_complete (hi : Owned s) (hc : s.completeHoldsDmaLock = false)
    (hc' : t.completeHoldsDmaLock = false) (hu : t.upload.running = s.upload.running)
    (hd : t.dma = s.dma) (hl : t.submitted.length = t.released + t.reqs.length) : Owned t where
  lock _ := hc'
  upload pc hr hh := by rw [hd]; exact hi.upload pc (hu ▸ hr) hh
  complete pc hr hh := by rw [completeHolds_eq hr, hh] at hc'; cases hc'
  free h _ := by
    unfold uploadHoldsDmaLock at h
    rw [hu] at h
    rw [hd]
    exact hi.free h hc
  ledger := hl

theorem init : Owned init :=
  .of_free rfl rfl (.inl ⟨rfl, rfl, rfl⟩) rfl

theorem uploadMove (hi : Owned s) (h : UploadMove p s t) : Owned t := by
  have hl := hi.ledger
  cases h with
  | start hr hq => exact hi.outside_upload (uploadHolds_none hr) rfl rfl rfl hl
  | captureNone hr hc => exact hi.outside_upload (uploadHolds_eq hr) rfl rfl rfl hl
  | capture hr hp he =>
    exact hi.outside_upload (uploadHolds_eq hr)
      (uploadHolds_out (WorkItem.goto_running_of_some hr) rfl) rfl rfl hl
  | skip l hr he => exact hi.outside_upload (uploadHolds_eq hr) rfl rfl rfl hl
  | busy l hr he hcl hb => exact hi.outside_upload (uploadHolds_eq hr) rfl rfl rfl hl
  | lock l hr he hcl hb =>
    have hfree := hi.free (uploadHolds_eq hr) hcl
    have hidle : s.dma.Idle := hfree.idle_of_not_inflight (Bool.or_eq_false_iff.1 hb).1
    exact .of_upload (WorkItem.goto_running_of_some hr) rfl hcl hidle hl
  | composeFailed l hr =>
    have hidle : s.dma.Idle := hi.upload _ hr rfl
    exact .of_free rfl (hi.upload_excludes hr rfl) (.inl hidle) hl
  | composed l hr n =>
    have hidle : s.dma.Idle := hi.upload _ hr rfl
    exact .of_upload (WorkItem.goto_running_of_some hr) rfl (hi.upload_excludes hr rfl) hidle hl
  | prepare l hr =>
    obtain ⟨h1, h2, h3⟩ : s.dma.Idle := hi.upload _ hr rfl
    exact .of_upload (WorkItem.goto_running_of_some hr) rfl (hi.upload_excludes hr rfl)
      ⟨h1, h2, h3⟩ hl
  | inflight l mode hr =>
    obtain ⟨-, -, h3⟩ : s.dma.Idle := hi.upload _ hr rfl
    exact .of_upload (WorkItem.goto_running_of_some hr) rfl (hi.upload_excludes hr rfl)
      ⟨rfl, h3, rfl⟩ hl
  | refuse l mode hr =>
    obtain ⟨h1, h2, h3⟩ : s.dma.Offered := hi.upload _ hr rfl
    exact .of_upload (WorkItem.goto_running_of_some hr) rfl (hi.upload_excludes hr rfl)
      ⟨h1, h2, h3⟩ hl
  | accept l mode hr hcb =>
    obtain ⟨h1, h2, h3⟩ : s.dma.Offered := hi.upload _ hr rfl
    change s.reqs = [] at h2
    change s.frame = s.submitted.length + 1 at h3
    refine .of_upload (WorkItem.goto_running_of_some hr) rfl (hi.upload_excludes hr rfl)
      ⟨h1, ⟨⟨s.frame, mode.lineBytes, mode.drm.vdisplay, .submitted⟩, ?_, rfl⟩, rfl, ?_⟩ ?_
    · show s.reqs ++ [_] = [_]
      rw [h2, List.nil_append]
    · simp [dma, acceptFrame, h3]
    · simp only [acceptFrame, List.length_append, List.length_singleton]
      omega
  | rollBack l hr =>
    obtain ⟨-, h2, -⟩ : s.dma.Offered := hi.upload _ hr rfl
    exact .of_free rfl (hi.upload_excludes hr rfl) (.inl ⟨rfl, rfl, h2⟩) hl
  | arm l hr =>
    have hfly : s.dma.Flying := hi.upload _ hr rfl
    exact .of_free rfl (hi.upload_excludes hr rfl) (.inr hfly) hl

/-- The request in flight is the one that is released. -/
theorem releaseRequest_reqs (hd : s.dma.Flying) {n : Nat} (hn : s.frameReq = some n) :
    (s.releaseRequest n).1.reqs = [] ∧ s.reqs.length = 1 := by
  obtain ⟨-, ⟨r, hr, hf⟩, hq, -⟩ := hd
  have hn' : n = s.frame := Option.some.inj (hn.symm.trans hq)
  have hrf : r.frame = s.frame := hf
  have hreqs : s.reqs = [r] := hr
  simp [releaseRequest, hreqs, hn', hrf]

theorem completeMove (hi : Owned s) (h : CompleteMove s t) : Owned t := by
  have hl := hi.ledger
  cases h with
  | start hr hq => exact hi.outside_complete (completeHolds_none hr) rfl rfl rfl hl
  | lock hr hu =>
    have hfree := hi.free hu (completeHolds_eq hr)
    exact .of_complete (WorkItem.goto_running_of_some hr) rfl hu hfree hl
  | nothing hr hp =>
    have hfree : s.dma.Free := hi.complete _ hr rfl
    exact .of_free (hi.complete_excludes hr rfl) rfl hfree hl
  | found hr hp =>
    have hfree : s.dma.Free := hi.complete _ hr rfl
    exact .of_complete (WorkItem.goto_running_of_some hr) rfl (hi.complete_excludes hr rfl)
      ⟨hfree.flying_of_pending hp, hp⟩ hl
  | cancel err hr =>
    have hfly : s.dma.Flying ∧ s.dma.pending = true := hi.complete _ hr rfl
    exact .of_complete (WorkItem.goto_running_of_some hr) rfl (hi.complete_excludes hr rfl) hfly hl
  | noRequest err hr hf =>
    obtain ⟨hfly, -⟩ : s.dma.Flying ∧ s.dma.pending = true := hi.complete _ hr rfl
    have := hf.symm.trans hfly.req
    cases this
  | release err n hr hf =>
    obtain ⟨hfly, hpend⟩ : s.dma.Flying ∧ s.dma.pending = true := hi.complete _ hr rfl
    obtain ⟨hreqs, hlen⟩ := releaseRequest_reqs hfly hf
    refine .of_complete (WorkItem.goto_running_of_some hr) rfl (hi.complete_excludes hr rfl)
      ⟨hfly.inflight, hpend, hreqs, hfly.frame⟩ ?_
    show s.submitted.length = (s.released + 1) + (s.releaseRequest n).1.reqs.length
    rw [hreqs, List.length_nil]
    omega
  | compare err len ret hr hret =>
    have hrel : s.dma.Released := hi.complete _ hr rfl
    exact .of_complete (WorkItem.goto_running_of_some hr) rfl (hi.complete_excludes hr rfl) hrel hl
  | finish mode ret hr =>
    have hrel : s.dma.Released := hi.complete _ hr rfl
    exact .of_complete (WorkItem.goto_running_of_some hr) rfl (hi.complete_excludes hr rfl)
      ⟨rfl, rfl, hrel.reqs⟩ hl
  | count ret up hr =>
    have hidle : s.dma.Idle := hi.complete _ hr rfl
    refine .of_free ?_ rfl (.inl hidle) hl
    rw [← hi.complete_excludes hr rfl]
    cases up <;> simp [countFinish, uploadHoldsDmaLock]

/-- A signal is taken only while a frame is flagged, so no phase is left. -/
theorem mark (hi : Owned s) (ht : s.takesCompletion = true)
    (hu : t.upload.running = s.upload.running) (hc : t.complete.running = s.complete.running)
    (hd : t.dma = { s.dma with pending := true })
    (hl : t.submitted.length = t.released + t.reqs.length) : Owned t := by
  have hin : s.dma.inflight = true := (Bool.and_eq_true_iff.1 ht).1
  have hidle : s.dma.Idle → t.dma.Idle := by
    intro h
    have := h.inflight
    rw [hin] at this
    cases this
  have hfly : s.dma.Flying → t.dma.Flying := by
    rintro ⟨h1, h2, h3, h4⟩
    rw [hd]
    exact ⟨h1, h2, h3, h4⟩
  have hoff : s.dma.Offered → t.dma.Offered := by
    rintro ⟨h1, h2, h3⟩
    rw [hd]
    exact ⟨h1, h2, h3⟩
  have hrel : s.dma.Released → t.dma.Released := by
    rintro ⟨h1, -, h3, h4⟩
    rw [hd]
    exact ⟨h1, rfl, h3, h4⟩
  exact hi.of_phases hu hc (fun _ h => h.imp hidle hoff hfly)
    (fun _ h => h.imp hidle hfly hrel fun _ => by rw [hd]) hl

/-- The engine settles a request: the queue keeps its length and its frame numbers. -/
theorem settle (hi : Owned s) (f : Request → Request) (hf : ∀ r, (f r).frame = r.frame)
    (hu : t.upload.running = s.upload.running) (hc : t.complete.running = s.complete.running)
    (hd : t.dma = { s.dma with reqs := s.reqs.map f })
    (hl : t.submitted.length = t.released + t.reqs.length) : Owned t := by
  have hnil : s.dma.reqs = [] → t.dma.reqs = [] := by
    intro h
    have h : s.reqs = [] := h
    simp [hd, h]
  have hidle : s.dma.Idle → t.dma.Idle := by
    intro h
    exact ⟨hd ▸ h.inflight, hd ▸ h.pending, hnil h.reqs⟩
  have hfly : s.dma.Flying → t.dma.Flying := by
    rintro ⟨h1, ⟨r, hr, hrf⟩, h3, h4⟩
    have hr : s.reqs = [r] := hr
    refine ⟨hd ▸ h1, ⟨f r, by simp [hd, hr], ?_⟩, hd ▸ h3, hd ▸ h4⟩
    rw [hf, hrf, hd]
  have hoff : s.dma.Offered → t.dma.Offered := by
    intro h
    exact ⟨hd ▸ h.inflight, hnil h.reqs, hd ▸ h.frame⟩
  have hrel : s.dma.Released → t.dma.Released := by
    intro h
    exact ⟨hd ▸ h.inflight, hd ▸ h.pending, hnil h.reqs, hd ▸ h.frame⟩
  exact hi.of_phases hu hc (fun _ h => h.imp hidle hoff hfly)
    (fun _ h => h.imp hidle hfly hrel fun hp => hd ▸ hp) hl

theorem signalMove (hi : Owned s) (h : SignalMove s t) : Owned t := by
  have hl := hi.ledger
  cases h with
  | service r st hcb hr hs =>
    refine hi.settle (fun r' => if r'.frame = r.frame then { r' with state := st } else r')
      (fun r' => ?_) rfl rfl rfl (by simpa using hl)
    split <;> rfl
  | callback n hcb ht => exact hi.mark ht rfl rfl rfl hl
  | callbackDrop n hcb ht => exact hi.same rfl rfl rfl hl
  | callbackSchedule n hcb => exact hi.same rfl (WorkItem.schedule_running _) rfl hl
  | timeoutBegin n hp hr => exact hi.same rfl rfl rfl hl
  | timeout n hr ht => exact hi.mark ht rfl rfl rfl hl
  | timeoutDrop n hr ht => exact hi.same rfl rfl rfl hl
  | timeoutSchedule n hr => exact hi.same rfl (WorkItem.schedule_running _) rfl hl

theorem commitMove (hi : Owned s) (h : CommitMove p s t) : Owned t := by
  have hl := hi.ledger
  cases h with
  | stop caller pc hc ht =>
    cases ht with
    | force ht => exact hi.mark ht rfl rfl rfl hl
    | schedule => exact hi.same rfl (WorkItem.schedule_running _) rfl hl
    | _ => exact hi.same rfl rfl rfl hl
  | queue c hc => exact hi.same (WorkItem.schedule_running _) rfl rfl hl
  | _ => exact hi.same rfl rfl rfl hl

theorem move (hi : Owned s) (h : Move p s t) : Owned t := by
  cases h with
  | upload h => exact hi.uploadMove h
  | complete h => exact hi.completeMove h
  | signal h => exact hi.signalMove h
  | commit h => exact hi.commitMove h

end Owned

theorem Reachable.owned {p : Params} {s : Sys} (h : Reachable p s) : Owned s :=
  Sys.Reachable.induction .init (fun _ _ => Owned.move) h

/-! ## Top theorems -/

namespace Owned

open Sys

variable {s : Sys}

/-- Whoever holds the lock, DMA is in one of the four phases. -/
theorem phase (hi : Owned s) : s.dma.Idle ∨ s.dma.Offered ∨ s.dma.Flying ∨ s.dma.Released := by
  cases hu : s.uploadHoldsDmaLock with
  | true =>
    cases hr : s.upload.running with
    | none => rw [uploadHolds_none hr] at hu; cases hu
    | some pc =>
      have hown := hi.upload pc hr (by rw [← uploadHolds_eq hr, hu])
      cases pc with
      | entry | captured => exact hown.elim .inl fun h => .inr (.inr (.inl h))
      | locked | composed | prepared => exact .inl hown
      | marked | refused => exact .inr (.inl hown)
      | accepted => exact .inr (.inr (.inl hown))
  | false =>
    cases hc : s.completeHoldsDmaLock with
    | false => exact (hi.free hu hc).elim .inl fun h => .inr (.inr (.inl h))
    | true =>
      cases hr : s.complete.running with
      | none => rw [completeHolds_none hr] at hc; cases hc
      | some pc =>
        have hown := hi.complete pc hr (by rw [← completeHolds_eq hr, hc])
        cases pc with
        | entry | locked => exact hown.elim .inl fun h => .inr (.inr (.inl h))
        | pending | cancelled => exact .inr (.inr (.inl hown.1))
        | released | compared => exact .inr (.inr (.inr hown))
        | finished => exact .inl hown

/-- At most one request is outstanding. -/
theorem reqs_length_le (hi : Owned s) : s.reqs.length ≤ 1 := by
  obtain h | h | h | h := hi.phase
  · exact le_of_eq_of_le (congrArg List.length h.reqs) (Nat.zero_le 1)
  · exact le_of_eq_of_le (congrArg List.length h.reqs) (Nat.zero_le 1)
  · obtain ⟨r, hr, -⟩ := h.reqs
    exact le_of_eq (congrArg List.length hr)
  · exact le_of_eq_of_le (congrArg List.length h.reqs) (Nat.zero_le 1)

/-- A completion is pending only for a frame in flight. -/
theorem inflight_of_pending (hi : Owned s) (hp : s.dmaCompletionPending = true) :
    s.dmaInflight = true := by
  obtain h | h | h | h := hi.phase
  · have hnp : s.dmaCompletionPending = false := h.pending
    rw [hp] at hnp
    cases hnp
  all_goals exact h.inflight

/-- Nothing is outstanding while the flag is down. -/
theorem reqs_nil_of_not_inflight (hi : Owned s) (hf : s.dmaInflight = false) : s.reqs = [] := by
  obtain h | h | h | h := hi.phase
  · exact h.reqs
  all_goals
    have hin : s.dmaInflight = true := h.inflight
    rw [hf] at hin
    cases hin

end Owned

/-- The steps in which `fpga_drm_compose_frame` runs, or the part of
`fpga_drm_submit_frame_nowait` that rewrites `active_frame_sgt` and `frame_cb`. -/
def Sys.rewritesStaging (s : Sys) : Act → Bool
  | .upload _ =>
    match s.upload.running with
    | some (.locked _) | some (.composed _) => true
    | _ => false
  | _ => false

theorem Owned.reqs_nil_of_rewrites {s : Sys} (hi : Owned s) {a : Act}
    (ha : s.rewritesStaging a = true) : s.reqs = [] := by
  unfold Sys.rewritesStaging at ha
  split at ha
  · split at ha
    · next l hr =>
      have hidle : s.dma.Idle := hi.upload _ hr rfl
      exact hidle.reqs
    · next l hr =>
      have hidle : s.dma.Idle := hi.upload _ hr rfl
      exact hidle.reqs
    · cases ha
  · cases ha

theorem Sys.UploadMove.staging_unchanged {p : Params} {s t : Sys} (h : UploadMove p s t) {ret : Int}
    (ha : s.rewritesStaging (.upload ret) = false) :
    t.lineBufs = s.lineBufs ∧ t.activeSgt = s.activeSgt := by
  cases h with
  | composeFailed l hr => simp [rewritesStaging, hr] at ha
  | composed l hr n => simp [rewritesStaging, hr] at ha
  | prepare l hr => simp [rewritesStaging, hr] at ha
  | _ => exact ⟨rfl, rfl⟩

/-- No other step writes `line_bufs` or `active_frame_sgt`. -/
theorem Sys.step_staging_unchanged {p : Params} {a : Act} {s t : Sys} (h : step p a s = some t)
    (ha : s.rewritesStaging a = false) : t.lineBufs = s.lineBufs ∧ t.activeSgt = s.activeSgt := by
  have hcommit : CommitMove p s t → t.lineBufs = s.lineBufs ∧ t.activeSgt = s.activeSgt := by
    intro h
    cases h with
    | stop caller pc hc ht => cases ht <;> exact ⟨rfl, rfl⟩
    | _ => exact ⟨rfl, rfl⟩
  have hsignal : SignalMove s t → t.lineBufs = s.lineBufs ∧ t.activeSgt = s.activeSgt := by
    intro h
    cases h <;> exact ⟨rfl, rfl⟩
  cases a with
  | upload ret => exact (uploadStep_move h).staging_unchanged ha
  | complete => cases completeStep_move h <;> exact ⟨rfl, rfl⟩
  | begin c => exact hcommit (beginCommit_move h)
  | remove => exact hcommit (beginRemove_move h)
  | commit r => exact hcommit (commitStep_move h)
  | service ok => exact hsignal (serviceStep_move h)
  | callback => exact hsignal (callbackStep_move h)
  | timeoutBegin => exact hsignal (timeoutBegin_move h)
  | timeout => exact hsignal (timeoutStep_move h)

/-- **One frame in flight, and the staging buffers are the driver's while they are
written.** -/
theorem single_frame_in_flight {p : Params} {s : Sys} (h : Reachable p s) :
    s.reqs.length ≤ 1 ∧
    s.submitted.length = s.released + s.reqs.length ∧
    (s.released < s.submitted.length → s.dmaInflight = true) ∧
    ∀ a t, step p a s = some t →
      if s.rewritesStaging a then s.reqs = []
      else t.lineBufs = s.lineBufs ∧ t.activeSgt = s.activeSgt := by
  have hi := h.owned
  refine ⟨hi.reqs_length_le, hi.ledger, ?_, ?_⟩
  · intro hlt
    cases hf : s.dmaInflight with
    | true => rfl
    | false =>
      have hnil := hi.reqs_nil_of_not_inflight hf
      have hl := hi.ledger
      rw [hnil, List.length_nil] at hl
      omega
  · intro a t ht
    split
    · next ha => exact hi.reqs_nil_of_rewrites ha
    · next ha => exact Sys.step_staging_unchanged ht (by simpa using ha)

/-! ## A first frame -/

def allOn : Params := ⟨true, true, true⟩

/-- A commit of the 640x480 mode with its own framebuffer. -/
def vgaFrame (needsModeset : Bool) : Commit :=
  ⟨true, needsModeset, vga.drm, some (vgaState vgaFb), none⟩

def commitSteps (n : Nat) : List Act := List.replicate n (.commit ⟨0, 0, 0, 0, 0⟩)
def uploadSteps (n : Nat) : List Act := List.replicate n (.upload (- EIOCBQUEUED))
def completeSteps (n : Nat) : List Act := List.replicate n .complete

/-- The modeset of an idle device and the first page flip, committed. -/
def firstFlip : List Act :=
  .begin (vgaFrame true) :: commitSteps 12 ++ .begin (vgaFrame false) :: commitSteps 3

/-- At the end of the upload the frame is outstanding, and flagged. -/
theorem single_frame_in_flight_first :
    ∃ s, run (step allOn) (firstFlip ++ uploadSteps 8) init = some s ∧
      s.released < s.submitted.length ∧ s.reqs.length ≤ 1 ∧ s.dmaInflight = true := by
  have hrun : (run (step allOn) (firstFlip ++ uploadSteps 8) init).any
      (fun s => decide (s.released < s.submitted.length)) = true := by decide
  obtain ⟨s, hs, hlt⟩ := run_any hrun
  obtain ⟨h1, -, h3, -⟩ := single_frame_in_flight ⟨_, hs⟩
  have hlt := of_decide_eq_true hlt
  exact ⟨s, hs, hlt, h1, h3 hlt⟩

end FpgaDrm
