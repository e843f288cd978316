import SimpleDisplay.Drm.Ownership

/-!
# Framebuffer references

`balance s fb` is what the driver has taken of `fb`, less what it has dropped, less what
its two slots and the locals of a running `upload_work` hold.  Every step keeps it, but
for one return path: a run of `upload_work` that finds no primary snapshot, or a
disabled pipe, returns with the overlay reference it has taken.

    the references of a run are conserved ↔ no capture of it found an overlay snapshot
      without a primary one and an enabled pipe                   (references_conserved_iff)

The balance never falls, so that no reference is dropped twice in any run.
-/

namespace FpgaDrm

open Work StateMachine

/-! ## Who holds a reference -/

/-- The framebuffers of the local copies of a run of `upload_work`. -/
def UploadPc.held (pc : UploadPc) : List Framebuffer := (pc.locals.map Locals.held).getD []

namespace Sys

/-- The framebuffers the slots and the local copies hold, with multiplicity. -/
def holders (s : Sys) : List Framebuffer :=
  s.primary.held ++ s.overlay.held ++ (s.upload.running.map UploadPc.held).getD []

def balance (s : Sys) (fb : Framebuffer) : Int :=
  s.refs.taken.count fb - s.refs.dropped.count fb - s.holders.count fb

/-- What the next step of `upload_work` takes and does not give back. -/
def leak (s : Sys) : Act → List Framebuffer
  | .upload _ =>
    match s.upload.running with
    | some .entry => if s.pipeEnabled && s.primary.enabled then [] else s.overlay.held
    | _ => []
  | _ => []

/-- The step captures the snapshots. -/
def captures (s : Sys) : Act → Bool
  | .upload _ =>
    match s.upload.running with
    | some .entry => true
    | _ => false
  | _ => false

end Sys

/-- A capture finds an enabled pipe and a primary snapshot, or no overlay snapshot. -/
def NeutralCapture (a : Act) (s : Sys) : Prop :=
  s.captures a = true → (s.pipeEnabled = true ∧ s.primary.enabled = true) ∨ s.overlay.enabled = false

instance (a : Act) (s : Sys) : Decidable (NeutralCapture a s) := inferInstanceAs (Decidable (_ → _))

/-! ## Lemmas -/

theorem PlaneSnapshot.held_eq_nil {snap : PlaneSnapshot} : snap.held = [] ↔ snap.enabled = false := by
  rw [snap.attached]
  cases h : snap.fb <;> simp [PlaneSnapshot.held, h]

@[simp] theorem UploadPc.held_entry : UploadPc.entry.held = [] := rfl
@[simp] theorem UploadPc.held_captured (l : Locals) : (UploadPc.captured l).held = l.held := rfl
@[simp] theorem PlaneSnapshot.held_zero : PlaneSnapshot.zero.held = [] := rfl

namespace Sys

variable {p : Params} {s t : Sys}

theorem leak_eq_nil {a : Act} : s.leak a = [] ↔ NeutralCapture a s := by
  unfold leak NeutralCapture captures
  split
  · split
    · next hr =>
      by_cases hp : (s.pipeEnabled && s.primary.enabled) = true
      · simp [Bool.and_eq_true_iff.1 hp]
      · have hn : ¬ (s.pipeEnabled = true ∧ s.primary.enabled = true) := by
          simpa [Bool.and_eq_true_iff] using hp
        rw [if_neg hp, PlaneSnapshot.held_eq_nil]
        constructor
        · intro h _
          exact .inr h
        · intro h
          exact (h rfl).resolve_left hn
    · simp
  · simp

theorem holders_eq {pc : UploadPc} (h : s.upload.running = some pc) :
    s.holders = s.primary.held ++ s.overlay.held ++ pc.held := by
  simp [holders, h]

theorem holders_none (h : s.upload.running = none) : s.holders = s.primary.held ++ s.overlay.held := by
  simp [holders, h]

/-- The locals of a capture are the slots. -/
theorem captured_held (s : Sys) : s.captured.held = s.primary.held ++ s.overlay.held := by
  unfold Locals.held captured
  cases he : s.overlay.enabled with
  | false => simp [PlaneSnapshot.held_eq_nil.2 he]
  | true => rfl

theorem leak_running {pc : UploadPc} (hr : s.upload.running = some pc) (hne : pc ≠ .entry)
    (ret : Int) : s.leak (.upload ret) = [] := by
  cases pc <;> simp [leak, hr] at hne ⊢

/-- The end of a run gives its local copies back. -/
theorem endUpload_balance {u : Sys} {l : Locals} {pc : UploadPc} {ret : Int} {fb : Framebuffer}
    (hr : s.upload.running = some pc) (hne : pc ≠ .entry) (hl : pc.held = l.held)
    (hu : u.upload = s.upload) (hp : u.primary = s.primary) (ho : u.overlay = s.overlay)
    (href : u.refs = s.refs) :
    (u.endUpload l).balance fb = s.balance fb + (s.leak (.upload ret)).count fb := by
  rw [endUpload_eq, leak_running hr hne]
  simp only [balance, holders, hr, hl, hu, hp, ho, href, WorkItem.finish_running, Option.map_none,
    Option.map_some, Option.getD_none, Option.getD_some, List.append_nil, List.count_append,
    List.count_nil, Locals.held]
  push_cast
  omega

/-- A move within a run keeps its local copies. -/
theorem goto_balance {pc pc' : UploadPc} {ret : Int} {fb : Framebuffer}
    (hr : s.upload.running = some pc) (hne : pc ≠ .entry) (hr' : t.upload.running = some pc')
    (hl : pc'.held = pc.held) (hp : t.primary = s.primary) (ho : t.overlay = s.overlay)
    (href : t.refs = s.refs) :
    t.balance fb = s.balance fb + (s.leak (.upload ret)).count fb := by
  rw [leak_running hr hne]
  simp [balance, holders_eq hr, holders_eq hr', hl, hp, ho, href]

theorem uploadMove_balance (h : UploadMove p s t) (ret : Int) (fb : Framebuffer) :
    t.balance fb = s.balance fb + (s.leak (.upload ret)).count fb := by
  cases h with
  | start hr hq => simp [balance, holders, hr, leak]
  | captureNone hr hc =>
    have hn : ¬ (s.pipeEnabled && s.primary.enabled) = true := by
      obtain hc | hc := hc <;> simp [hc]
    simp only [balance, leak, hr, hn, holders, WorkItem.finish_running, Option.map_none,
      Option.map_some, Option.getD_none, Option.getD_some, UploadPc.held_entry, List.append_nil,
      Refs.getAll, List.count_append]
    push_cast
    omega
  | capture hr hp he =>
    simp only [balance, leak, hr, hp, he, Bool.and_self, if_true, holders,
      WorkItem.goto_running_of_some hr, Option.map_some, Option.getD_some, UploadPc.held_entry,
      UploadPc.held_captured, captured_held, List.append_nil, Refs.getAll, List.count_append, List.count_nil]
    push_cast
    omega
  | skip l hr he => exact endUpload_balance hr (by simp) rfl rfl rfl rfl rfl
  | busy l hr he hl hb => exact endUpload_balance hr (by simp) rfl rfl rfl rfl rfl
  | composeFailed l hr => exact endUpload_balance hr (by simp) rfl rfl rfl rfl rfl
  | rollBack l hr => exact endUpload_balance hr (by simp) rfl rfl rfl rfl rfl
  | arm l hr => exact endUpload_balance hr (by simp) rfl rfl rfl rfl rfl
  | lock l hr he hl hb =>
    exact goto_balance hr (by simp) (WorkItem.goto_running_of_some hr) rfl rfl rfl rfl
  | composed l hr n =>
    exact goto_balance hr (by simp) (WorkItem.goto_running_of_some hr) rfl rfl rfl rfl
  | prepare l hr =>
    exact goto_balance hr (by simp) (WorkItem.goto_running_of_some hr) rfl rfl rfl rfl
  | inflight l mode hr =>
    exact goto_balance hr (by simp) (WorkItem.goto_running_of_some hr) rfl rfl rfl rfl
  | refuse l mode hr =>
    exact goto_balance hr (by simp) (WorkItem.goto_running_of_some hr) rfl rfl rfl rfl
  | accept l mode hr hcb =>
    exact goto_balance hr (by simp) (WorkItem.goto_running_of_some hr) rfl rfl rfl rfl

/-- What leaves the slots, the locals and the references alone. -/
theorem same_balance {fb : Framebuffer} (hu : t.upload.running = s.upload.running)
    (hp : t.primary = s.primary) (ho : t.overlay = s.overlay) (href : t.refs = s.refs) :
    t.balance fb = s.balance fb := by
  simp only [balance, holders, hu, hp, ho, href]

theorem completeMove_balance (h : CompleteMove s t) (fb : Framebuffer) :
    t.balance fb = s.balance fb := by
  cases h with
  | count ret up hr =>
    refine same_balance ?_ rfl rfl rfl
    cases up <;> simp [countFinish]
  | _ => exact same_balance rfl rfl rfl rfl

theorem signalMove_balance (h : SignalMove s t) (fb : Framebuffer) :
    t.balance fb = s.balance fb := by
  cases h <;> exact same_balance rfl rfl rfl rfl

theorem stopMove_balance {caller : StopCaller} {pc : StopPc} (h : StopMove s caller pc t)
    (fb : Framebuffer) : t.balance fb = s.balance fb := by
  cases h with
  | clear b =>
    simp only [balance, holders, PlaneSnapshot.held_zero, Refs.putAll, List.nil_append,
      List.count_append]
    push_cast
    omega
  | _ => exact same_balance rfl rfl rfl rfl

/-- A flush puts what it replaces and gets what it installs. -/
theorem flush_balance (c : Commit) {n : Nat} {pc : CommitPc}
    {commits : List (PlaneSnapshot × PlaneSnapshot)} (fb : Framebuffer) :
    balance
      { s with
        primary := flushedPrimary c s
        overlay := flushedOverlay p c s
        refs := flushedRefs p c s
        commits := commits
        atomicCommits := n
        commit := pc } fb = s.balance fb := by
  unfold flushedPrimary flushedOverlay flushedRefs
  cases c.primary <;> cases overlayState p c
  · rfl
  all_goals
    simp only [balance, holders, Refs.putAll, Refs.getAll, List.count_append]
    push_cast
    omega

theorem commitMove_balance (h : CommitMove p s t) (fb : Framebuffer) :
    t.balance fb = s.balance fb := by
  cases h with
  | stop caller pc hc ht => exact stopMove_balance ht fb
  | flush c hc => exact flush_balance c fb
  | queue c hc => exact same_balance (WorkItem.schedule_running _) rfl rfl rfl
  | _ => exact same_balance rfl rfl rfl rfl

/-- **Step lemma.** A step changes the balance by what it leaks. -/
theorem step_balance {a : Act} (h : step p a s = some t) (fb : Framebuffer) :
    t.balance fb = s.balance fb + (s.leak a).count fb := by
  cases a with
  | upload ret => exact uploadMove_balance (uploadStep_move h) ret fb
  | complete => simpa [leak] using completeMove_balance (completeStep_move h) fb
  | begin c => simpa [leak] using commitMove_balance (p := p) (beginCommit_move h) fb
  | remove => simpa [leak] using commitMove_balance (p := p) (beginRemove_move h) fb
  | commit r => simpa [leak] using commitMove_balance (commitStep_move h) fb
  | service ok => simpa [leak] using signalMove_balance (serviceStep_move h) fb
  | callback => simpa [leak] using signalMove_balance (callbackStep_move h) fb
  | timeoutBegin => simpa [leak] using signalMove_balance (timeoutBegin_move h) fb
  | timeout => simpa [leak] using signalMove_balance (timeoutStep_move h) fb

/-- **Run lemma.** The balance never falls. -/
theorem run_balance_le {as : List Act} (h : run (step p) as s = some t) (fb : Framebuffer) :
    s.balance fb ≤ t.balance fb := by
  induction as generalizing s with
  | nil => cases h; exact le_refl _
  | cons a as ih =>
    obtain ⟨u, hu, ht⟩ := run_cons_some.1 h
    have hstep := step_balance hu fb
    have hrest := ih ht
    omega

/-- It stays what it was exactly when no step leaks. -/
theorem run_balance_iff {as : List Act} (h : run (step p) as s = some t) :
    (∀ fb, t.balance fb = s.balance fb) ↔ Meets (step p) NeutralCapture as s := by
  induction as generalizing s with
  | nil => cases h; simp [Meets]
  | cons a as ih =>
    obtain ⟨u, hu, ht⟩ := run_cons_some.1 h
    simp only [Meets, hu, Option.some.injEq, forall_eq', ← ih ht, ← leak_eq_nil]
    constructor
    · intro heq
      have hzero : ∀ fb, (s.leak a).count fb = 0 ∧ t.balance fb = u.balance fb := by
        intro fb
        have h1 := heq fb
        have h2 := step_balance hu fb
        have h3 := run_balance_le ht fb
        omega
      refine ⟨?_, fun fb => (hzero fb).2⟩
      rw [List.eq_nil_iff_forall_not_mem]
      exact fun fb => List.count_eq_zero.1 (hzero fb).1
    · rintro ⟨hleak, heq⟩ fb
      rw [heq fb, step_balance hu fb, hleak]
      simp

end Sys

/-! ## Top theorems -/

/-- The references taken and not dropped are those of the slots and of the local copies. -/
def Sys.Conserved (s : Sys) : Prop :=
  ∀ fb, s.refs.taken.count fb = s.refs.dropped.count fb + s.holders.count fb

theorem Sys.conserved_iff {s : Sys} : s.Conserved ↔ ∀ fb, s.balance fb = 0 := by
  unfold Conserved balance
  refine forall_congr' fun fb => ?_
  omega

/-- **A run conserves the references exactly when each of its captures that finds an
overlay snapshot finds a primary one and an enabled pipe.**  No run drops a reference
twice, and one that conserves them holds none once the slots are cleared and no
`upload_work` runs. -/
theorem references_conserved_iff {p : Params} {as : List Act} {s : Sys}
    (h : run (step p) as init = some s) :
    (s.Conserved ↔ Meets (step p) NeutralCapture as init) ∧
    (∀ fb, s.refs.dropped.count fb + s.holders.count fb ≤ s.refs.taken.count fb) ∧
    (s.Conserved → s.primary = .zero → s.overlay = .zero → s.upload.running = none →
      ∀ fb, s.refs.taken.count fb = s.refs.dropped.count fb) := by
  have hinit : ∀ fb, init.balance fb = 0 := fun fb => rfl
  refine ⟨?_, ?_, ?_⟩
  · rw [Sys.conserved_iff, ← Sys.run_balance_iff h]
    simp only [hinit]
  · intro fb
    have hle := Sys.run_balance_le h fb
    rw [hinit] at hle
    unfold Sys.balance at hle
    omega
  · intro hc hp ho hu fb
    rw [hc fb, Sys.holders_none hu, hp, ho]
    simp

/-! ## A capture between flush and enable -/

def overlayFb : Framebuffer := { vgaFb with id := 9 }

/-- The modeset of `vgaFrame` with an overlay. -/
def overlayModeset : Commit := { vgaFrame true with overlay := some (vgaState overlayFb) }

/-- `upload_work`, queued by the flush, runs before the enable, which then clears the
slots: the reference on the overlay framebuffer is taken twice and dropped once. -/
theorem overlay_reference_leaked :
    ∃ s, run (step allOn)
        (.begin overlayModeset :: commitSteps 2 ++ uploadSteps 2 ++ commitSteps 10) init = some s ∧
      s.commit.isIdle = true ∧ s.upload.running = none ∧ s.holders = [] ∧
      s.refs.taken.count overlayFb = 2 ∧ s.refs.dropped.count overlayFb = 1 ∧ ¬ s.Conserved := by
  have hrun : (run (step allOn)
      (.begin overlayModeset :: commitSteps 2 ++ uploadSteps 2 ++ commitSteps 10) init).any (fun s =>
        s.commit.isIdle && s.upload.running.isNone && decide (s.holders = [] ∧
          s.refs.taken.count overlayFb = 2 ∧ s.refs.dropped.count overlayFb = 1)) = true := by decide
  obtain ⟨s, hs, htest⟩ := run_any hrun
  simp only [Bool.and_eq_true, Option.isNone_iff_eq_none, decide_eq_true_eq] at htest
  obtain ⟨⟨hidle, hnone⟩, hh, ht, hd⟩ := htest
  refine ⟨s, hs, hidle, hnone, hh, ht, hd, fun hc => ?_⟩
  have := hc overlayFb
  rw [ht, hd, hh] at this
  cases this

/-- On the first page flip both sides hold. -/
theorem references_conserved_first :
    ∃ s, run (step allOn) (firstFlip ++ uploadSteps 8) init = some s ∧ s.Conserved := by
  have hrun : (run (step allOn) (firstFlip ++ uploadSteps 8) init).any (fun _ => true) = true := by
    decide
  obtain ⟨s, hs, -⟩ := run_any hrun
  exact ⟨s, hs, (references_conserved_iff hs).1.2 (by decide)⟩

end FpgaDrm
