import SimpleDisplay.Lib.History
import SimpleDisplay.Drm.Picture
import SimpleDisplay.Drm.Ownership

/-!
# The mappings behind the snapshots

A snapshot keeps the `vaddr` of a plane state's shadow mapping and a reference to the
framebuffer.  The mapping itself belongs to the commit that carries the plane state: the
shadow-plane helpers make it in `begin_fb_access`, before the commit tail, and drop it in
`end_fb_access`, some time after the flush and before the commit is done.

`accessStep` is the upload path with these two calls, and with the composition taken read
by read.  `Access` numbers the commits and records whose mapping every snapshot holds.

    flush ── queue ── … ── end_fb_access ── done
                └── upload_work: capture ── lock ── read, read, … ──

Nothing orders the two lines.  A read is safe just when it comes in time, of a plane that
this commit carries, in a run that has captured after the flush (`reads_valid_iff`).
-/

namespace FpgaDrm

open Work StateMachine

/-! ## Reads -/

inductive Slot
  | primary
  | overlay
deriving DecidableEq

/-- What `fpga_drm_compose_frame` reads, in order. -/
def composeReads (mode : VideoMode) (primary : PlaneSnapshot) (overlay : Option PlaneSnapshot) :
    List (Slot × LineCopy) :=
  if copyPrimaryCheck mode primary ≠ 0 then []
  else (primaryCopies mode primary).map (Slot.primary, ·) ++
    match overlay with
    | none => []
    | some ov =>
      if !ov.enabled || decide (blendOverlayCheck mode ov ≠ 0) then []
      else (overlayCopies ov).map (Slot.overlay, ·)

/-- A failed composition stops after the reads it has made. -/
theorem composeFrame_reads (mode : VideoMode) (primary : PlaneSnapshot)
    (overlay : Option PlaneSnapshot) (mem : Memory) (bufs : LineBufs) :
    (composeFrame mode primary overlay mem bufs).bufs =
      ((composeReads mode primary overlay).map Prod.snd).foldl (LineCopy.run mem) bufs := by
  have hsnd : ∀ (slot : Slot) (copies : List LineCopy),
      (copies.map (slot, ·)).map Prod.snd = copies := by
    intro slot copies
    simp
  unfold composeFrame composeReads
  by_cases hprimary : copyPrimaryCheck mode primary = 0
  · rw [copyPrimaryFrame_run hprimary, if_neg (not_not.2 hprimary), List.map_append, hsnd,
      List.foldl_append]
    dsimp only
    rw [if_neg (by decide)]
    cases overlay with
    | none => rfl
    | some ov =>
        by_cases he : ov.enabled = true
        · by_cases hblend : blendOverlayCheck mode ov = 0
          · simp only [he, hblend, Bool.not_true, ne_eq, not_true_eq_false, decide_false,
              Bool.or_self, Bool.false_eq_true, if_false, hsnd]
            rw [blendOverlayCpu_run he hblend]
            rfl
          · simp [he, hblend, blendOverlayCpu]
        · simp [he]
  · rw [if_pos hprimary]
    unfold copyPrimaryFrame
    rw [if_pos hprimary]
    dsimp only
    rw [if_pos hprimary]
    rfl

/-! ## Access -/

/-- A read that was made: the commit whose plane state the mapping is from, and whether
that commit was between its `begin_fb_access` and its `end_fb_access`. -/
structure Read where
  slot : Slot
  copy : LineCopy
  commit : Nat
  valid : Bool

structure Access where
  /-- Commits that had their `begin_fb_access`; the last of them has this number. -/
  begun : Nat
  /-- It has not had its `end_fb_access`. -/
  inAccess : Bool
  /-- The commit that last installed each snapshot. -/
  installed : Slot → Nat
  /-- That of the local copies of `upload_work`. -/
  captured : Slot → Nat
  /-- The reads that a composition has not made yet. -/
  rest : Option (List (Slot × LineCopy))
  reads : List Read

namespace Access

def init : Access := ⟨0, false, fun _ => 0, fun _ => 0, none, []⟩

/-- The mappings of commit `n` are there. -/
def mapped (m : Access) (n : Nat) : Bool := m.inAccess && n == m.begun

def read (m : Access) (slot : Slot) (copy : LineCopy) : Read :=
  ⟨slot, copy, m.captured slot, m.mapped (m.captured slot)⟩

end Access

/-- Where a commit stands to its flush. -/
inductive Phase
  | outside
  | beforeFlush
  | afterFlush (c : Commit)

def CommitPc.phase : CommitPc → Phase
  | .idle | .stop .remove _ => .outside
  | .disable _ | .stop (.disable _) _ | .flush _ => .beforeFlush
  | .flushed c _ | .enable c | .stop (.enable c _) _ | .program c _ | .programmed c _ | .done c =>
    .afterFlush c

/-- The flush installs a snapshot of this plane. -/
def Commit.carries (p : Params) (c : Commit) : Slot → Bool
  | .primary => c.primary.isSome
  | .overlay => (Sys.overlayState p c).isSome

namespace Sys

def locals (s : Sys) : Option Locals := s.upload.running.bind UploadPc.locals

/-- A run of `upload_work` copies the snapshots, a composition ends. -/
def noteUpload (s : Sys) (m : Access) : Access :=
  match s.upload.running with
  | some .entry => { m with captured := m.installed }
  | some (.locked _) => { m with rest := none }
  | _ => m

/-- A flush installs what its commit carries. -/
def noteCommit (p : Params) (s : Sys) (m : Access) : Access :=
  match s.commit with
  | .flush c =>
    { m with installed := fun slot => if c.carries p slot then m.begun else m.installed slot }
  | _ => m

def noteAccess (p : Params) : Act → Sys → Access → Access
  | .begin _, _, m => { m with begun := m.begun + 1, inAccess := true }
  | .commit _, s, m => s.noteCommit p m
  | .upload _, s, m => s.noteUpload m
  | _, _, m => m

/-- A composition ends after its last read, a commit after its `end_fb_access`. -/
def waits : Act → Sys → Access → Bool
  | .upload _, s, m =>
    match s.upload.running with
    | some (.locked _) => !m.rest.any List.isEmpty
    | _ => false
  | .commit _, s, m =>
    match s.commit with
    | .done _ => m.inAccess
    | _ => false
  | _, _, _ => false

end Sys

inductive AccessAct
  | driver (a : Act)
  | endFbAccess
  /-- `fpga_drm_compose_frame` begins. -/
  | compose
  | read

def accessStep (p : Params) : AccessAct → Sys × Access → Option (Sys × Access)
  | .driver a, (s, m) =>
    if Sys.waits a s m then none else recorded (step p) (Sys.noteAccess p) a (s, m)
  | .endFbAccess, (s, m) =>
    match s.commit.phase with
    | .afterFlush _ => if m.inAccess then some (s, { m with inAccess := false }) else none
    | _ => none
  | .compose, (s, m) =>
    match s.upload.running, m.rest with
    | some (.locked l), none =>
      some (s, { m with
        rest := some (composeReads s.activeMode l.primary (overlayArg l.overlay l.haveOverlay)) })
    | _, _ => none
  | .read, (s, m) =>
    match m.rest with
    | some ((slot, copy) :: rest) =>
      some (s, { m with rest := some rest, reads := m.reads ++ [m.read slot copy] })
    | _ => none

/-- After the flush and before the `end_fb_access` of a commit that carries the plane, in a
run that has captured since that flush. -/
def inTime (p : Params) (slot : Slot) (s : Sys) (m : Access) : Bool :=
  match s.commit.phase with
  | .afterFlush c =>
    m.inAccess && c.carries p slot && s.locals.any (·.commit == s.commits.length)
  | _ => false

/-- The read, if the step is one, comes in time. -/
def ReadInTime (p : Params) : AccessAct → Sys × Access → Prop
  | .read, (s, m) => ∀ slot ∈ (m.rest.bind List.head?).map Prod.fst, inTime p slot s m = true
  | _, _ => True

instance (p : Params) : ∀ a w, Decidable (ReadInTime p a w)
  | .read, (s, m) => inferInstanceAs
      (Decidable (∀ slot ∈ (m.rest.bind List.head?).map Prod.fst, inTime p slot s m = true))
  | .driver _, _ | .endFbAccess, _ | .compose, _ => isTrue trivial

/-! ## Whose mapping it is -/

/-- What the record says in each phase.  After its flush a commit has the planes it
carries, and so has a run that has captured since. -/
def PhaseOk (p : Params) (s : Sys) (m : Access) : Phase → Prop
  | .outside => m.inAccess = false
  | .beforeFlush => ∀ slot, m.installed slot < m.begun ∧ m.captured slot < m.begun
  | .afterFlush c =>
    (∀ slot, m.installed slot = m.begun ↔ c.carries p slot = true) ∧
    ∀ l, s.locals = some l → ∀ slot,
      m.captured slot = m.begun ↔ c.carries p slot = true ∧ l.commit = s.commits.length

structure Tracked (p : Params) (s : Sys) (m : Access) : Prop where
  installed_le : ∀ slot, m.installed slot ≤ m.begun
  captured_le : ∀ slot, m.captured slot ≤ m.begun
  phase : PhaseOk p s m s.commit.phase
  number : ∀ l, s.locals = some l → l.commit ≤ s.commits.length
  composing : m.rest.isSome → ∃ l, s.upload.running = some (.locked l)

theorem changes_of_carries {p : Params} {c : Commit} {slot : Slot}
    (h : c.carries p slot = true) : Sys.changes p c = true := by
  unfold Sys.changes
  cases slot with
  | primary =>
      have hprimary : c.primary.isSome = true := h
      rw [hprimary, Bool.true_or]
  | overlay =>
      have hoverlay : (Sys.overlayState p c).isSome = true := h
      rw [hoverlay, Bool.or_true]

namespace Sys

variable {p : Params} {s t : Sys} {m : Access}

theorem locals_of_running {pc : UploadPc} (hr : s.upload.running = some pc) :
    s.locals = pc.locals := by
  unfold Sys.locals
  rw [hr]
  rfl

theorem locals_goto {pc pc' : UploadPc} (hr : s.upload.running = some pc)
    (ht : t.upload = s.upload.goto pc') : t.locals = pc'.locals := by
  apply locals_of_running
  rw [ht]
  exact WorkItem.goto_running_of_some hr

theorem UploadMove.locals (h : UploadMove p s t) :
    (s.upload.running = some .entry ∧ ∀ l, t.locals = some l → l.commit = s.commits.length) ∨
    (s.upload.running ≠ some .entry ∧ ∀ l, t.locals = some l → s.locals = some l) := by
  cases h with
  | captureNone hr _ =>
      refine .inl ⟨hr, ?_⟩
      rintro l ⟨⟩
  | capture hr _ _ =>
      refine .inl ⟨hr, ?_⟩
      intro l hl
      rw [locals_goto hr rfl] at hl
      cases hl
      rfl
  | start hr _ =>
      refine .inr ⟨by simp [hr], ?_⟩
      rintro l ⟨⟩
  | skip l hr _ | busy l hr _ _ _ | composeFailed l hr _ | rollBack l hr | arm l hr =>
      refine .inr ⟨by simp [hr], ?_⟩
      rintro l' ⟨⟩
  | lock l hr _ _ _ | composed l hr _ | prepare l hr | inflight l _ hr | refuse l _ hr
  | accept l _ hr _ =>
      refine .inr ⟨by simp [hr], ?_⟩
      intro l' hl
      rw [locals_goto hr rfl] at hl
      rw [locals_of_running hr]
      exact hl

theorem UploadMove.commits (h : UploadMove p s t) :
    t.commit = s.commit ∧ t.commits = s.commits := by
  cases h <;> exact ⟨rfl, rfl⟩

/-- A step that captures nothing and neither begins, flushes nor ends a commit. -/
structure SamePhase (s t : Sys) : Prop where
  phase : t.commit.phase = s.commit.phase
  running : t.upload.running = s.upload.running
  commits : t.commits = s.commits

theorem CompleteMove.samePhase (h : CompleteMove s t) : SamePhase s t := by
  cases h with
  | count ret up hr =>
      refine ⟨rfl, ?_, rfl⟩
      cases up with
      | false => rfl
      | true => exact WorkItem.schedule_running _
  | _ => exact ⟨rfl, rfl, rfl⟩

theorem SignalMove.samePhase (h : SignalMove s t) : SamePhase s t := by
  cases h <;> exact ⟨rfl, rfl, rfl⟩

theorem StopMove.samePhase {caller : StopCaller} {pc : StopPc} (h : StopMove s caller pc t)
    (hc : s.commit = .stop caller pc) : SamePhase s t := by
  have hphase : ∀ pc', (CommitPc.stop caller pc').phase = s.commit.phase := by
    intro pc'
    rw [hc]
    cases caller <;> rfl
  cases h with
  | clear b =>
      refine ⟨?_, rfl, rfl⟩
      rw [hc]
      cases caller <;> rfl
  | _ => exact ⟨hphase _, rfl, rfl⟩

/-- The steps of the tail by what they do to the phase. -/
inductive TailMove (p : Params) (s t : Sys) : Prop
  | same (hs : ∀ c, s.commit ≠ .flush c) (h : SamePhase s t)
  | flush (c : Commit) (hs : s.commit = .flush c) (ht : t.commit.phase = .afterFlush c)
      (hu : t.upload.running = s.upload.running)
      (hn : t.commits.length = s.commits.length + if changes p c then 1 else 0)
  | finish (c : Commit) (hs : s.commit = .done c) (ht : t.commit.phase = .outside)
      (hu : t.upload.running = s.upload.running) (hn : t.commits = s.commits)

theorem CommitMove.tail (h : CommitMove p s t) (hidle : s.commit ≠ .idle) : TailMove p s t := by
  have hnext : ∀ c : Commit,
      (if c.needsModeset && c.active then CommitPc.enable c else .done c).phase =
        .afterFlush c := by
    intro c
    by_cases hm : (c.needsModeset && c.active) = true
    · rw [if_pos hm]
      rfl
    · rw [if_neg hm]
      rfl
  cases h with
  | begin c hc _ _ => exact absurd hc hidle
  | remove hc _ => exact absurd hc hidle
  | flush c hc =>
      refine .flush c hc rfl rfl ?_
      show (if changes p c then _ else _ : List _).length = _
      by_cases hch : changes p c = true
      · rw [if_pos hch, if_pos hch, List.length_append]
        rfl
      · rw [if_neg hch, if_neg hch]
        rfl
  | finish c hc => exact .finish c hc rfl rfl rfl
  | stop caller pc hc ht => exact .same (by simp [hc]) (ht.samePhase hc)
  | queue c hc =>
      refine .same (by simp [hc]) ⟨?_, WorkItem.schedule_running _, rfl⟩
      rw [hc]
      exact hnext c
  | unchanged c hc =>
      refine .same (by simp [hc]) ⟨?_, rfl, rfl⟩
      rw [hc]
      exact hnext c
  | disable c hc | unknownMode c hc _ | enable c _ hc _ | programFailed c _ _ hc _
  | program c _ _ hc _ | enabled c _ hc =>
      refine .same (by simp [hc]) ⟨?_, rfl, rfl⟩
      rw [hc]
      rfl

theorem commitStep_tail {r : ProgramRets} (h : s.commitStep p r = some t) : TailMove p s t := by
  refine (commitStep_move h).tail fun hidle => ?_
  unfold commitStep at h
  rw [hidle] at h
  cases h

end Sys

/-! ## The record over a run -/

namespace Tracked

open Sys

variable {p : Params} {s t : Sys} {m : Access}

theorem init : Tracked p init .init :=
  ⟨fun _ => Nat.le_refl _, fun _ => Nat.le_refl _, rfl, by rintro l ⟨⟩, by rintro ⟨⟩⟩

/-- Locals that were there, or none. -/
theorem phaseOk (hi : PhaseOk p s m s.commit.phase) (hphase : t.commit.phase = s.commit.phase)
    (hlocals : ∀ l, t.locals = some l → s.locals = some l) (hn : t.commits = s.commits)
    (rest : Option (List (Slot × LineCopy))) (reads : List Read) :
    PhaseOk p t { m with rest := rest, reads := reads } t.commit.phase := by
  rw [hphase]
  cases hp : s.commit.phase with
  | outside =>
      rw [hp] at hi
      exact hi
  | beforeFlush =>
      rw [hp] at hi
      exact hi
  | afterFlush c =>
      rw [hp] at hi
      refine ⟨hi.1, ?_⟩
      intro l hl slot
      rw [hn]
      exact hi.2 l (hlocals l hl) slot

theorem same (hi : Tracked p s m) (h : SamePhase s t) : Tracked p t m := by
  have hlocals : t.locals = s.locals := by
    unfold Sys.locals
    rw [h.running]
  refine ⟨hi.installed_le, hi.captured_le, ?_, ?_, ?_⟩
  · exact phaseOk hi.phase h.phase (fun l hl => by rw [← hlocals, hl]) h.commits m.rest m.reads
  · intro l hl
    rw [h.commits]
    exact hi.number l (by rw [← hlocals, hl])
  · intro hrest
    rw [h.running]
    exact hi.composing hrest

/-! ### `upload_work` -/

/-- Only a composition has reads before it. -/
theorem rest_none (hi : Tracked p s m) (hr : ∀ l, s.upload.running ≠ some (.locked l)) :
    m.rest = none := by
  cases hrest : m.rest with
  | none => rfl
  | some rest =>
      obtain ⟨l, hl⟩ := hi.composing (by rw [hrest]; rfl)
      exact absurd hl (hr l)

theorem capture (hi : Tracked p s m) (hr : s.upload.running = some .entry)
    (hl : ∀ l, t.locals = some l → l.commit = s.commits.length) (hc : t.commit = s.commit)
    (hn : t.commits = s.commits) : Tracked p t { m with captured := m.installed } := by
  refine ⟨hi.installed_le, hi.installed_le, ?_, ?_, ?_⟩
  · have hphase := hi.phase
    rw [hc]
    cases hp : s.commit.phase with
    | outside =>
        rw [hp] at hphase
        exact hphase
    | beforeFlush =>
        rw [hp] at hphase
        intro slot
        exact ⟨(hphase slot).1, (hphase slot).1⟩
    | afterFlush c =>
        rw [hp] at hphase
        refine ⟨hphase.1, ?_⟩
        intro l hlocals slot
        show m.installed slot = m.begun ↔ _
        rw [hphase.1 slot, hn, hl l hlocals]
        simp
  · intro l hlocals
    rw [hn, hl l hlocals]
  · intro hrest
    have hnone : m.rest = none := hi.rest_none (by simp [hr])
    exact absurd hrest (by simp [hnone])

theorem upload (hi : Tracked p s m) (h : UploadMove p s t) :
    Tracked p t (noteUpload s m) := by
  obtain ⟨hcommit, hcommits⟩ := h.commits
  rcases h.locals with ⟨hr, hlocals⟩ | ⟨hr, hlocals⟩
  · have hnote : noteUpload s m = { m with captured := m.installed } := by
      unfold noteUpload
      rw [hr]
    rw [hnote]
    exact hi.capture hr hlocals hcommit hcommits
  · have hnote : noteUpload s m = { m with rest := none } := by
      unfold noteUpload
      split
      · next he => exact absurd he hr
      · rfl
      · next hne =>
        have hnone := hi.rest_none hne
        rw [← hnone]
    rw [hnote]
    refine ⟨hi.installed_le, hi.captured_le, ?_, ?_, by rintro ⟨⟩⟩
    · exact phaseOk hi.phase (by rw [hcommit]) hlocals hcommits none m.reads
    · intro l hl
      rw [hcommits]
      exact hi.number l (hlocals l hl)

/-! ### The commit tail -/

theorem flush {c : Commit} (hi : Tracked p s m) (hs : s.commit = .flush c)
    (ht : t.commit.phase = .afterFlush c) (hu : t.upload.running = s.upload.running)
    (hn : t.commits.length = s.commits.length + if changes p c then 1 else 0) :
    Tracked p t { m with
      installed := fun slot => if c.carries p slot then m.begun else m.installed slot } := by
  have hbefore : ∀ slot, m.installed slot < m.begun ∧ m.captured slot < m.begun := by
    have hphase := hi.phase
    rw [hs] at hphase
    exact hphase
  have hlocals : t.locals = s.locals := by
    unfold Sys.locals
    rw [hu]
  refine ⟨?_, hi.captured_le, ?_, ?_, ?_⟩
  · intro slot
    show (if c.carries p slot then m.begun else m.installed slot) ≤ m.begun
    split
    · exact Nat.le_refl _
    · exact hi.installed_le slot
  · rw [ht]
    refine ⟨?_, ?_⟩
    · intro slot
      have hlt := (hbefore slot).1
      show (if c.carries p slot then m.begun else m.installed slot) = m.begun ↔ _
      by_cases hc : c.carries p slot = true
      · simp [hc]
      · rw [if_neg hc]
        constructor
        · intro heq
          omega
        · intro hc'
          exact absurd hc' hc
    · intro l hl slot
      have hlt := (hbefore slot).2
      have hle := hi.number l (by rw [← hlocals, hl])
      show m.captured slot = m.begun ↔ _
      constructor
      · intro heq
        omega
      · -- A flush that installs makes every earlier capture an old one.
        rintro ⟨hc, hlen⟩
        rw [if_pos (changes_of_carries hc)] at hn
        omega
  · intro l hl
    have hle := hi.number l (by rw [← hlocals, hl])
    omega
  · intro hrest
    rw [hu]
    exact hi.composing hrest

theorem commit {r : ProgramRets} (hi : Tracked p s m)
    (hw : ∀ c, s.commit = .done c → m.inAccess = false) (h : s.commitStep p r = some t) : Tracked p t (noteCommit p s m) := by
  cases commitStep_tail h with
  | same hs hsame =>
      have hnote : noteCommit p s m = m := by
        unfold noteCommit
        split
        · next c hc => exact absurd hc (hs c)
        · rfl
      rw [hnote]
      exact hi.same hsame
  | flush c hs ht hu hn =>
      have hnote : noteCommit p s m =
          { m with installed := fun slot =>
              if c.carries p slot then m.begun else m.installed slot } := by
        unfold noteCommit
        rw [hs]
      rw [hnote]
      exact hi.flush hs ht hu hn
  | finish c hs ht hu hn =>
      have hnote : noteCommit p s m = m := by
        unfold noteCommit
        rw [hs]
      have hlocals : t.locals = s.locals := by
        unfold Sys.locals
        rw [hu]
      rw [hnote]
      refine ⟨hi.installed_le, hi.captured_le, ?_, ?_, ?_⟩
      · rw [ht]
        exact hw c hs
      · intro l hl
        rw [hn]
        exact hi.number l (by rw [← hlocals, hl])
      · intro hrest
        rw [hu]
        exact hi.composing hrest

theorem begin {c : Commit} (hi : Tracked p s m) (h : s.beginCommit c = some t) :
    Tracked p t (noteAccess p (.begin c) s m) := by
  obtain ⟨-, rfl⟩ := beginCommit_eq h
  refine ⟨fun slot => Nat.le_succ_of_le (hi.installed_le slot),
    fun slot => Nat.le_succ_of_le (hi.captured_le slot), ?_, hi.number, hi.composing⟩
  have hphase : (if s.crtcActive && c.needsModeset then CommitPc.disable c else .flush c).phase =
      .beforeFlush := by
    by_cases hm : (s.crtcActive && c.needsModeset) = true
    · rw [if_pos hm]
      rfl
    · rw [if_neg hm]
      rfl
  dsimp only
  rw [hphase]
  intro slot
  exact ⟨Nat.lt_succ_of_le (hi.installed_le slot), Nat.lt_succ_of_le (hi.captured_le slot)⟩

theorem remove (hi : Tracked p s m) (h : s.beginRemove = some t) : Tracked p t m := by
  refine hi.same ?_
  unfold beginRemove at h
  split at h
  · next hc =>
    split at h
    · cases h
    · cases h
      exact ⟨by rw [hc]; rfl, rfl, rfl⟩
  · cases h

/-- A step of the driver that does not have to wait. -/
theorem driver {a : Act} (hi : Tracked p s m) (hw : waits a s m = false)
    (h : step p a s = some t) : Tracked p t (noteAccess p a s m) := by
  cases a with
  | begin c => exact hi.begin h
  | remove => exact hi.remove h
  | commit r =>
      refine hi.commit (fun c hc => ?_) h
      simpa [waits, hc] using hw
  | upload ret => exact hi.upload (uploadStep_move h)
  | complete => exact hi.same (completeStep_move h).samePhase
  | service ok => exact hi.same (serviceStep_move h).samePhase
  | callback => exact hi.same (callbackStep_move h).samePhase
  | timeoutBegin => exact hi.same (timeoutBegin_move h).samePhase
  | timeout => exact hi.same (timeoutStep_move h).samePhase

/-- The reads before a composition and those made do not matter. -/
theorem record (hi : Tracked p s m) {rest : Option (List (Slot × LineCopy))} (reads : List Read)
    (hrest : rest.isSome → ∃ l, s.upload.running = some (.locked l)) :
    Tracked p s { m with rest := rest, reads := reads } :=
  ⟨hi.installed_le, hi.captured_le,
    phaseOk hi.phase rfl (fun _ hl => hl) rfl rest reads, hi.number, hrest⟩

end Tracked

/-- What a step with the mappings can do. -/
inductive AccessMove (p : Params) (s : Sys) (m : Access) : AccessAct → Sys × Access → Prop
  | driver (a : Act) (t : Sys) (hw : Sys.waits a s m = false) (h : step p a s = some t) :
      AccessMove p s m (.driver a) (t, Sys.noteAccess p a s m)
  | endFbAccess (c : Commit) (hc : s.commit.phase = .afterFlush c) (ha : m.inAccess = true) :
      AccessMove p s m .endFbAccess (s, { m with inAccess := false })
  | compose (l : Locals) (hr : s.upload.running = some (.locked l)) (hn : m.rest = none) :
      AccessMove p s m .compose (s, { m with
        rest := some (composeReads s.activeMode l.primary (overlayArg l.overlay l.haveOverlay)) })
  | read (slot : Slot) (copy : LineCopy) (rest : List (Slot × LineCopy))
      (hr : m.rest = some ((slot, copy) :: rest)) :
      AccessMove p s m .read
        (s, { m with rest := some rest, reads := m.reads ++ [m.read slot copy] })

theorem accessStep_move {p : Params} {a : AccessAct} {s : Sys} {m : Access} {w : Sys × Access}
    (h : accessStep p a (s, m) = some w) : AccessMove p s m a w := by
  obtain ⟨t, m'⟩ := w
  cases a with
  | driver a =>
      unfold accessStep at h
      dsimp only at h
      split at h
      · cases h
      · next hw =>
        obtain ⟨ht, rfl⟩ := recorded_eq_some.1 h
        exact .driver a t (by simpa using hw) ht
  | endFbAccess =>
      unfold accessStep at h
      dsimp only at h
      split at h
      · next c hc =>
        split at h
        · next ha =>
          cases h
          exact .endFbAccess c hc ha
        · cases h
      · cases h
  | compose =>
      unfold accessStep at h
      dsimp only at h
      split at h
      · next l hr hn =>
        cases h
        exact .compose l hr hn
      · cases h
  | read =>
      unfold accessStep at h
      dsimp only at h
      split at h
      · next slot copy rest hr =>
        cases h
        exact .read slot copy rest hr
      · cases h

section

variable {p : Params} {s t : Sys} {m m' : Access} {a : AccessAct}

theorem Tracked.step (hi : Tracked p s m) (h : accessStep p a (s, m) = some (t, m')) :
    Tracked p t m' := by
  cases accessStep_move h with
  | driver a t hw ht => exact hi.driver hw ht
  | endFbAccess c hc ha =>
      have hphase := hi.phase
      rw [hc] at hphase
      refine ⟨hi.installed_le, hi.captured_le, ?_, hi.number, hi.composing⟩
      rw [hc]
      exact hphase
  | compose l hr hn => exact hi.record m.reads fun _ => ⟨l, hr⟩
  | read slot copy rest hr =>
      exact hi.record _ fun _ => hi.composing (by rw [hr]; rfl)

/-- The mapping of a read is there just when the read comes in time. -/
theorem Tracked.mapped_eq (hi : Tracked p s m) (hr : m.rest.isSome) (slot : Slot) :
    m.mapped (m.captured slot) = inTime p slot s m := by
  obtain ⟨l, hl⟩ := hi.composing hr
  have hlocals : s.locals = some l := Sys.locals_of_running hl
  have hphase := hi.phase
  rw [Bool.eq_iff_iff]
  unfold Access.mapped inTime
  rw [Bool.and_eq_true, beq_iff_eq, hlocals]
  cases hp : s.commit.phase with
  | outside =>
      rw [hp] at hphase
      have hno : m.inAccess = false := hphase
      simp [hno]
  | beforeFlush =>
      rw [hp] at hphase
      have hlt := (hphase slot).2
      constructor
      · rintro ⟨-, heq⟩
        omega
      · intro h
        cases h
  | afterFlush c =>
      rw [hp] at hphase
      rw [hphase.2 l hlocals slot]
      simp [and_assoc]

/-- Every read so far was made through a mapping that was there. -/
def ReadsValid (w : Sys × Access) : Prop := ∀ r ∈ w.2.reads, r.valid = true

theorem readsValid_step (hi : Tracked p s m) (hv : ReadsValid (s, m))
    (h : accessStep p a (s, m) = some (t, m')) : ReadsValid (t, m') ↔ ReadInTime p a (s, m) := by
  have hsame : m'.reads = m.reads → (ReadsValid (t, m') ↔ True) := by
    intro hreads
    rw [iff_true]
    intro r hr
    exact hv r (by rw [← hreads]; exact hr)
  cases accessStep_move h with
  | driver a t hw ht =>
      refine hsame ?_
      unfold Sys.noteAccess Sys.noteCommit Sys.noteUpload
      split <;> first | rfl | (split <;> rfl)
  | endFbAccess c hc ha => exact hsame rfl
  | compose l hr hn => exact hsame rfl
  | read slot copy rest hr =>
      have hmapped := hi.mapped_eq (by rw [hr]; rfl) slot
      have hin : ReadInTime p .read (s, m) ↔ inTime p slot s m = true := by
        show (∀ slot' ∈ (m.rest.bind List.head?).map Prod.fst, inTime p slot' s m = true) ↔ _
        simp [hr]
      rw [hin, ← hmapped]
      constructor
      · intro hall
        exact hall _ (List.mem_append_right _ (List.mem_singleton_self _))
      · intro hnow r hmem
        rcases List.mem_append.1 hmem with hold | hnew
        · exact hv r hold
        · rw [List.mem_singleton.1 hnew]
          exact hnow

end

/-! ## The driver's runs -/

def AccessAct.act? : AccessAct → Option Act
  | .driver a => some a
  | _ => none

section

variable {p : Params} {s t : Sys} {m : Access}

/-- A run with the mappings is a run of the driver. -/
theorem run_driver {as : List AccessAct} {w v : Sys × Access}
    (h : run (accessStep p) as w = some v) :
    run (step p) (as.filterMap AccessAct.act?) w.1 = some v.1 := by
  induction as generalizing w with
  | nil =>
      cases h
      rfl
  | cons a as ih =>
      obtain ⟨⟨s, m⟩, hstep, hrest⟩ := run_cons_some.1 h
      have hrest := ih hrest
      cases accessStep_move (m := w.2) hstep with
      | driver a _ hw ht => exact run_cons_some.2 ⟨s, ht, hrest⟩
      | _ => exact hrest

theorem run_reads (rest : List (Slot × LineCopy)) (m : Access) :
    ∃ reads, run (accessStep p) (List.replicate rest.length .read)
      (s, { m with rest := some rest }) =
        some (s, { m with rest := some [], reads := reads }) := by
  induction rest generalizing m with
  | nil => exact ⟨m.reads, rfl⟩
  | cons x rest ih =>
      obtain ⟨slot, copy⟩ := x
      obtain ⟨reads, hrun⟩ := ih { m with reads := m.reads ++ [m.read slot copy] }
      exact ⟨reads, run_cons_some.2 ⟨_, rfl, hrun⟩⟩

theorem noteAccess_rest {a : Act} (h : m.rest = none) : (Sys.noteAccess p a s m).rest = none := by
  unfold Sys.noteAccess Sys.noteCommit Sys.noteUpload
  split <;> first | exact h | (split <;> first | exact h | rfl)

theorem accessStep_driver {a : Act} (hw : Sys.waits a s m = false) (h : step p a s = some t) :
    accessStep p (.driver a) (s, m) = some (t, Sys.noteAccess p a s m) := by
  unfold accessStep
  dsimp only
  rw [hw]
  exact recorded_eq_some.2 ⟨h, rfl⟩

/-- No step of the driver is lost: what it waits for can happen first. -/
theorem driver_step_exists {a : Act} (hrest : m.rest = none) (h : step p a s = some t) :
    ∃ as m', as.filterMap AccessAct.act? = [a] ∧
      run (accessStep p) as (s, m) = some (t, m') ∧ m'.rest = none := by
  by_cases hw : Sys.waits a s m = true
  · unfold Sys.waits at hw
    split at hw
    · next ret =>
      split at hw
      · next l hl =>
        -- the composition reads to its end
        obtain ⟨reads, hreads⟩ := run_reads (p := p) (s := s)
          (composeReads s.activeMode l.primary (overlayArg l.overlay l.haveOverlay)) m
        have hlast := accessStep_driver (p := p) (m := { m with rest := some [], reads := reads })
          (by simp [Sys.waits, hl]) h
        have hcompose : accessStep p .compose (s, m) = some (s, { m with
            rest := some
              (composeReads s.activeMode l.primary (overlayArg l.overlay l.haveOverlay)) }) := by
          unfold accessStep
          dsimp only
          rw [hl, hrest]
        refine ⟨.compose :: (List.replicate _ .read ++ [.driver (.upload ret)]), _, ?_,
          run_cons_some.2 ⟨_, hcompose, run_append_some.2
            ⟨_, hreads, run_cons_some.2 ⟨_, hlast, rfl⟩⟩⟩, ?_⟩
        · rw [List.filterMap_cons_none rfl, List.filterMap_append, List.filterMap_replicate]
          rfl
        · show (Sys.noteUpload s _).rest = none
          unfold Sys.noteUpload
          rw [hl]
      · cases hw
    · next r =>
      split at hw
      · next c hc =>
        -- the access of the commit ends
        have hend : accessStep p .endFbAccess (s, m) = some (s, { m with inAccess := false }) := by
          unfold accessStep
          dsimp only
          rw [hc, hw]
          rfl
        have hlast := accessStep_driver (p := p) (m := { m with inAccess := false })
          (by simp [Sys.waits, hc]) h
        exact ⟨[.endFbAccess, .driver (.commit r)], _, rfl,
          run_cons_some.2 ⟨_, hend, run_cons_some.2 ⟨_, hlast, rfl⟩⟩, noteAccess_rest hrest⟩
      · cases hw
    · cases hw
  · have hw : Sys.waits a s m = false := by simpa using hw
    exact ⟨[.driver a], _, rfl, run_cons_some.2 ⟨_, accessStep_driver hw h, rfl⟩,
      noteAccess_rest hrest⟩

/-- Every run of the driver is one with the mappings. -/
theorem run_driver_exists {as : List Act} (hrest : m.rest = none)
    (h : run (step p) as s = some t) :
    ∃ bs m', bs.filterMap AccessAct.act? = as ∧ run (accessStep p) bs (s, m) = some (t, m') := by
  induction as generalizing s m with
  | nil =>
      cases h
      exact ⟨[], m, rfl, rfl⟩
  | cons a as ih =>
      obtain ⟨u, hu, h⟩ := run_cons_some.1 h
      obtain ⟨bs, m₁, hbs, hrun, hrest⟩ := driver_step_exists hrest hu
      obtain ⟨cs, m₂, hcs, hrun'⟩ := ih hrest h
      refine ⟨bs ++ cs, m₂, ?_, run_append_some.2 ⟨_, hrun, hrun'⟩⟩
      rw [List.filterMap_append, hbs, hcs]
      rfl

end

/-- **When every read of a run goes through a mapping that is there**: just when each comes
in time. -/
theorem reads_valid_iff {p : Params} {as : List AccessAct} {w : Sys × Access}
    (h : run (accessStep p) as (init, .init) = some w) :
    (∀ bs cs v, as = bs ++ cs → run (accessStep p) bs (init, .init) = some v → ReadsValid v) ↔
      Meets (accessStep p) (ReadInTime p) as (init, .init) := by
  refine meets_iff (I := fun w => Tracked p w.1 w.2) (J := ReadsValid) ?_ ?_ .init ?_ h
  · rintro a ⟨s, m⟩ ⟨t, m'⟩ hi ht
    exact hi.step ht
  · rintro a ⟨s, m⟩ ⟨t, m'⟩ hi hv ht
    exact readsValid_step hi hv ht
  · rintro r ⟨⟩

/-! ## In time and late -/

def driverSteps (as : List Act) : List AccessAct := as.map .driver

/-- The modeset of an idle device. -/
def shownFrame : List AccessAct :=
  driverSteps (.begin (vgaFrame true) :: commitSteps 11) ++
    .endFbAccess :: driverSteps (commitSteps 1)

/-- A flip whose worker reads before the commit ends. -/
def promptFlip : List AccessAct :=
  shownFrame ++ driverSteps (.begin (vgaFrame false) :: commitSteps 2 ++ uploadSteps 3) ++
    [.compose, .read, .read]

theorem reads_valid_iff_prompt :
    ∃ w, run (accessStep allOn) promptFlip (init, .init) = some w ∧ w.2.reads.length = 2 ∧
      ReadsValid w := by
  have hrun : (run (accessStep allOn) promptFlip (init, .init)).any
      (fun w => decide (w.2.reads.length = 2)) = true := by decide +kernel
  obtain ⟨w, hw, hlen⟩ := run_any hrun
  have hmeets : Meets (accessStep allOn) (ReadInTime allOn) promptFlip (init, .init) := by
    decide +kernel
  exact ⟨w, hw, of_decide_eq_true hlen,
    (reads_valid_iff hw).2 hmeets promptFlip [] w (List.append_nil _).symm hw⟩

/-- The same flip, whose worker starts when the commit has ended. -/
def lateFlip : List AccessAct :=
  shownFrame ++ driverSteps (.begin (vgaFrame false) :: commitSteps 2) ++
    .endFbAccess :: driverSteps (commitSteps 1 ++ uploadSteps 3) ++ [.compose, .read]

theorem late_worker_reads_unmapped :
    ∃ w, run (accessStep allOn) lateFlip (init, .init) = some w ∧ ¬ ReadsValid w := by
  have hrun : (run (accessStep allOn) lateFlip (init, .init)).any
      (fun w => decide (∃ r ∈ w.2.reads, r.valid = false)) = true := by decide +kernel
  obtain ⟨w, hw, htest⟩ := run_any hrun
  obtain ⟨r, hr, hinvalid⟩ := of_decide_eq_true htest
  refine ⟨w, hw, fun hall => ?_⟩
  rw [hall r hr] at hinvalid
  cases hinvalid

end FpgaDrm
