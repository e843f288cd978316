import Mathlib.Algebra.Ring.Nat
import SimpleDisplay.Lib.History

/-!
# `frame_counter`

The module counts the line ends of an AXI stream; every `vertical_count` of them make a
frame.  A window of `clk_freq` cycles measures the frame rate, and the cycle that ends it
neither looks at the stream nor keeps `count_vert`.

* `Account` says where every line end since reset has gone: it is in a counted frame, in
  the frame in progress, or `missed`.  Each edge keeps it (`Account.posedge`).
* A run that misses nothing has counted every frame, and one that has missed anything is
  a few line ends away from a wrong count (`frames_counted`).
-/

namespace FrameCounter

open StateMachine

/-- The inputs that are read at an edge. -/
structure Input where
  resetn : Bool
  vAxisTvalid : Bool
  vAxisTready : Bool
  vAxisTlast : Bool
deriving DecidableEq

def Input.lineEnd (i : Input) : Bool := i.vAxisTvalid && i.vAxisTlast && i.vAxisTready

structure Regs where
  countFrame : BitVec 32
  countFrameOld : BitVec 32
  countFrameTotal : BitVec 32
  countVert : BitVec 32
  counter : BitVec 32
deriving DecidableEq

section

variable (clkFreq verticalCount : Nat)

/-- The registers after `posedge clk`; both parameters are at least 1. -/
def posedge (i : Input) (r : Regs) : Regs :=
  if !i.resetn then ⟨0, 0, 0, 0, 0⟩
  else if r.counter.toNat = clkFreq - 1 then
    { r with countFrame := 0, counter := 0, countVert := 0, countFrameOld := r.countFrame }
  else
    let next := { r with counter := r.counter + 1 }
    if i.lineEnd then
      if r.countVert.toNat = verticalCount - 1 then
        { next with
          countVert := 0
          countFrameTotal := r.countFrameTotal + 1
          countFrame := r.countFrame + 1 }
      else { next with countVert := r.countVert + 1 }
    else next

def step (i : Input) (r : Regs) : Option Regs := some (posedge clkFreq verticalCount i r)

/-- The line ends since reset. -/
def lines (i : Input) (_ : Regs) (n : Nat) : Nat :=
  if !i.resetn then 0 else if i.lineEnd then n + 1 else n

/-- The counter with the number of line ends beside it. -/
def observed : Input → Regs × Nat → Option (Regs × Nat) :=
  recorded (step clkFreq verticalCount) lines

/-- `count_frame_total` is the number of complete frames. -/
def Counted (w : Regs × Nat) : Prop :=
  w.1.countFrameTotal.toNat = w.2 / verticalCount % 2 ^ 32

/-- At the end of a window no line end arrives and no frame is in progress; elsewhere
`count_vert` does not wrap around. -/
def Undisturbed (i : Input) (w : Regs × Nat) : Prop :=
  i.resetn = true →
    if w.1.counter.toNat = clkFreq - 1 then i.lineEnd = false ∧ w.1.countVert.toNat = 0
    else i.lineEnd = true → w.1.countVert.toNat ≠ verticalCount - 1 →
      w.1.countVert.toNat + 1 < 2 ^ 32

instance (i : Input) (w : Regs × Nat) : Decidable (Undisturbed clkFreq verticalCount i w) :=
  inferInstanceAs (Decidable (i.resetn = true →
    if w.1.counter.toNat = clkFreq - 1 then i.lineEnd = false ∧ w.1.countVert.toNat = 0
    else i.lineEnd = true → w.1.countVert.toNat ≠ verticalCount - 1 →
      w.1.countVert.toNat + 1 < 2 ^ 32))

instance (w : Regs × Nat) : Decidable (Counted verticalCount w) :=
  inferInstanceAs (Decidable (_ = _))

/-- The line ends that are lost at an edge. -/
def missed (i : Input) (r : Regs) : Nat :=
  if r.counter.toNat = clkFreq - 1 then r.countVert.toNat + i.lineEnd.toNat
  else if i.lineEnd = true ∧ r.countVert.toNat ≠ verticalCount - 1 ∧
    r.countVert.toNat + 1 = 2 ^ 32 then 2 ^ 32
  else 0

end

/-- `frames` frames have been counted and `lost` line ends have not. -/
structure Account (verticalCount : Nat) (w : Regs × Nat) (frames lost : Nat) : Prop where
  total : w.1.countFrameTotal.toNat = frames % 2 ^ 32
  lines : w.2 = frames * verticalCount + w.1.countVert.toNat + lost
  vert : w.1.countVert.toNat < verticalCount

section

variable {clkFreq verticalCount : Nat} {i : Input} {r : Regs} {n frames lost : Nat}

theorem posedge_reset (h : i.resetn = false) (r : Regs) :
    posedge clkFreq verticalCount i r = ⟨0, 0, 0, 0, 0⟩ := by
  unfold posedge
  rw [h]
  rfl

theorem toNat_add_one (x : BitVec 32) :
    (x + 1).toNat = if x.toNat + 1 = 2 ^ 32 then 0 else x.toNat + 1 := by
  have hlt := x.isLt
  rw [BitVec.toNat_add]
  split
  next h => rw [show (1 : BitVec 32).toNat = 1 from rfl, h, Nat.mod_self]
  next h =>
    rw [show (1 : BitVec 32).toNat = 1 from rfl]
    exact Nat.mod_eq_of_lt (by omega)

theorem Account.start (hvc : 1 ≤ verticalCount) :
    Account verticalCount (⟨0, 0, 0, 0, 0⟩, 0) 0 0 :=
  ⟨rfl, by simp, hvc⟩

/-- An edge takes every line end into account. -/
theorem Account.posedge (clkFreq : Nat) (h : Account verticalCount (r, n) frames lost)
    (hreset : i.resetn = true) :
    ∃ frames', (frames' = frames ∨
        frames' = frames + 1 ∧ r.countVert.toNat = verticalCount - 1) ∧
      Account verticalCount (posedge clkFreq verticalCount i r, FrameCounter.lines i r n) frames'
        (lost + missed clkFreq verticalCount i r) := by
  obtain ⟨htotal, hlines, hvert⟩ := h
  dsimp only at htotal hlines hvert
  have hlt := r.countVert.isLt
  unfold FrameCounter.posedge FrameCounter.lines missed
  rw [hreset, Bool.not_true, if_neg Bool.false_ne_true, if_neg Bool.false_ne_true]
  by_cases hwindow : r.counter.toNat = clkFreq - 1
  · rw [if_pos hwindow, if_pos hwindow]
    refine ⟨frames, .inl rfl, htotal, ?_, Nat.zero_lt_of_lt hvert⟩
    cases i.lineEnd <;> simp <;> omega
  rw [if_neg hwindow, if_neg hwindow]
  by_cases hend : i.lineEnd = true
  · rw [if_pos hend, if_pos hend]
    by_cases hlast : r.countVert.toNat = verticalCount - 1
    · rw [if_pos hlast, if_neg (by tauto)]
      refine ⟨frames + 1, .inr ⟨rfl, hlast⟩, ?_, ?_, Nat.zero_lt_of_lt hvert⟩
      · show (r.countFrameTotal + 1).toNat = (frames + 1) % 2 ^ 32
        rw [BitVec.toNat_add, htotal]
        exact Nat.mod_add_mod frames (2 ^ 32) 1
      · show n + 1 = (frames + 1) * verticalCount + 0 + (lost + 0)
        rw [Nat.add_one_mul]
        omega
    · rw [if_neg hlast]
      refine ⟨frames, .inl rfl, htotal, ?_, ?_⟩
      · show n + 1 = frames * verticalCount + (r.countVert + 1).toNat + _
        rw [toNat_add_one]
        by_cases hwrap : r.countVert.toNat + 1 = 2 ^ 32
        · rw [if_pos hwrap, if_pos ⟨hend, hlast, hwrap⟩]
          omega
        · rw [if_neg hwrap, if_neg (by tauto)]
          omega
      · show (r.countVert + 1).toNat < verticalCount
        rw [toNat_add_one]
        split <;> omega
  · rw [if_neg hend, if_neg hend, if_neg (by tauto)]
    exact ⟨frames, .inl rfl, htotal, hlines, hvert⟩

theorem undisturbed_iff : Undisturbed clkFreq verticalCount i (r, n) ↔
    (i.resetn = true → missed clkFreq verticalCount i r = 0) := by
  have hlt := r.countVert.isLt
  apply imp_congr_right
  intro _
  unfold missed
  dsimp only
  by_cases hwindow : r.counter.toNat = clkFreq - 1
  · rw [if_pos hwindow, if_pos hwindow]
    cases i.lineEnd <;> simp
  · rw [if_neg hwindow, if_neg hwindow]
    constructor
    · intro h
      rw [if_neg]
      rintro ⟨hend, hlast, hwrap⟩
      have hfits := h hend hlast
      omega
    · intro h hend hlast
      by_contra hwrap
      rw [if_pos ⟨hend, hlast, by omega⟩] at h
      cases h

/-- What an edge loses is less than a frame and the line end that arrives. -/
theorem Account.missed_le (h : Account verticalCount (r, n) frames lost)
    (hmissed : missed clkFreq verticalCount i r ≠ 0) (hreset : i.resetn = true) :
    missed clkFreq verticalCount i r ≤ verticalCount ∧
      (FrameCounter.posedge clkFreq verticalCount i r).countVert.toNat = 0 := by
  have hvert := h.vert
  dsimp only at hvert
  unfold FrameCounter.posedge
  unfold missed at hmissed ⊢
  rw [hreset, Bool.not_true, if_neg Bool.false_ne_true]
  by_cases hwindow : r.counter.toNat = clkFreq - 1
  · rw [if_pos hwindow, if_pos hwindow]
    refine ⟨?_, rfl⟩
    have hend := Bool.toNat_le i.lineEnd
    omega
  · rw [if_neg hwindow] at hmissed ⊢
    by_cases hwrap : i.lineEnd = true ∧ r.countVert.toNat ≠ verticalCount - 1 ∧
        r.countVert.toNat + 1 = 2 ^ 32
    · obtain ⟨hend, hlast, hwrap'⟩ := hwrap
      rw [if_pos ⟨hend, hlast, hwrap'⟩, if_neg hwindow, if_pos hend, if_neg hlast]
      refine ⟨by omega, ?_⟩
      show (r.countVert + 1).toNat = 0
      rw [toNat_add_one, if_pos hwrap']
    · rw [if_neg hwrap] at hmissed
      exact absurd rfl hmissed

theorem Account.counted {w : Regs × Nat} (h : Account verticalCount w frames 0) :
    Counted verticalCount w := by
  have hvert := h.vert
  unfold Counted
  rw [h.total, h.lines, Nat.add_zero, Nat.mul_comm frames, Nat.mul_add_div (by omega),
    Nat.div_eq_of_lt hvert, Nat.add_zero]

/-- A whole frame is missing from the count. -/
theorem Account.not_counted {w : Regs × Nat} (h : Account verticalCount w frames lost)
    (hmissing : w.1.countVert.toNat + lost = verticalCount) : ¬ Counted verticalCount w := by
  have hvert := h.vert
  have hlines : w.2 = verticalCount * (frames + 1) := by
    rw [h.lines, Nat.add_assoc, hmissing, Nat.mul_comm, Nat.mul_add_one]
  unfold Counted
  rw [h.total, hlines, Nat.mul_div_cancel_left _ (by omega)]
  omega

/-! ## Runs -/

theorem observed_some {w u : Regs × Nat} : observed clkFreq verticalCount i w = some u ↔
    u = (posedge clkFreq verticalCount i w.1, FrameCounter.lines i w.1 w.2) := by
  rw [eq_comm]
  exact Option.some_inj

theorem Account.of_undisturbed {w u : Regs × Nat} (hvc : 1 ≤ verticalCount)
    (h : Account verticalCount w frames 0) (hok : Undisturbed clkFreq verticalCount i w)
    (hu : observed clkFreq verticalCount i w = some u) :
    ∃ frames', Account verticalCount u frames' 0 := by
  rw [observed_some] at hu
  by_cases hreset : i.resetn = true
  · obtain ⟨frames', -, haccount⟩ := h.posedge clkFreq hreset
    rw [undisturbed_iff.mp hok hreset] at haccount
    exact ⟨frames', hu ▸ haccount⟩
  · rw [Bool.not_eq_true] at hreset
    refine ⟨0, ?_⟩
    rw [hu, posedge_reset hreset]
    unfold FrameCounter.lines
    rw [hreset, Bool.not_false, if_pos rfl]
    exact .start hvc

/-- The inputs while a line ends, while nothing arrives, and in reset. -/
def allHigh : Input := ⟨true, true, true, true⟩
def idle : Input := ⟨true, false, false, false⟩
def resetting : Input := ⟨false, false, false, false⟩

/-- Line ends that are missing make the count wrong when the frame in progress should end. -/
theorem Account.miscounts (k : Nat) : ∀ {w frames lost}, Account verticalCount w frames lost →
    1 ≤ lost → w.1.countVert.toNat + lost + k = verticalCount →
      ∃ n ≤ k, ∃ u, run (observed clkFreq verticalCount) (List.replicate n allHigh) w = some u ∧
        ¬ Counted verticalCount u := by
  induction k with
  | zero =>
    intro w frames lost h _ hmissing
    exact ⟨0, Nat.le_refl 0, w, rfl, h.not_counted hmissing⟩
  | succ k ih =>
    rintro ⟨r, n⟩ frames lost h hlost hmissing
    dsimp only at hmissing
    obtain ⟨frames', hframes, hnext⟩ := h.posedge clkFreq (i := allHigh) rfl
    have hsame : frames' = frames := by
      rcases hframes with hsame | ⟨-, hlast⟩
      · exact hsame
      · omega
    subst hsame
    -- one more line end, and no frame counted
    have hlines := hnext.lines
    have hbefore := h.lines
    have hline : FrameCounter.lines allHigh r n = n + 1 := rfl
    dsimp only at hlines hbefore
    obtain ⟨m, hm, u, hu, hwrong⟩ := ih hnext (by omega) (by dsimp only; omega)
    refine ⟨m + 1, by omega, u, ?_, hwrong⟩
    rw [List.replicate_succ, run_cons_some]
    exact ⟨_, rfl, hu⟩

/-! ## Top theorem -/

/-- After a reset, a run whose edges are all undisturbed has the right count at every
edge; and the first edge that is not is followed by a wrong count within the line ends of
one frame. -/
theorem frames_counted (hvc : 1 ≤ verticalCount) {i₀ : Input} (hreset : i₀.resetn = false)
    (r₀ : Regs) :
    let start : Regs × Nat := (posedge clkFreq verticalCount i₀ r₀, 0)
    ∀ as w, run (observed clkFreq verticalCount) as start = some w →
      Meets (observed clkFreq verticalCount) (Undisturbed clkFreq verticalCount) as start →
      (∀ bs cs u, as = bs ++ cs → run (observed clkFreq verticalCount) bs start = some u →
        Counted verticalCount u) ∧
      ∀ i, ¬ Undisturbed clkFreq verticalCount i w → ∃ n < verticalCount, ∃ u,
        run (observed clkFreq verticalCount) (i :: List.replicate n allHigh) w = some u ∧
          ¬ Counted verticalCount u := by
  intro start as w hrun hmeets
  have hstart : ∃ frames, Account verticalCount start frames 0 := by
    refine ⟨0, ?_⟩
    show Account verticalCount (posedge clkFreq verticalCount i₀ r₀, 0) 0 0
    rw [posedge_reset hreset]
    exact .start hvc
  have hkeeps : ∀ bs u, Meets (observed clkFreq verticalCount)
      (Undisturbed clkFreq verticalCount) bs start →
      run (observed clkFreq verticalCount) bs start = some u →
        ∃ frames, Account verticalCount u frames 0 := fun bs u hbs hu =>
    run_invariant_of_meets (I := fun w => ∃ frames, Account verticalCount w frames 0)
      (fun _ _ _ ⟨_, h⟩ hok hstep => h.of_undisturbed hvc hok hstep) hstart hbs hu
  constructor
  · intro bs cs u hsplit hu
    rw [hsplit] at hmeets
    obtain ⟨frames, h⟩ := hkeeps bs u ((Meets.append hu).mp hmeets).1 hu
    exact h.counted
  · intro i hdisturbed
    obtain ⟨frames, h⟩ := hkeeps as w hmeets hrun
    obtain ⟨r, n⟩ := w
    rw [undisturbed_iff, Classical.not_imp] at hdisturbed
    obtain ⟨hhigh, hmissed⟩ := hdisturbed
    obtain ⟨frames', -, hnext⟩ := h.posedge clkFreq hhigh
    obtain ⟨hle, hvert⟩ := h.missed_le hmissed hhigh
    rw [Nat.zero_add] at hnext
    obtain ⟨k, hk, u, hu, hwrong⟩ :=
      hnext.miscounts (verticalCount - missed clkFreq verticalCount i r) (by omega)
        (by dsimp only; omega)
    exact ⟨k, by omega, u, run_cons_some.mpr ⟨_, rfl, hu⟩, hwrong⟩

/-- Two frames, with the end of a window between them. -/
theorem frames_counted_twice : ∃ w,
    run (observed 4 2) [allHigh, allHigh, idle, idle, allHigh, allHigh]
      (posedge 4 2 resetting ⟨7, 7, 7, 7, 7⟩, 0) = some w ∧ w.2 = 4 ∧ Counted 2 w := by
  have hrun : (run (observed 4 2) [allHigh, allHigh, idle, idle, allHigh, allHigh]
      (posedge 4 2 resetting ⟨7, 7, 7, 7, 7⟩, 0)).any (fun w => decide (w.2 = 4)) = true := by
    decide
  obtain ⟨w, hw, hlines⟩ := run_any hrun
  obtain ⟨hcounted, -⟩ :=
    @frames_counted 4 2 (by decide) resetting rfl ⟨7, 7, 7, 7, 7⟩ _ w hw (by decide)
  exact ⟨w, hw, of_decide_eq_true hlines, hcounted _ [] w (List.append_nil _).symm hw⟩

/-- A line end on the last cycle of a window, and lines of a frame that a window cuts. -/
theorem window_loses_lines :
    (¬ ∀ w, run (observed 3 1) [idle, idle, allHigh] (posedge 3 1 resetting ⟨0, 0, 0, 0, 0⟩, 0) =
      some w → Counted 1 w) ∧
    ¬ ∀ w, run (observed 3 2) [allHigh, idle, idle, allHigh]
      (posedge 3 2 resetting ⟨0, 0, 0, 0, 0⟩, 0) = some w → Counted 2 w := by
  have hdropped : (run (observed 3 1) [idle, idle, allHigh]
      (posedge 3 1 resetting ⟨0, 0, 0, 0, 0⟩, 0)).any (fun w => decide (¬ Counted 1 w)) = true := by
    decide
  have hforgotten : (run (observed 3 2) [allHigh, idle, idle, allHigh]
      (posedge 3 2 resetting ⟨0, 0, 0, 0, 0⟩, 0)).any (fun w => decide (¬ Counted 2 w)) = true := by
    decide
  constructor
  · obtain ⟨w, hw, hwrong⟩ := run_any hdropped
    exact fun h => of_decide_eq_true hwrong (h w hw)
  · obtain ⟨w, hw, hwrong⟩ := run_any hforgotten
    exact fun h => of_decide_eq_true hwrong (h w hw)

end

end FrameCounter
