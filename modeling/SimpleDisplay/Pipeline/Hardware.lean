import SimpleDisplay.Lib.Registers
import SimpleDisplay.Gop.Program

/-!
# The registers of the pipeline

The registers as the bridge addresses them, and what the hardware does to them by itself.
Configuration registers keep what is written; the load bit of the clock wizard and the run
and reset bits of the VDMA channels clear by themselves; any other register reads as the
hardware likes.  A reset of a VDMA channel may change every register of the VDMA.
-/

namespace SimpleDisplay

open Registers

def bypassAxiTranslation : Nat := 0x3C000000

/-- The AXI address that the bridge forms from an offset in BAR2. -/
def axi (offset : Nat) : Nat := bypassAxiTranslation ||| offset

def clockRegisters : List Nat :=
  [clockConfig0, clockConfig1, clockConfig2, clockConfig3, clockConfig4].map (axi <| clockOffset + ·)

def clockLoadRegister : Nat := axi (clockOffset + clockConfig23)

/-- The timing generator's registers. -/
def vtcGeneratorRegisters : List Nat :=
  [vtcActiveSize, vtcFrameEncoding, vtcPolarity, vtcHorizontalSize, vtcVerticalSize,
    vtcHorizontalSync, vtcVerticalBlankOffset, vtcVerticalSync, vtcVerticalSyncOffset,
    vtcVerticalBlankOffsetF1, vtcVerticalSyncF1, vtcVerticalSyncOffsetF1,
    vtcActiveSizeF1].map (axi <| vtcOffset + ·)

def vtcControlRegister : Nat := axi (vtcOffset + vtcControl)

def mm2sFrameStore : Nat := axi (vdmaOffset + vdmaMm2sChannel + vdmaFrameStore)
def mm2sVerticalSize : Nat := axi (vdmaOffset + vdmaMm2sAddress + vdmaVerticalSize)
def mm2sHorizontalSize : Nat := axi (vdmaOffset + vdmaMm2sAddress + vdmaHorizontalSize)
def mm2sStride : Nat := axi (vdmaOffset + vdmaMm2sAddress + vdmaStride)
def mm2sStartAddress : Nat := axi (vdmaOffset + vdmaMm2sAddress + vdmaStartAddress)

def mm2sRegisters : List Nat :=
  [mm2sFrameStore, mm2sVerticalSize, mm2sHorizontalSize, mm2sStride, mm2sStartAddress]

def vdmaControlRegisters : List Nat :=
  [axi (vdmaOffset + vdmaMm2sChannel + vdmaControl), axi (vdmaOffset + vdmaS2mmChannel + vdmaControl)]

inductive Behaviour
  | stored
  | selfClearing (mask : Nat)
  | volatile

def Behaviour.drift : Behaviour → Nat → Nat → Prop
  | .stored, u, v => v = u
  | .selfClearing mask, u, v => ∀ i,
    v.testBit i = u.testBit i ∨ mask.testBit i = true ∧ v.testBit i = false
  | .volatile, _, _ => True

def behaviour (k : Nat) : Behaviour :=
  if k ∈ clockRegisters ++ (vtcControlRegister :: vtcGeneratorRegisters) ++ mm2sRegisters then .stored
  else if k = clockLoadRegister then .selfClearing clockConfig23Load
  else if k ∈ vdmaControlRegisters then .selfClearing (vdmaControlRun ||| vdmaControlReset)
  else .volatile

theorem Behaviour.drift_trans (b : Behaviour) {u v w : Nat} (h : b.drift u v) (h' : b.drift v w) :
    b.drift u w := by
  rcases b with _ | mask | _
  · exact h'.trans h
  · intro i
    rcases h' i with hi | hi
    · rw [hi]
      exact h i
    · exact .inr hi
  · trivial

/-- Writing the reset bit of a VDMA channel. -/
def resetsVdma (a v k : Nat) : Bool :=
  a ∈ vdmaControlRegisters && v.testBit 2 &&
    (axi vdmaOffset ≤ k && k < axi vdmaOffset + registerWindowSize)

def displayHardware : Hardware where
  drift k := (behaviour k).drift
  drift_trans := (behaviour _).drift_trans
  disturbs := resetsVdma

/-! ## Lemmas -/

theorem calm_of_not_mem {a v : Nat} (h : a ∉ vdmaControlRegisters) : displayHardware.Calm a v := by
  intro k
  show resetsVdma a v k = false
  unfold resetsVdma
  simp [h]

theorem calm_of_testBit {a v : Nat} (h : v.testBit 2 = false) : displayHardware.Calm a v := by
  intro k
  show resetsVdma a v k = false
  unfold resetsVdma
  simp [h]

/-- Nothing is known of the block at `base`. -/
def Elsewhere (base : Nat) (known : List (Nat × Nat)) : Prop :=
  ∀ p ∈ known, ¬ (axi base ≤ p.1 ∧ p.1 < axi base + registerWindowSize)

theorem Elsewhere.of_keys {base : Nat} {known : List (Nat × Nat)} (keys : List Nat)
    (hkeys : known.map Prod.fst = keys)
    (h : ∀ k ∈ keys, ¬ (axi base ≤ k ∧ k < axi base + registerWindowSize)) :
    Elsewhere base known := by
  intro p hp
  rw [← hkeys] at h
  exact h p.1 (List.mem_map_of_mem hp)

theorem Elsewhere.lookup {base : Nat} {known : List (Nat × Nat)} (h : Elsewhere base known)
    {a : Nat} (ha : axi base ≤ a ∧ a < axi base + registerWindowSize) :
    known.lookup a = none := by
  rw [List.lookup_eq_none_iff]
  intro p hp
  rw [bne_iff_ne]
  rintro rfl
  exact h p hp ha

/-- Nothing is lost by a reset of the VDMA when nothing is known of it. -/
theorem Elsewhere.kept {known : List (Nat × Nat)} (h : Elsewhere vdmaOffset known) (a v : Nat) :
    displayHardware.kept a v known = known := by
  unfold Hardware.kept
  rw [List.filter_eq_self]
  intro p hp
  have hout := h p hp
  have hcalm : resetsVdma a v p.1 = false := by
    unfold resetsVdma
    rw [← Bool.decide_and, decide_eq_false hout, Bool.and_false]
  show (!resetsVdma a v p.1) = true
  rw [hcalm]
  rfl

/-- A stored register is what is known of it. -/
theorem stored_eq {known : List (Nat × Nat)} {file : Nat → Nat} {k v : Nat}
    (hk : k ∈ clockRegisters ++ (vtcControlRegister :: vtcGeneratorRegisters) ++ mm2sRegisters)
    (h : displayHardware.Knows known file) (hv : known.lookup k = some v) : file k = v := by
  have hdrift : (behaviour k).drift v (file k) := h k v hv
  unfold behaviour at hdrift
  rw [if_pos hk] at hdrift
  exact hdrift

/-- The reset bit of a VDMA channel does not come up by itself. -/
theorem control_testBit {a u v : Nat} (ha : a ∈ vdmaControlRegisters)
    (h : displayHardware.drift a u v) (hu : u.testBit 2 = false) : v.testBit 2 = false := by
  have hbehaviour : ∀ a ∈ vdmaControlRegisters,
      behaviour a = .selfClearing (vdmaControlRun ||| vdmaControlReset) := by
    intro a ha
    unfold behaviour
    rw [if_neg, if_neg, if_pos ha]
    · rintro rfl
      exact absurd ha (by decide)
    · revert a
      decide
  have hdrift : (behaviour a).drift u v := h
  rw [hbehaviour a ha] at hdrift
  rcases hdrift 2 with hbit | ⟨-, hbit⟩
  · rw [hbit, hu]
  · exact hbit

/-- Only the load bit of its register clears by itself. -/
theorem clockLoad_high {u v : Nat} (hdrift : displayHardware.drift clockLoadRegister u v)
    (i : Nat) : v.testBit (i + 1) = u.testBit (i + 1) := by
  have hi : v.testBit (i + 1) = u.testBit (i + 1) ∨
      clockConfig23Load.testBit (i + 1) = true ∧ v.testBit (i + 1) = false := hdrift (i + 1)
  have hmask : clockConfig23Load.testBit (i + 1) = false := by
    rw [Nat.testBit_succ]
    exact Nat.zero_testBit i
  rw [hmask] at hi
  rcases hi with hi | ⟨hi, -⟩
  · exact hi
  · cases hi

/-- After the load bit has cleared the other bit of the register is left. -/
theorem clockLoad_eq {v : Nat} (hclear : v &&& clockConfig23Load = 0)
    (hdrift : displayHardware.drift clockLoadRegister 3 v) : v = 2 := by
  have hbit : v.testBit 0 = false := by
    have h0 : (v &&& clockConfig23Load).testBit 0 = false := by rw [hclear]; rfl
    rw [Nat.testBit_and, show clockConfig23Load.testBit 0 = true from rfl, Bool.and_true] at h0
    exact h0
  apply Nat.eq_of_testBit_eq
  intro i
  cases i with
  | zero =>
    rw [hbit]
    rfl
  | succ i => rw [clockLoad_high hdrift i, Nat.testBit_succ, Nat.testBit_succ]

theorem clockLoad_settled {v : Nat} (hdrift : displayHardware.drift clockLoadRegister 2 v) :
    v = 2 := by
  have hlow : Nat.testBit 2 0 = false := rfl
  apply Nat.eq_of_testBit_eq
  intro i
  cases i with
  | zero =>
    have h0 : v.testBit 0 = Nat.testBit 2 0 ∨
        clockConfig23Load.testBit 0 = true ∧ v.testBit 0 = false := hdrift 0
    rcases h0 with h0 | ⟨-, h0⟩
    · exact h0
    · rw [h0, hlow]
  | succ i => exact clockLoad_high hdrift i

end SimpleDisplay
