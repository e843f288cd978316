import SimpleDisplay.Drm.StaticPipeline
import SimpleDisplay.Lib.Keep

/-!
# What a block's programming leaves alone

Each block is programmed through its own window of registers: what the accesses to that
window keep, programming the block keeps, whether it succeeds or fails.  No error is zero.
-/

namespace FpgaDrm

open Word

/-- `I` is kept by reads, and by writes to the window at `base`. -/
structure KeepsWindow {σ : Type} (io : Mmio σ) (fpga : MmioBar) (I : σ → Prop) (base : Nat) : Prop where
  read : ∀ addr, Keeps I (axiRead io fpga addr)
  write : ∀ off < hwRegWindow, ∀ val, Keeps I (axiWrite io fpga (base + off) val)

/-- `x` keeps `I`, and its errors are not zero. -/
abbrev Safe {σ α : Type} (I : σ → Prop) (x : Driver σ α) : Prop := Spares I (· ≠ 0) x

theorem mmioCheck_error {fpga : MmioBar} {addr size : Nat} {ret : Int}
    (h : mmioCheck fpga addr size = .error ret) : ret ≠ 0 := by
  unfold mmioCheck at h
  split at h
  · cases h
    decide
  split at h
  · cases h
    decide
  split at h
  next ret' hret =>
    obtain rfl := Except.error.inj h
    exact axiToBarOffset_error hret
  · split at h
    · cases h
      decide
    · cases h

section

variable {σ : Type} {io : Mmio σ} {fpga : MmioBar} {I : σ → Prop}

theorem Safe.of_keeps {α : Type} {x : Driver σ α} (h : Keeps I x)
    (herr : ∀ s e, (x s).1 = .error e → e ≠ 0) : Safe I x := by
  intro s hs
  have ht := h s hs
  have herr := herr s
  refine ⟨fun a t hrun => ?_, fun e t hrun => ?_⟩
  · rw [hrun] at ht
    exact ht
  · rw [hrun] at ht herr
    exact ⟨herr e rfl, ht⟩

theorem axiRead_error (addr : Nat) (s : σ) (e : Int) (h : (axiRead io fpga addr s).1 = .error e) :
    e ≠ 0 := by
  unfold axiRead at h
  split at h
  next ret hret =>
    obtain rfl := Except.error.inj h
    exact mmioCheck_error hret
  · cases h

theorem axiWrite_error (addr val : Nat) (s : σ) (e : Int)
    (h : (axiWrite io fpga addr val s).1 = .error e) : e ≠ 0 := by
  unfold axiWrite at h
  split at h
  next ret hret =>
    obtain rfl := Except.error.inj h
    exact mmioCheck_error hret
  · cases h

/-- Where nothing is asked of the state. -/
theorem KeepsWindow.trivial (base : Nat) : KeepsWindow io fpga (fun _ => True) base :=
  ⟨fun _ _ _ => True.intro, fun _ _ _ _ _ => True.intro⟩

namespace KeepsWindow

variable {base : Nat} (h : KeepsWindow io fpga I base)
include h

theorem reads (addr : Nat) : Safe I (axiRead io fpga addr) := .of_keeps (h.read addr) (axiRead_error addr)

theorem writes {off : Nat} (hoff : off < hwRegWindow) (val : Nat) :
    Safe I (axiWrite io fpga (base + off) val) := .of_keeps (h.write off hoff val) (axiWrite_error _ val)

theorem updates {off : Nat} (hoff : off < hwRegWindow) (mask val : Nat) :
    Safe I (axiUpdateBits io fpga (base + off) mask val) :=
  (h.reads _).bind fun _ => h.writes hoff _

end KeepsWindow

/-! ## A mode set -/

theorem pollClkWizLocked_safe {base : Nat} (h : KeepsWindow io fpga I base) (n : Nat) :
    Safe I (pollClkWizLocked io fpga n) := by
  induction n with
  | zero => exact .throw (by decide)
  | succ n ih =>
    exact Spares.bind (h.reads _) fun _ => Spares.bind (h.reads _) fun _ => .ite (.pure ()) ih

theorem configClkWiz_safe (h : KeepsWindow io fpga I hwVideoClkWizBase) (mode : VideoMode) :
    Safe I (configClkWiz io fpga mode) := by
  refine Spares.bind (h.reads _) fun _ => ?_
  refine Spares.bind (h.writes (by decide) _) fun _ => ?_
  refine Spares.bind (h.writes (by decide) _) fun _ => ?_
  refine Spares.bind (h.writes (by decide) _) fun _ => ?_
  refine Spares.bind (h.writes (by decide) _) fun _ => ?_
  refine Spares.bind (h.writes (by decide) _) fun _ => ?_
  refine Spares.bind (h.writes (by decide) _) fun _ => ?_
  refine Spares.bind (pollClkWizLocked_safe h 1000) fun _ => ?_
  exact Spares.bind (h.reads _) fun _ => .pure ()

theorem pollVdmaReset_safe {base : Nat} (h : KeepsWindow io fpga I base) (chan n : Nat) :
    Safe I (pollVdmaReset io fpga chan n) := by
  induction n with
  | zero => exact .throw (by decide)
  | succ n ih => exact Spares.bind (h.reads _) fun _ => .ite (.pure ()) ih

theorem programVdmaChannel_safe (h : KeepsWindow io fpga I hwVdmaBase) (ddrBypassTest : Bool)
    (mode : VideoMode) {chan addrBase : Nat} (hchan : chan ≤ 0xA0) (hbase : addrBase ≤ 0xA0)
    (cr frameDelay : Nat) :
    Safe I (programVdmaChannel io fpga ddrBypassTest mode chan addrBase cr frameDelay) := by
  have hwindow : hwRegWindow = 0x10000 := rfl
  have hwrite : ∀ {b : Nat}, b ≤ 0xA0 → ∀ off ≤ 0x20, ∀ val,
      Safe I (axiWrite io fpga (hwVdmaBase + b + off) val) := by
    intro b hb off hoff val
    rw [Nat.add_assoc]
    exact h.writes (by omega) val
  have hupdate : Safe I (axiUpdateBits io fpga (hwVdmaBase + chan + axiVdmaCrOffset) axiVdmaCrRunStop
      axiVdmaCrRunStop) := by
    have hcr : axiVdmaCrOffset = 0 := rfl
    rw [Nat.add_assoc]
    exact h.updates (by omega) _ _
  have hcount : vdmaFrameCount ddrBypassTest ≤ 4 := by
    unfold vdmaFrameCount
    split <;> decide
  refine Spares.bind (Spares.bind (hwrite hchan _ (by decide) _) fun _ => pollVdmaReset_safe h _ _)
    fun _ => ?_
  refine Spares.bind (hwrite hchan _ (by decide) _) fun _ => ?_
  refine Spares.bind (hwrite hchan _ (by decide) _) fun _ => ?_
  refine Spares.bind (hwrite hchan _ (by decide) _) fun _ => ?_
  refine Spares.bind (hwrite hbase _ (by decide) _) fun _ => ?_
  refine Spares.bind (hwrite hbase _ (by decide) _) fun _ => ?_
  refine Spares.bind (Spares.forM _ fun i hi => ?_) fun _ => ?_
  · have hlt := List.mem_range.1 hi
    have hstart : axiVdmaStartAddrOffset = 0x00C := rfl
    rw [Nat.add_assoc (hwVdmaBase + addrBase)]
    exact hwrite hbase _ (by omega) _
  refine Spares.bind hupdate fun _ => ?_
  refine Spares.bind (hwrite hbase _ (by decide) _) fun _ => ?_
  exact Spares.bind (h.reads _) fun _ => .pure ()

theorem configVdma_safe (h : KeepsWindow io fpga I hwVdmaBase) (ddrBypassTest : Bool)
    (mode : VideoMode) : Safe I (configVdma io fpga ddrBypassTest mode) := by
  refine Spares.bind (programVdmaChannel_safe h _ _ (by decide) (by decide) _ _) fun _ => ?_
  refine Spares.bind (programVdmaChannel_safe h _ _ (by decide) (by decide) _ _) fun _ => ?_
  exact Spares.bind (h.reads _) fun _ => .pure ()

theorem configVtc_safe (h : KeepsWindow io fpga I hwVtcBase) (mode : VideoMode) :
    Safe I (configVtc io fpga mode) := by
  refine Spares.bind (h.writes (by decide) _) fun _ => ?_
  refine Spares.bind (h.writes (by decide) _) fun _ => ?_
  refine Spares.bind (h.writes (by decide) _) fun _ => ?_
  refine Spares.bind (h.writes (by decide) _) fun _ => ?_
  refine Spares.bind (h.writes (by decide) _) fun _ => ?_
  refine Spares.bind (h.writes (by decide) _) fun _ => ?_
  refine Spares.bind (h.writes (by decide) _) fun _ => ?_
  refine Spares.bind (h.writes (by decide) _) fun _ => ?_
  refine Spares.bind (h.writes (by decide) _) fun _ => ?_
  refine Spares.bind (h.writes (by decide) _) fun _ => ?_
  refine Spares.bind (h.writes (by decide) _) fun _ => ?_
  refine Spares.bind (h.writes (by decide) _) fun _ => ?_
  refine Spares.bind (h.writes (by decide) _) fun _ => ?_
  refine Spares.bind (h.reads _) fun _ => ?_
  refine Spares.bind (h.writes (by decide) _) fun _ => ?_
  exact Spares.bind (h.reads _) fun _ => .pure ()

/-- `I` is kept by reads, and by writes to the DDR through the bypass. -/
structure KeepsDdr {σ : Type} (io : Mmio σ) (I : σ → Prop) : Prop where
  read : ∀ offset, Keeps I (io.ioread32 offset)
  write : ∀ offset value s, hwGopBypassFrameBase - hwBypassAxiTranslation ≤ offset →
    offset < hwBypassHostUsableSize → value < 2 ^ 32 → I s → I (io.iowrite32 value offset s)

theorem KeepsDdr.trivial : KeepsDdr io fun _ => True :=
  ⟨fun _ _ _ => True.intro, fun _ _ _ _ _ _ _ => True.intro⟩

theorem testPatternPixel_lt (pixelsPerLine i : Nat) : testPatternPixel pixelsPerLine i < 2 ^ 32 := by
  have hcolors : ∀ k : Nat, testPatternColors[k]! < 2 ^ 32 := by
    intro k
    have hall : ∀ c ∈ testPatternColors, c < 2 ^ 32 := by decide
    rw [List.getElem!_eq_getElem?_getD]
    cases hk : testPatternColors[k]? with
    | none => decide
    | some c => exact hall c (List.mem_of_getElem? hk)
  exact hcolors _

/-- The test pattern is within the part of the BAR that was mapped for it. -/
theorem mapBypassAxiRange_ok {ddr : DdrBypass} {size mapping : Nat}
    (h : mapBypassAxiRange ddr hwGopBypassFrameBase size = .ok mapping) :
    hwGopBypassFrameBase - hwBypassAxiTranslation = mapping ∧
      mapping + size ≤ hwBypassHostUsableSize := by
  unfold mapBypassAxiRange at h
  split at h
  · cases h
  split at h
  · cases h
  next offset hoffset =>
    obtain ⟨-, -, -, hfits, hoff⟩ := axiToBarOffset_ok_iff.mp hoffset
    split at h
    · cases h
    split at h
    · cases h
    obtain rfl := Except.ok.inj h
    omega

theorem mapBypassAxiRange_error {ddr : DdrBypass} {addr size : Nat} {ret : Int}
    (h : mapBypassAxiRange ddr addr size = .error ret) : ret ≠ 0 := by
  unfold mapBypassAxiRange at h
  split at h
  · cases h
    decide
  split at h
  next ret' hret =>
    obtain rfl := Except.error.inj h
    exact axiToBarOffset_error hret
  · split at h
    · cases h
      decide
    split at h
    · cases h
      decide
    · cases h

theorem writeDdrTestPattern_safe (h : KeepsDdr io I) (ddr : DdrBypass) (ddrBypassTest : Bool)
    (mode : VideoMode) : Safe I (writeDdrTestPattern io ddr ddrBypassTest mode) := by
  have hpixels : ∀ (ppl mapping : Nat) (l : List Nat),
      hwGopBypassFrameBase - hwBypassAxiTranslation = mapping →
      (∀ i ∈ l, mapping + 4 * i < hwBypassHostUsableSize) → ∀ s, I s →
        I (l.foldl (fun s i => io.iowrite32 (testPatternPixel ppl i) (mapping + 4 * i) s) s) := by
    intro ppl mapping l hmapping
    induction l with
    | nil => exact fun _ s hs => hs
    | cons i l ih =>
      intro hl s hs
      exact ih (fun j hj => hl j (List.mem_cons_of_mem i hj)) _
        (h.write _ _ s (by omega) (hl i List.mem_cons_self) (testPatternPixel_lt ppl i) hs)
  apply Safe.of_keeps
  · intro s hs
    unfold writeDdrTestPattern
    dsimp only
    split
    · exact hs
    split
    · exact hs
    split
    · exact hs
    split
    · exact hs
    next mapping hmap =>
      obtain ⟨hmapping, hfits⟩ := mapBypassAxiRange_ok hmap
      have hwritten := hpixels (mode.lineBytes / 4) mapping
        (List.range (u32 (mode.lineBytes * mode.drm.vdisplay : Nat) / 4)) hmapping (fun i hi => by
          have hi := List.mem_range.1 hi
          omega) s hs
      have hfirst := h.read mapping _ hwritten
      split
      · exact hfirst
      split
      · exact h.read _ _ hfirst
      · exact h.read _ _ hfirst
  · intro s e he
    unfold writeDdrTestPattern at he
    dsimp only at he
    split at he
    · cases he
    split at he
    · cases he
      decide
    split at he
    · cases he
      decide
    split at he
    next ret hret =>
      obtain rfl := Except.error.inj he
      exact mapBypassAxiRange_error hret
    · split at he
      · cases he
        decide
      split at he
      · cases he
        decide
      · cases he

/-! ## The static part -/

theorem configVideoLockGpio_safe (h : KeepsWindow io fpga I hwVideoLockGpioBase) :
    Safe I (configVideoLockGpio io fpga) := by
  refine Spares.bind (h.writes (by decide) _) fun _ => ?_
  refine Spares.bind (h.writes (by decide) _) fun _ => ?_
  refine Spares.bind (h.reads _) fun _ => ?_
  exact Spares.bind (h.reads _) fun _ => .pure ()

theorem pollIic_safe {base : Nat} (h : KeepsWindow io fpga I base) (clear set n : Nat) :
    Safe I (pollIic io fpga clear set n) := by
  induction n with
  | zero => exact .throw (by decide)
  | succ n ih => exact Spares.bind (h.reads _) fun _ => .ite (.pure ()) ih

theorem configIicHdmi_safe (h : KeepsWindow io fpga I hwAxiIicBase) :
    Safe I (configIicHdmi io fpga) := by
  have hdtr : ∀ val, Safe I (iicWriteDtr io fpga val) :=
    fun val => Spares.bind (pollIic_safe h _ _ _) fun _ => h.writes (by decide) val
  refine Spares.bind (h.writes (by decide) _) fun _ => ?_
  refine Spares.bind (h.writes (by decide) _) fun _ => ?_
  refine Spares.bind (h.writes (by decide) _) fun _ => ?_
  refine Spares.forM _ fun e _ => ?_
  exact Spares.bind (pollIic_safe h _ _ _) fun _ => Spares.bind (hdtr _) fun _ =>
    Spares.bind (hdtr _) fun _ => Spares.bind (hdtr _) fun _ => pollIic_safe h _ _ _

end

end FpgaDrm
