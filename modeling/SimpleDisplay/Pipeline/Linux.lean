import SimpleDisplay.Drm.Translation
import SimpleDisplay.Pipeline.Hardware

/-!
# What the Linux driver leaves in the registers

The same for `configClkWiz`, `configVdma` with the one frame of the bypass test, and
`configVtc`.
-/

namespace FpgaDrm

open Word Registers Registers.Hardware
open SimpleDisplay (axi displayHardware Elsewhere calm_of_not_mem calm_of_testBit control_testBit
  vdmaControlRegisters behaviour vdmaOffset registerWindowSize clockLoadRegister clockRegisters
  vtcControlRegister)

/-- `ioread32` and `iowrite32` reach the registers of the pipeline. -/
structure RegisterMmio {σ : Type} (io : Mmio σ) (regs : σ → Nat → Nat) : Prop where
  read : ∀ offset s, displayHardware.Read (regs s) (axi offset) (io.ioread32 offset s).1
    (regs (io.ioread32 offset s).2)
  write : ∀ value offset s, value < 2 ^ 32 → displayHardware.Write (regs s) (axi offset) value
    (regs (io.iowrite32 value offset s))

/-- The offset that an access is given leads back to the address it is for. -/
theorem mmioCheck_ok {fpga : MmioBar} {addr offset : Nat} (h : mmioCheck fpga addr 4 = .ok offset) :
    axi offset = addr := by
  unfold mmioCheck at h
  split at h
  · cases h
  split at h
  · cases h
  split at h
  · cases h
  next offset' hoffset =>
    split at h
    · cases h
    obtain rfl := Except.ok.inj h
    obtain ⟨-, -, hlow, hfits, hvalue⟩ := axiToBarOffset_ok_iff.mp hoffset
    show hwBypassAxiTranslation ||| offset' = addr
    rw [or_translation (by omega)]
    omega

/-- The polarity that `configVtc` builds. -/
def vtcPolarity (m : DisplayMode) : Nat :=
  vtcPolBase ||| (if m.flags &&& flagPHSync ≠ 0 then vtcPolHSync else 0) |||
    (if m.flags &&& flagPVSync ≠ 0 then vtcPolVSync else 0)

/-- The values that `configVtc` writes, the last register first. -/
def vtcWrites (m : DisplayMode) : List (Nat × Nat) :=
  let vsyncStart := u32 (m.vsyncStart - 1)
  let vsyncEnd := u32 (m.vsyncEnd - 1)
  [(hwVtcBase + vtcGPol, vtcPolarity m % 2 ^ 32),
    (hwVtcBase + vtcGFEnc, 0),
    (hwVtcBase + vtcGVSHOffF1, vtcPack m.hsyncStart m.hsyncStart % 2 ^ 32),
    (hwVtcBase + vtcGVSHOff, vtcPack m.hsyncStart m.hsyncStart % 2 ^ 32),
    (hwVtcBase + vtcGVBHOffF1, vtcPack m.hdisplay m.hdisplay % 2 ^ 32),
    (hwVtcBase + vtcGVBHOff, vtcPack m.hdisplay m.hdisplay % 2 ^ 32),
    (hwVtcBase + vtcGVSyncF1, vtcPack vsyncStart vsyncEnd % 2 ^ 32),
    (hwVtcBase + vtcGVSync, vtcPack vsyncStart vsyncEnd % 2 ^ 32),
    (hwVtcBase + vtcGHSync, vtcPack m.hsyncStart m.hsyncEnd % 2 ^ 32),
    (hwVtcBase + vtcGASizeF1, u32 (m.vdisplay <<< 16 : Nat) % 2 ^ 32),
    (hwVtcBase + vtcGASize, (m.hdisplay ||| u32 (m.vdisplay <<< 16 : Nat)) % 2 ^ 32),
    (hwVtcBase + vtcGVSize, (m.vtotal ||| u32 (m.vtotal <<< 16 : Nat)) % 2 ^ 32),
    (hwVtcBase + vtcGHSize, m.htotal % 2 ^ 32)]

def vtcCtlValue (ctl : Nat) : Nat :=
  ((ctl &&& (0xFFFFFFFF ^^^ vtcCtlAllSS)) ||| (vtcCtlSW ||| vtcCtlGE ||| vtcCtlRU)) % 2 ^ 32

def clkWizWrites (mode : VideoMode) : List (Nat × Nat) :=
  [(hwVideoClkWizBase + clkWizCfg23, 2), (hwVideoClkWizBase + clkWizCfg23, 3),
    (hwVideoClkWizBase + clkWizCfg4, clkWizDuty50), (hwVideoClkWizBase + clkWizCfg3, 0),
    (hwVideoClkWizBase + clkWizCfg2, mode.clkCfg2 % 2 ^ 32), (hwVideoClkWizBase + clkWizCfg1, 0),
    (hwVideoClkWizBase + clkWizCfg0, mode.clkCfg0 % 2 ^ 32)]

/-- The steps of `fpga_drm_program_mode` that write registers, with the one frame of the bypass
test. -/
def configPipeline {σ : Type} (io : Mmio σ) (fpga : MmioBar) (mode : VideoMode) :
    Driver σ Unit := do
  configClkWiz io fpga mode
  configVdma io fpga true mode
  configVtc io fpga mode

/-- What `programVdmaChannel` writes; `reg` is what the control register read before the
channel was started. -/
def vdmaWrites (mode : VideoMode) (chan addrBase cr frameDelay reg : Nat) : List (Nat × Nat) :=
  [(hwVdmaBase + addrBase + axiVdmaVSizeOffset, mode.drm.vdisplay % 2 ^ 32),
    (hwVdmaBase + chan + axiVdmaCrOffset,
      ((reg &&& (0xFFFFFFFF ^^^ axiVdmaCrRunStop)) ||| (axiVdmaCrRunStop &&& axiVdmaCrRunStop)) %
        2 ^ 32),
    (hwVdmaBase + chan + axiVdmaCrOffset, reg),
    (hwVdmaBase + addrBase + axiVdmaStartAddrOffset + 0 * 4, hwGopVdmaFrameBase % 2 ^ 32),
    (hwVdmaBase + addrBase + axiVdmaStrdFrmDlyOffset,
      (u32 (frameDelay <<< 24 : Nat) ||| mode.lineBytes) % 2 ^ 32),
    (hwVdmaBase + addrBase + axiVdmaHSizeOffset, mode.lineBytes % 2 ^ 32),
    (hwVdmaBase + chan + axiVdmaCrOffset, cr % 2 ^ 32),
    (hwVdmaBase + chan + axiVdmaFrmStoreOffset, 1 % 2 ^ 32)]

/-- The registers that programming a VDMA channel writes besides its control register. -/
def channelRegisters (chan addrBase : Nat) : List Nat :=
  [hwVdmaBase + chan + axiVdmaSrOffset, hwVdmaBase + chan + axiVdmaFrmStoreOffset,
    hwVdmaBase + addrBase + axiVdmaHSizeOffset, hwVdmaBase + addrBase + axiVdmaStrdFrmDlyOffset,
    hwVdmaBase + addrBase + axiVdmaStartAddrOffset + 0 * 4,
    hwVdmaBase + addrBase + axiVdmaVSizeOffset]

structure Channel (chan addrBase : Nat) : Prop where
  control : hwVdmaBase + chan + axiVdmaCrOffset ∈ vdmaControlRegisters
  others : ∀ a ∈ channelRegisters chan addrBase, a ∉ vdmaControlRegisters
  control_inside : axi vdmaOffset ≤ hwVdmaBase + chan + axiVdmaCrOffset ∧
    hwVdmaBase + chan + axiVdmaCrOffset < axi vdmaOffset + registerWindowSize
  status_inside : axi vdmaOffset ≤ hwVdmaBase + chan + axiVdmaSrOffset ∧
    hwVdmaBase + chan + axiVdmaSrOffset < axi vdmaOffset + registerWindowSize

section

variable {σ : Type} {io : Mmio σ} {regs : σ → Nat → Nat} (hio : RegisterMmio io regs)
  {fpga : MmioBar} {known : List (Nat × Nat)}
include hio

/-! ## Accesses -/

theorem axiRead_reads (addr : Nat) : Reads displayHardware regs (axiRead io fpga addr) addr := by
  intro s v t h
  unfold axiRead at h
  split at h
  · cases h
  next offset hoffset =>
    rw [Prod.mk.injEq] at h
    obtain ⟨hvalue, rfl⟩ := h
    obtain rfl := Except.ok.inj hvalue
    rw [← mmioCheck_ok hoffset]
    exact hio.read offset s

theorem axiWrite_writes (addr val : Nat) :
    Writes displayHardware regs (axiWrite io fpga addr val) addr (val % 2 ^ 32) := by
  intro s u t h
  unfold axiWrite at h
  split at h
  · cases h
  next offset hoffset =>
    rw [Prod.mk.injEq] at h
    obtain ⟨-, rfl⟩ := h
    rw [← mmioCheck_ok hoffset]
    exact hio.write (val % 2 ^ 32) offset s (Nat.mod_lt _ (by decide))

theorem pollVdmaReset_skips (chan n : Nat) :
    Learns displayHardware regs known (pollVdmaReset io fpga chan n)
      fun _ known' => known' = known := by
  induction n with
  | zero => exact .throw
  | succ n ih =>
    apply (axiRead_reads hio _).skips.skip
    intro cr
    by_cases hdone : cr &&& axiVdmaCrReset = 0
    · rw [if_pos hdone]
      exact .pure rfl
    · rw [if_neg hdone]
      exact ih

/-- A wait for the clock that ends well has seen the load bit clear. -/
theorem pollClkWizLocked_learns (n : Nat)
    (h : known.lookup clockLoadRegister = some 3) :
    Learns displayHardware regs known (pollClkWizLocked io fpga n)
      fun _ known' => known' = (clockLoadRegister, 2) :: known := by
  induction n with
  | zero => exact .throw
  | succ n ih =>
    apply (axiRead_reads hio _).skips.skip
    intro status
    apply (axiRead_reads hio _).learns.bind
    rintro cfg23 _ ⟨rfl, hvalue⟩
    by_cases hdone : status &&& clkWizSrLocked ≠ 0 ∧ cfg23 &&& clkWizCfg23Load = 0
    · rw [if_pos hdone]
      obtain rfl := SimpleDisplay.clockLoad_eq hdone.2 (hvalue 3 h)
      exact .pure rfl
    · rw [if_neg hdone]
      exact ih.of_knows fun _ hknows => hknows.tail hvalue

/-! ## Blocks -/

theorem configClkWiz_learns (mode : VideoMode) :
    Learns displayHardware regs known (configClkWiz io fpga mode)
      fun _ known' => known' = clkWizWrites mode ++ known := by
  apply (axiRead_reads hio _).skips.skip
  intro _
  apply (axiWrite_writes hio _ _).seq (calm_of_not_mem (by decide))
  apply (axiWrite_writes hio _ _).seq (calm_of_not_mem (by decide))
  apply (axiWrite_writes hio _ _).seq (calm_of_not_mem (by decide))
  apply (axiWrite_writes hio _ _).seq (calm_of_not_mem (by decide))
  apply (axiWrite_writes hio _ _).seq (calm_of_not_mem (by decide))
  apply (axiWrite_writes hio _ _).seq (calm_of_not_mem (by decide))
  apply (pollClkWizLocked_learns hio 1000 (by rfl)).bind
  rintro ⟨⟩ _ rfl
  apply (axiRead_reads hio _).skips.skip
  intro _
  exact .pure rfl

/-- Starting a channel: its control register has no reset bit to write back. -/
theorem startChannel_learns {a cr : Nat} (ha : a ∈ vdmaControlRegisters)
    (hcr : cr.testBit 2 = false) (h : known.lookup a = some cr) :
    Learns displayHardware regs known
      (axiUpdateBits io fpga a axiVdmaCrRunStop axiVdmaCrRunStop) fun _ known' => ∃ reg, known' =
        (a, ((reg &&& (0xFFFFFFFF ^^^ axiVdmaCrRunStop)) |||
          (axiVdmaCrRunStop &&& axiVdmaCrRunStop)) % 2 ^ 32) :: (a, reg) :: known := by
  apply (axiRead_reads hio _).learns.bind
  rintro reg _ ⟨rfl, hvalue⟩
  have hreg := control_testBit ha (hvalue cr h) hcr
  refine ((axiWrite_writes hio _ _).learns_calm (calm_of_testBit ?_)).imp fun _ _ hk => ⟨reg, hk⟩
  rw [Nat.testBit_mod_two_pow, Nat.testBit_or, Nat.testBit_and, hreg]
  rfl

theorem programVdmaChannel_learns (h : Elsewhere vdmaOffset known) (mode : VideoMode)
    {chan addrBase : Nat} (hchan : Channel chan addrBase) (frameDelay : Nat) {cr : Nat}
    (hcr : (cr % 2 ^ 32).testBit 2 = false) :
    Learns displayHardware regs known
      (programVdmaChannel io fpga true mode chan addrBase cr frameDelay)
      fun _ known' => ∃ reg, known' = vdmaWrites mode chan addrBase cr frameDelay reg ++ known := by
  have hcalm : ∀ a ∈ channelRegisters chan addrBase, ∀ v, displayHardware.Calm a v :=
    fun a ha v => calm_of_not_mem (hchan.others a ha)
  have hne : ∀ a ∈ channelRegisters chan addrBase, hwVdmaBase + chan + axiVdmaCrOffset ≠ a := by
    rintro a ha rfl
    exact hchan.others _ ha hchan.control
  have hreset : Learns displayHardware regs known (resetVdmaChannel io fpga chan)
      fun _ known' => known' = known := by
    apply (axiWrite_writes hio _ _).learns.bind
    rintro ⟨⟩ _ rfl
    rw [h.kept]
    intro s hs
    refine pollVdmaReset_skips hio chan 1000 s (hs.tail fun u hu => ?_)
    rw [h.lookup hchan.control_inside] at hu
    cases hu
  apply hreset.skip
  intro _
  apply ((axiWrite_writes hio _ _).skips (hcalm _ (by simp [channelRegisters]) _)
    (h.lookup hchan.status_inside)).skip
  intro _
  apply (axiWrite_writes hio _ _).seq (hcalm _ (by simp [channelRegisters]) _)
  apply (axiWrite_writes hio _ _).seq (calm_of_testBit hcr)
  apply (axiWrite_writes hio _ _).seq (hcalm _ (by simp [channelRegisters]) _)
  apply (axiWrite_writes hio _ _).seq (hcalm _ (by simp [channelRegisters]) _)
  -- The loop over the frame addresses makes one pass.
  apply (Learns.forM_singleton
    ((axiWrite_writes hio _ _).learns_calm (hcalm _ (by simp [channelRegisters]) _))).bind
  rintro ⟨⟩ _ rfl
  apply (startChannel_learns hio hchan.control hcr (by
    rw [lookup_cons, if_neg (hne _ (by simp [channelRegisters])),
      lookup_cons, if_neg (hne _ (by simp [channelRegisters])),
      lookup_cons, if_neg (hne _ (by simp [channelRegisters])), lookup_cons, if_pos rfl])).bind
  rintro ⟨⟩ _ ⟨reg, rfl⟩
  apply (axiWrite_writes hio _ _).seq (hcalm _ (by simp [channelRegisters]) _)
  apply (axiRead_reads hio _).skips.skip
  intro _
  exact .pure ⟨reg, rfl⟩

/-- The write channel is programmed like the read channel; nothing of it is needed later. -/
theorem configVdma_learns (h : Elsewhere vdmaOffset known) (mode : VideoMode) :
    Learns displayHardware regs known (configVdma io fpga true mode) fun _ known' =>
      ∃ reg, known' = vdmaWrites mode axiVdmaTxOffset axiVdmaMm2sAddrOffset
        (axiVdmaCrTailEn ||| axiVdmaCrSyncEn ||| axiVdmaCrGenlockInternal) 1 reg ++ known := by
  have hrx : Channel axiVdmaRxOffset axiVdmaS2mmAddrOffset :=
    ⟨by decide, by decide, by decide, by decide⟩
  have htx : Channel axiVdmaTxOffset axiVdmaMm2sAddrOffset :=
    ⟨by decide, by decide, by decide, by decide⟩
  apply (programVdmaChannel_learns hio h mode hrx 0 (by decide)).bind
  rintro ⟨⟩ _ ⟨reg, rfl⟩
  refine Learns.of_knows (show Learns displayHardware regs known _ _ from ?_) ?_
  · apply (programVdmaChannel_learns hio h mode htx 1 (by decide)).bind
    rintro ⟨⟩ _ ⟨reg, rfl⟩
    apply (axiRead_reads hio _).skips.skip
    intro _
    exact .pure ⟨reg, rfl⟩
  · intro file hknows
    have hkeys : ∀ k ∈ [0x3C0400A0, 0x3C040030, 0x3C040030, 0x3C0400AC, 0x3C0400A8, 0x3C0400A4,
        0x3C040030, 0x3C040048], axi vdmaOffset ≤ k ∧ k < axi vdmaOffset + registerWindowSize := by
      decide
    exact hknows.of_append fun p hp => h.lookup (hkeys p.1 (List.mem_map_of_mem hp))

theorem configVtc_learns {ctl : Nat} (mode : VideoMode)
    (h : known.lookup (hwVtcBase + vtcCtl) = some ctl) :
    Learns displayHardware regs known (configVtc io fpga mode) fun _ known' =>
      known' = (hwVtcBase + vtcCtl, vtcCtlValue ctl) :: (hwVtcBase + vtcCtl, ctl) ::
        (vtcWrites mode.drm ++ known) := by
  apply (axiWrite_writes hio _ _).seq (calm_of_not_mem (by decide))
  apply (axiWrite_writes hio _ _).seq (calm_of_not_mem (by decide))
  apply (axiWrite_writes hio _ _).seq (calm_of_not_mem (by decide))
  apply (axiWrite_writes hio _ _).seq (calm_of_not_mem (by decide))
  apply (axiWrite_writes hio _ _).seq (calm_of_not_mem (by decide))
  apply (axiWrite_writes hio _ _).seq (calm_of_not_mem (by decide))
  apply (axiWrite_writes hio _ _).seq (calm_of_not_mem (by decide))
  apply (axiWrite_writes hio _ _).seq (calm_of_not_mem (by decide))
  apply (axiWrite_writes hio _ _).seq (calm_of_not_mem (by decide))
  apply (axiWrite_writes hio _ _).seq (calm_of_not_mem (by decide))
  apply (axiWrite_writes hio _ _).seq (calm_of_not_mem (by decide))
  apply (axiWrite_writes hio _ _).seq (calm_of_not_mem (by decide))
  apply (axiWrite_writes hio _ _).seq (calm_of_not_mem (by decide))
  apply (axiRead_reads hio _).learns.bind
  rintro v _ ⟨rfl, hvalue⟩
  have hv : v = ctl := by
    have hdrift : (behaviour (hwVtcBase + vtcCtl)).drift ctl v := hvalue ctl h
    exact hdrift
  subst hv
  apply (axiWrite_writes hio _ _).seq (calm_of_not_mem (by decide))
  apply (axiRead_reads hio _).skips.skip
  intro _
  exact .pure rfl

/-! ## The whole -/

def linuxKnown (mode : VideoMode) (ctl reg : Nat) : List (Nat × Nat) :=
  (hwVtcBase + vtcCtl, vtcCtlValue ctl) :: (hwVtcBase + vtcCtl, ctl) ::
    (vtcWrites mode.drm ++ (vdmaWrites mode axiVdmaTxOffset axiVdmaMm2sAddrOffset
      (axiVdmaCrTailEn ||| axiVdmaCrSyncEn ||| axiVdmaCrGenlockInternal) 1 reg ++
        (clkWizWrites mode ++ [(hwVtcBase + vtcCtl, ctl)])))

theorem configPipeline_learns (mode : VideoMode) (ctl : Nat) :
    Learns displayHardware regs [(hwVtcBase + vtcCtl, ctl)] (configPipeline io fpga mode)
      fun _ known' => ∃ reg, known' = linuxKnown mode ctl reg := by
  have hvdma : Elsewhere vdmaOffset (clkWizWrites mode ++ [(hwVtcBase + vtcCtl, ctl)]) :=
    .of_keys [0x3C06025C, 0x3C06025C, 0x3C060210, 0x3C06020C, 0x3C060208, 0x3C060204, 0x3C060200,
      0x3C010000] rfl (by decide)
  apply (configClkWiz_learns hio mode).bind
  rintro ⟨⟩ _ rfl
  apply (configVdma_learns hio hvdma mode).bind
  rintro ⟨⟩ _ ⟨reg, rfl⟩
  exact (configVtc_learns hio mode (by rfl)).imp fun _ _ hk => ⟨reg, hk⟩

end

end FpgaDrm
