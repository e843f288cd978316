import SimpleDisplay.Drm.ActiveMode
import SimpleDisplay.Pipeline.Handoff
import SimpleDisplay.Pipeline.Windows

/-!
# Mode sets, at two levels

The state machine of `Drm.Upload` has a mode set as one step that may fail, and says of each
block only which mode it was last programmed with as a whole.  Here the same threads run over
registers, and a mode set makes every access of `fpga_drm_program_mode`.  Each such run is a
run of the state machine, and its record of the blocks is true of the registers.
-/

namespace FpgaDrm

open Word Registers Registers.Hardware StateMachine Ends
open SimpleDisplay (axi fileMmio displayHardware calm_of_not_mem calm_of_testBit vdmaControlRegisters vdmaOffset
  registerWindowSize clockRegisters vtcControlRegister vtcGeneratorRegisters mm2sRegisters behaviour
  resetsVdma stored_eq)

/-! ## The two levels -/

/-- The registers that a mode gives the clock wizard, -/
def clkWizSet (mode : VideoMode) : List (Nat × Nat) :=
  [(hwVideoClkWizBase + clkWizCfg4, clkWizDuty50), (hwVideoClkWizBase + clkWizCfg3, 0),
    (hwVideoClkWizBase + clkWizCfg2, mode.clkCfg2 % 2 ^ 32), (hwVideoClkWizBase + clkWizCfg1, 0),
    (hwVideoClkWizBase + clkWizCfg0, mode.clkCfg0 % 2 ^ 32)]

/-- the channel of the VDMA that reads the frames, -/
def vdmaSet (ddrBypassTest : Bool) (mode : VideoMode) : List (Nat × Nat) :=
  [(hwVdmaBase + axiVdmaMm2sAddrOffset + axiVdmaVSizeOffset, mode.drm.vdisplay % 2 ^ 32),
    (hwVdmaBase + axiVdmaMm2sAddrOffset + axiVdmaStartAddrOffset,
      vdmaFrameAddr ddrBypassTest 0 % 2 ^ 32),
    (hwVdmaBase + axiVdmaMm2sAddrOffset + axiVdmaStrdFrmDlyOffset,
      (u32 (1 <<< 24 : Nat) ||| mode.lineBytes) % 2 ^ 32),
    (hwVdmaBase + axiVdmaMm2sAddrOffset + axiVdmaHSizeOffset, mode.lineBytes % 2 ^ 32),
    (hwVdmaBase + axiVdmaTxOffset + axiVdmaFrmStoreOffset, vdmaFrameCount ddrBypassTest % 2 ^ 32)]

/-- and the timing generator. -/
def vtcSet (mode : VideoMode) : List (Nat × Nat) := vtcWrites mode.drm

/-- The registers are those of the mode that a block was programmed with. -/
def Shows (set : VideoMode → List (Nat × Nat)) (block : Option VideoMode) (file : Nat → Nat) : Prop :=
  ∀ mode, block = some mode → ∀ p ∈ set mode, file p.1 = p.2

structure Abstracts (ddrBypassTest : Bool) (hw : Hw) (file : Nat → Nat) : Prop where
  clkWiz : Shows clkWizSet hw.clkWiz file
  vdma : Shows (vdmaSet ddrBypassTest) hw.vdma file
  vtc : Shows vtcSet hw.vtc file

/-- The return value. -/
def retOf : Except Int Unit → Int
  | .ok _ => 0
  | .error ret => ret

section

variable {σ : Type} (io : Mmio σ) (ddr : DdrBypass) (ddrBypassTest : Bool)

/-- The reads at the end of `fpga_drm_program_mode`. -/
def Mmio.readback : Driver σ Unit := do
  let _ ← axiRead io ddr.bar.toMmioBar (hwVdmaBase + axiVdmaRxOffset + axiVdmaSrOffset)
  let _ ← axiRead io ddr.bar.toMmioBar (hwVdmaBase + axiVdmaTxOffset + axiVdmaSrOffset)
  let _ ← axiRead io ddr.bar.toMmioBar (hwVtcBase + vtcIsr)
  let _ ← axiRead io ddr.bar.toMmioBar (hwVtcBase + vtcError)
  let _ ← axiRead io ddr.bar.toMmioBar (hwVideoClkWizBase + 0x04)
  return ()

/-- What the stages return when they are run from `x`, one after the other. -/
def Mmio.programRets (mode : VideoMode) (x : σ) : ProgramRets :=
  let clkWiz := configClkWiz io ddr.bar.toMmioBar mode x
  let vdma := configVdma io ddr.bar.toMmioBar ddrBypassTest mode clkWiz.2
  let vtc := configVtc io ddr.bar.toMmioBar mode vdma.2
  let pattern := writeDdrTestPattern io ddr ddrBypassTest mode vtc.2
  ⟨retOf clkWiz.1, retOf vdma.1, retOf vtc.1, retOf pattern.1, retOf (io.readback ddr pattern.2).1⟩

/-- The label of a step of the driver, with what the registers make a mode set meet, and the
registers after the step. -/
def Mmio.meet (p : Params) (a : Act) (s : Sys) (x : σ) : Act × σ :=
  match a, s.commit with
  | .commit _, .program _ mode =>
    (.commit (io.programRets ddr ddrBypassTest mode x),
      (io.programMode ddr p.configurePipeline ddrBypassTest mode x).2)
  | a, _ => (a, x)

/-- A step of the driver, or of the device by itself (`none`). -/
def Mmio.step (tick : σ → σ) (p : Params) (a : Option Act) (st : Sys × σ) : Option (Sys × σ) :=
  match a with
  | none => some (st.1, tick st.2)
  | some a =>
    let met := io.meet ddr ddrBypassTest p a st.1 st.2
    (FpgaDrm.step p met.1 st.1).map fun s => (s, met.2)

end

/-! ## What a stage keeps of the other blocks -/

/-- A register of one of the blocks that keeps what is written. -/
def Stored (k : Nat) : Prop :=
  k ∈ clockRegisters ++ (vtcControlRegister :: vtcGeneratorRegisters) ++ mm2sRegisters

instance : DecidablePred Stored := fun k => inferInstanceAs (Decidable (k ∈ _))

theorem Stored.drift {k u v : Nat} (hk : Stored k) (h : displayHardware.drift k u v) : v = u := by
  have hdrift : (behaviour k).drift u v := h
  unfold Stored at hk
  unfold behaviour at hdrift
  rw [if_pos hk] at hdrift
  exact hdrift

/-- A block's registers are at the same addresses in every mode. -/
structure Block (set : VideoMode → List (Nat × Nat)) (keys : List Nat) : Prop where
  addrs : ∀ mode, (set mode).map Prod.fst = keys
  stored : ∀ k ∈ keys, Stored k

theorem clkWiz_block :
    Block clkWizSet [0x3C060210, 0x3C06020C, 0x3C060208, 0x3C060204, 0x3C060200] where
  addrs _ := rfl
  stored := by decide

theorem vdma_block (ddrBypassTest : Bool) :
    Block (vdmaSet ddrBypassTest) [0x3C040050, 0x3C04005C, 0x3C040058, 0x3C040054, 0x3C040018] where
  addrs _ := rfl
  stored := by decide

theorem vtc_block :
    Block vtcSet [0x3C01006C, 0x3C010068, 0x3C010090, 0x3C010084, 0x3C010088, 0x3C01007C, 0x3C01008C,
      0x3C010080, 0x3C010078, 0x3C010094, 0x3C010060, 0x3C010074, 0x3C010070] where
  addrs _ := rfl
  stored := by decide

section

variable {set : VideoMode → List (Nat × Nat)} {block : Option VideoMode} {keys : List Nat}
  {file file' : Nat → Nat}

theorem Shows.none : Shows set .none file := by
  intro mode hmode
  cases hmode

theorem Shows.some {mode : VideoMode} (h : ∀ p ∈ set mode, file p.1 = p.2) :
    Shows set (.some mode) file := by
  intro _ hmode
  obtain rfl := Option.some.inj hmode
  exact h

theorem Shows.congr (hblock : Block set keys) (hsame : ∀ k ∈ keys, file' k = file k)
    (h : Shows set block file) : Shows set block file' := by
  intro mode hmode p hp
  have hmem : p.1 ∈ keys := by
    rw [← hblock.addrs mode]
    exact List.mem_map_of_mem hp
  rw [hsame p.1 hmem]
  exact h mode hmode p hp

theorem Shows.read {a v : Nat} (hblock : Block set keys) (hread : displayHardware.Read file a v file')
    (h : Shows set block file) : Shows set block file' := by
  refine h.congr hblock fun k hk => ?_
  have hstored := hblock.stored k hk
  by_cases hka : k = a
  · subst hka
    exact hstored.drift (displayHardware.drift_trans hread.value hread.after)
  · exact hstored.drift (hread.others k hka)

theorem Shows.write {a v : Nat} (hblock : Block set keys)
    (hwrite : displayHardware.Write file a v file')
    (hout : ∀ k ∈ keys, k ≠ a ∧ displayHardware.disturbs a v k = false) (h : Shows set block file) :
    Shows set block file' := by
  refine h.congr hblock fun k hk => ?_
  obtain ⟨hka, hcalm⟩ := hout k hk
  exact (hblock.stored k hk).drift (hwrite.others k hka hcalm)

theorem Shows.of_knows {mode : VideoMode} (hblock : Block set keys) {known : List (Nat × Nat)}
    (hknows : displayHardware.Knows known file)
    (hknown : ∀ p ∈ set mode, known.lookup p.1 = .some p.2) : Shows set (.some mode) file := by
  refine .some fun p hp => ?_
  have hmem : p.1 ∈ keys := by
    rw [← hblock.addrs mode]
    exact List.mem_map_of_mem hp
  exact stored_eq (hblock.stored p.1 hmem) hknows (hknown p hp)

/-- A write to another block's window. -/
theorem disturbs_outside {base off k v : Nat} (hbase : base ∈ [hwVideoClkWizBase, hwVdmaBase, hwVtcBase])
    (hoff : off < hwRegWindow) (hk : ¬ (base ≤ k ∧ k < base + hwRegWindow)) :
    k ≠ base + off ∧ displayHardware.disturbs (base + off) v k = false := by
  have hwindow : hwRegWindow = 0x10000 := rfl
  refine ⟨by omega, ?_⟩
  by_cases hmem : base + off ∈ vdmaControlRegisters
  · have hcontrol : ∀ a ∈ vdmaControlRegisters, a = 0x3C040000 ∨ a = 0x3C040030 := by decide
    have hbases : ∀ b ∈ [hwVideoClkWizBase, hwVdmaBase, hwVtcBase],
        b = 0x3C060000 ∨ b = 0x3C040000 ∨ b = 0x3C010000 := by decide
    have hvdma : axi vdmaOffset = 0x3C040000 := rfl
    have hsize : registerWindowSize = 0x10000 := rfl
    have ha := hcontrol _ hmem
    have hb := hbases base hbase
    have hout : ¬ (axi vdmaOffset ≤ k ∧ k < axi vdmaOffset + registerWindowSize) := by omega
    show resetsVdma _ _ _ = false
    unfold resetsVdma
    rw [← Bool.decide_and, decide_eq_false hout, Bool.and_false]
  · exact calm_of_not_mem hmem k

variable {σ : Type} {io : Mmio σ} {regs : σ → Nat → Nat} (hio : RegisterMmio io regs) {fpga : MmioBar}
include hio

theorem Shows.reads (hblock : Block set keys) (addr : Nat) :
    Keeps (fun x => Shows set block (regs x)) (axiRead io fpga addr) := by
  intro x hx
  unfold axiRead
  split
  · exact hx
  · exact hx.read hblock (hio.read _ x)

theorem Shows.window (hblock : Block set keys) {base : Nat}
    (hbase : base ∈ [hwVideoClkWizBase, hwVdmaBase, hwVtcBase])
    (hout : ∀ k ∈ keys, ¬ (base ≤ k ∧ k < base + hwRegWindow)) :
    KeepsWindow io fpga (fun x => Shows set block (regs x)) base := by
  refine ⟨Shows.reads hio hblock, fun off hoff val x hx => ?_⟩
  unfold axiWrite
  split
  · exact hx
  next offset hoffset =>
    refine hx.write hblock (hio.write _ offset x (Nat.mod_lt _ (by decide))) fun k hk => ?_
    rw [mmioCheck_ok hoffset]
    exact disturbs_outside hbase hoff (hout k hk)

/-- The frames are far from the registers. -/
theorem Shows.ddr (hblock : Block set keys) (hlow : ∀ k ∈ keys, k < hwGopBypassFrameBase) :
    KeepsDdr io fun x => Shows set block (regs x) := by
  refine ⟨fun offset x hx => hx.read hblock (hio.read offset x), ?_⟩
  intro offset value x hfrom hto hvalue hx
  have hframe : hwGopBypassFrameBase = 0x3E000000 := rfl
  have htranslation : hwBypassAxiTranslation = 0x3C000000 := rfl
  have hsize : hwBypassHostUsableSize = 0x04000000 := rfl
  have haddr : axi offset = hwBypassAxiTranslation + offset := or_translation (by omega)
  have hcontrol : ∀ a ∈ vdmaControlRegisters, a < hwGopBypassFrameBase := by decide
  refine hx.write hblock (hio.write value offset x hvalue) fun k hk => ?_
  have hk := hlow k hk
  refine ⟨by omega, calm_of_not_mem (fun hmem => ?_) k⟩
  have := hcontrol _ hmem
  omega

/-! ## What a stage leaves -/

theorem configClkWiz_leaves {mode : VideoMode} {x y : σ}
    (h : configClkWiz io fpga mode x = (.ok (), y)) : Shows clkWizSet (.some mode) (regs y) := by
  have hnone : displayHardware.Knows [] (regs x) := fun k v hv => by cases hv
  obtain ⟨_, rfl, hknows⟩ := (configClkWiz_learns hio mode x hnone).1 () y h
  refine .of_knows clkWiz_block hknows fun p hp => ?_
  simp only [clkWizSet, List.mem_cons, List.not_mem_nil, or_false] at hp
  rcases hp with rfl | rfl | rfl | rfl | rfl <;> rfl

theorem configVtc_leaves {mode : VideoMode} {x y : σ}
    (h : configVtc io fpga mode x = (.ok (), y)) : Shows vtcSet (.some mode) (regs y) := by
  have hstart : displayHardware.Knows [(hwVtcBase + vtcCtl, regs x (hwVtcBase + vtcCtl))] (regs x) := by
    intro k v hv
    rw [lookup_cons] at hv
    by_cases hk : k = hwVtcBase + vtcCtl
    · rw [if_pos hk] at hv
      obtain rfl := Option.some.inj hv
      subst hk
      exact SimpleDisplay.drift_refl _ _
    · rw [if_neg hk] at hv
      cases hv
  obtain ⟨_, rfl, hknows⟩ := (configVtc_learns hio mode rfl x hstart).1 () y h
  refine .of_knows vtc_block hknows fun p hp => ?_
  simp only [vtcSet, vtcWrites, List.mem_cons, List.not_mem_nil, or_false] at hp
  rcases hp with rfl | rfl | rfl | rfl | rfl | rfl | rfl | rfl | rfl | rfl | rfl | rfl | rfl <;> rfl

/-- The channel of the VDMA that reads the frames, with any number of frames. -/
theorem programTx_learns (ddrBypassTest : Bool) (mode : VideoMode) :
    Learns displayHardware regs [] (programVdmaChannel io fpga ddrBypassTest mode axiVdmaTxOffset
      axiVdmaMm2sAddrOffset (axiVdmaCrTailEn ||| axiVdmaCrSyncEn ||| axiVdmaCrGenlockInternal) 1)
      fun _ known' => ∀ p ∈ vdmaSet ddrBypassTest mode, known'.lookup p.1 = .some p.2 := by
  apply (Learns.nothing _).skip
  intro _
  apply (Learns.nothing _).skip
  intro _
  apply (axiWrite_writes hio _ _).seq (calm_of_not_mem (by decide))
  apply (axiWrite_writes hio _ _).seq (calm_of_testBit (by decide))
  apply (axiWrite_writes hio _ _).seq (calm_of_not_mem (by decide))
  apply (axiWrite_writes hio _ _).seq (calm_of_not_mem (by decide))
  apply (Learns.forM_writes (g := fun i => (hwVdmaBase + axiVdmaMm2sAddrOffset +
    axiVdmaStartAddrOffset + i * 4, vdmaFrameAddr ddrBypassTest i % 2 ^ 32)) _
    (fun i _ => axiWrite_writes hio _ _) (fun i hi => calm_of_not_mem ?_) _).bind
  · rintro ⟨⟩ _ rfl
    have hcr : ((axiVdmaCrTailEn ||| axiVdmaCrSyncEn ||| axiVdmaCrGenlockInternal) % 2 ^ 32).testBit 2 =
        false := by decide
    apply (startChannel_learns hio (by decide) hcr ?_).bind
    · rintro ⟨⟩ _ ⟨reg, rfl⟩
      apply (axiWrite_writes hio _ _).seq (calm_of_not_mem (by decide))
      apply (axiRead_reads hio _).skips.skip
      intro _
      refine .pure fun p hp => ?_
      simp only [vdmaSet, List.mem_cons, List.not_mem_nil, or_false] at hp
      cases ddrBypassTest <;> rcases hp with rfl | rfl | rfl | rfl | rfl <;> rfl
    · cases ddrBypassTest <;> rfl
  · have hcount : vdmaFrameCount ddrBypassTest ≤ 4 := by
      unfold vdmaFrameCount
      split <;> decide
    have hlt := List.mem_range.1 hi
    have hcontrol : ∀ a ∈ vdmaControlRegisters, a = 0x3C040000 ∨ a = 0x3C040030 := by decide
    have hstart : hwVdmaBase + axiVdmaMm2sAddrOffset + axiVdmaStartAddrOffset = 0x3C04005C := rfl
    intro hmem
    have := hcontrol _ hmem
    omega

theorem configVdma_leaves {ddrBypassTest : Bool} {mode : VideoMode} {x y : σ}
    (h : configVdma io fpga ddrBypassTest mode x = (.ok (), y)) :
    Shows (vdmaSet ddrBypassTest) (.some mode) (regs y) := by
  have hnone : displayHardware.Knows [] (regs x) := fun k v hv => by cases hv
  have hlearns : Learns displayHardware regs [] (configVdma io fpga ddrBypassTest mode)
      fun _ known' => ∀ p ∈ vdmaSet ddrBypassTest mode, known'.lookup p.1 = .some p.2 := by
    apply (Learns.nothing _).skip
    intro _
    apply (programTx_learns hio ddrBypassTest mode).bind
    intro _ known' hknown
    apply (axiRead_reads hio _).skips.skip
    intro _
    exact .pure hknown
  obtain ⟨known, hknown, hknows⟩ := (hlearns x hnone).1 () y h
  exact .of_knows (vdma_block ddrBypassTest) hknows hknown

/-! ## A mode set -/

variable {ddr : DdrBypass} {ddrBypassTest : Bool} {hw : Hw}

theorem readback_keeps (hblock : Block set keys) :
    Keeps (fun x => Shows set block (regs x)) (io.readback ddr) := by
  have hread : ∀ addr, Safe (fun x => Shows set block (regs x)) (axiRead io ddr.bar.toMmioBar addr) :=
    fun addr => .of_keeps (Shows.reads hio hblock addr) (axiRead_error addr)
  refine Spares.keeps (E := (· ≠ 0)) ?_
  refine Spares.bind (hread _) fun _ => ?_
  refine Spares.bind (hread _) fun _ => ?_
  refine Spares.bind (hread _) fun _ => ?_
  refine Spares.bind (hread _) fun _ => ?_
  exact Spares.bind (hread _) fun _ => .pure ()

theorem Abstracts.configClkWiz (fpga : MmioBar) (mode : VideoMode) {x : σ}
    (h : Abstracts ddrBypassTest hw (regs x)) :
    (∀ y, FpgaDrm.configClkWiz io fpga mode x = (.ok (), y) →
      Abstracts ddrBypassTest { hw with clkWiz := some mode } (regs y)) ∧
    ∀ e y, FpgaDrm.configClkWiz io fpga mode x = (.error e, y) →
      e ≠ 0 ∧ Abstracts ddrBypassTest { hw with clkWiz := none } (regs y) := by
  have hvdma : Safe (fun x => Shows (vdmaSet ddrBypassTest) hw.vdma (regs x)) (FpgaDrm.configClkWiz io fpga mode) :=
    configClkWiz_safe (Shows.window hio (vdma_block ddrBypassTest) (by decide) (by decide)) mode
  have hvtc : Safe (fun x => Shows vtcSet hw.vtc (regs x)) (FpgaDrm.configClkWiz io fpga mode) :=
    configClkWiz_safe (Shows.window hio vtc_block (by decide) (by decide)) mode
  refine ⟨fun y hrun => ?_, fun e y hrun => ?_⟩
  · exact ⟨configClkWiz_leaves hio hrun, (hvdma x h.vdma).1 _ y hrun, (hvtc x h.vtc).1 _ y hrun⟩
  · obtain ⟨he, hvdma⟩ := (hvdma x h.vdma).2 e y hrun
    exact ⟨he, .none, hvdma, ((hvtc x h.vtc).2 e y hrun).2⟩

theorem Abstracts.configVdma (fpga : MmioBar) (mode : VideoMode) {x : σ}
    (h : Abstracts ddrBypassTest hw (regs x)) :
    (∀ y, FpgaDrm.configVdma io fpga ddrBypassTest mode x = (.ok (), y) →
      Abstracts ddrBypassTest { hw with vdma := some mode } (regs y)) ∧
    ∀ e y, FpgaDrm.configVdma io fpga ddrBypassTest mode x = (.error e, y) →
      e ≠ 0 ∧ Abstracts ddrBypassTest { hw with vdma := none } (regs y) := by
  have hclkWiz : Safe (fun x => Shows clkWizSet hw.clkWiz (regs x)) (FpgaDrm.configVdma io fpga ddrBypassTest mode) :=
    configVdma_safe (Shows.window hio clkWiz_block (by decide) (by decide)) ddrBypassTest mode
  have hvtc : Safe (fun x => Shows vtcSet hw.vtc (regs x)) (FpgaDrm.configVdma io fpga ddrBypassTest mode) :=
    configVdma_safe (Shows.window hio vtc_block (by decide) (by decide)) ddrBypassTest mode
  refine ⟨fun y hrun => ?_, fun e y hrun => ?_⟩
  · exact ⟨(hclkWiz x h.clkWiz).1 _ y hrun, configVdma_leaves hio hrun, (hvtc x h.vtc).1 _ y hrun⟩
  · obtain ⟨he, hclkWiz⟩ := (hclkWiz x h.clkWiz).2 e y hrun
    exact ⟨he, hclkWiz, .none, ((hvtc x h.vtc).2 e y hrun).2⟩

theorem Abstracts.configVtc (fpga : MmioBar) (mode : VideoMode) {x : σ}
    (h : Abstracts ddrBypassTest hw (regs x)) :
    (∀ y, FpgaDrm.configVtc io fpga mode x = (.ok (), y) →
      Abstracts ddrBypassTest { hw with vtc := some mode } (regs y)) ∧
    ∀ e y, FpgaDrm.configVtc io fpga mode x = (.error e, y) →
      e ≠ 0 ∧ Abstracts ddrBypassTest { hw with vtc := none } (regs y) := by
  have hclkWiz : Safe (fun x => Shows clkWizSet hw.clkWiz (regs x)) (FpgaDrm.configVtc io fpga mode) :=
    configVtc_safe (Shows.window hio clkWiz_block (by decide) (by decide)) mode
  have hvdma : Safe (fun x => Shows (vdmaSet ddrBypassTest) hw.vdma (regs x)) (FpgaDrm.configVtc io fpga mode) :=
    configVtc_safe (Shows.window hio (vdma_block ddrBypassTest) (by decide) (by decide)) mode
  refine ⟨fun y hrun => ?_, fun e y hrun => ?_⟩
  · exact ⟨(hclkWiz x h.clkWiz).1 _ y hrun, (hvdma x h.vdma).1 _ y hrun, configVtc_leaves hio hrun⟩
  · obtain ⟨he, hclkWiz⟩ := (hclkWiz x h.clkWiz).2 e y hrun
    exact ⟨he, hclkWiz, ((hvdma x h.vdma).2 e y hrun).2, .none⟩

/-- The test pattern and the reads at the end touch no register of a block. -/
theorem Abstracts.writeDdrTestPattern (ddr : DdrBypass) (mode : VideoMode) {x : σ}
    (h : Abstracts ddrBypassTest hw (regs x)) :
    Abstracts ddrBypassTest hw (regs (FpgaDrm.writeDdrTestPattern io ddr ddrBypassTest mode x).2) where
  clkWiz := (writeDdrTestPattern_safe (Shows.ddr hio clkWiz_block (by decide)) ddr _ mode).keeps x h.clkWiz
  vdma := (writeDdrTestPattern_safe (Shows.ddr hio (vdma_block _) (by decide)) ddr _ mode).keeps x h.vdma
  vtc := (writeDdrTestPattern_safe (Shows.ddr hio vtc_block (by decide)) ddr _ mode).keeps x h.vtc

theorem Abstracts.readback {x : σ} (h : Abstracts ddrBypassTest hw (regs x)) :
    Abstracts ddrBypassTest hw (regs (io.readback ddr x).2) where
  clkWiz := readback_keeps hio clkWiz_block x h.clkWiz
  vdma := readback_keeps hio (vdma_block _) x h.vdma
  vtc := readback_keeps hio vtc_block x h.vtc

/-- A mode set that meets what the registers answer, at both levels. -/
theorem Abstracts.programMode (ddr : DdrBypass) (p : Params) (mode : VideoMode) {x : σ}
    (h : Abstracts ddrBypassTest hw (regs x)) :
    Abstracts ddrBypassTest
      (FpgaDrm.programMode p mode (io.programRets ddr ddrBypassTest mode x) hw).2
      (regs (io.programMode ddr p.configurePipeline ddrBypassTest mode x).2) ∧
    (FpgaDrm.programMode p mode (io.programRets ddr ddrBypassTest mode x) hw).1 =
      retOf (io.programMode ddr p.configurePipeline ddrBypassTest mode x).1 := by
  by_cases hconf : p.configurePipeline = true
  case neg =>
    unfold FpgaDrm.programMode Mmio.programMode
    rw [Bool.not_eq_true] at hconf
    simp only [hconf]
    exact ⟨h, rfl⟩
  rw [hconf]
  have hprog : io.programMode ddr true ddrBypassTest mode = (do
      FpgaDrm.configClkWiz io ddr.bar.toMmioBar mode
      FpgaDrm.configVdma io ddr.bar.toMmioBar ddrBypassTest mode
      FpgaDrm.configVtc io ddr.bar.toMmioBar mode
      FpgaDrm.writeDdrTestPattern io ddr ddrBypassTest mode
      io.readback ddr) := rfl
  rw [hprog]
  unfold FpgaDrm.programMode Mmio.programRets
  simp only [hconf, Bool.not_true, Bool.false_eq_true, if_false]
  obtain ⟨hok₁, herr₁⟩ := h.configClkWiz hio ddr.bar.toMmioBar mode
  rcases hclkWiz : FpgaDrm.configClkWiz io ddr.bar.toMmioBar mode x with ⟨e | ⟨⟨⟩⟩, x₁⟩
  · obtain ⟨he, habs⟩ := herr₁ e x₁ hclkWiz
    rw [bind_error hclkWiz, if_pos (show retOf (.error e) ≠ 0 from he)]
    exact ⟨habs, rfl⟩
  have h₁ := hok₁ x₁ hclkWiz
  rw [bind_ok hclkWiz, if_neg (show ¬ retOf (.ok ()) ≠ 0 from fun hne => hne rfl)]
  obtain ⟨hok₂, herr₂⟩ := h₁.configVdma hio ddr.bar.toMmioBar mode
  rcases hvdma : FpgaDrm.configVdma io ddr.bar.toMmioBar ddrBypassTest mode x₁ with ⟨e | ⟨⟨⟩⟩, x₂⟩
  · obtain ⟨he, habs⟩ := herr₂ e x₂ hvdma
    rw [bind_error hvdma, if_pos (show retOf (.error e) ≠ 0 from he)]
    exact ⟨habs, rfl⟩
  have h₂ := hok₂ x₂ hvdma
  rw [bind_ok hvdma, if_neg (show ¬ retOf (.ok ()) ≠ 0 from fun hne => hne rfl)]
  obtain ⟨hok₃, herr₃⟩ := h₂.configVtc hio ddr.bar.toMmioBar mode
  rcases hvtc : FpgaDrm.configVtc io ddr.bar.toMmioBar mode x₂ with ⟨e | ⟨⟨⟩⟩, x₃⟩
  · obtain ⟨he, habs⟩ := herr₃ e x₃ hvtc
    rw [bind_error hvtc, if_pos (show retOf (.error e) ≠ 0 from he)]
    exact ⟨habs, rfl⟩
  have h₃ := hok₃ x₃ hvtc
  rw [bind_ok hvtc, if_neg (show ¬ retOf (.ok ()) ≠ 0 from fun hne => hne rfl)]
  have h₄ := h₃.writeDdrTestPattern hio ddr mode
  have hpattern_error : Safe (fun _ => True) (FpgaDrm.writeDdrTestPattern io ddr ddrBypassTest mode) :=
    writeDdrTestPattern_safe .trivial ddr ddrBypassTest mode
  rcases hpattern : FpgaDrm.writeDdrTestPattern io ddr ddrBypassTest mode x₃ with ⟨e | ⟨⟨⟩⟩, x₄⟩
  · rw [hpattern] at h₄
    have he : e ≠ 0 := hpattern_error.error trivial hpattern
    rw [bind_error hpattern, if_pos (show retOf (.error e) ≠ 0 from he)]
    exact ⟨h₄, rfl⟩
  rw [hpattern] at h₄
  rw [bind_ok hpattern, if_neg (show ¬ retOf (.ok ()) ≠ 0 from fun hne => hne rfl)]
  exact ⟨h₄.readback hio, rfl⟩

/-! ## Runs -/

omit hio in
theorem commitMove_hw {p : Params} {s t : Sys} (h : Sys.CommitMove p s t)
    (hset : ∀ c mode, s.commit ≠ .program c mode) : t.hw = s.hw := by
  cases h with
  | stop caller pc hc ht => cases ht <;> rfl
  | programFailed c mode r hc => exact absurd hc (hset c mode)
  | program c mode r hc => exact absurd hc (hset c mode)
  | _ => rfl

omit hio in
/-- Only a mode set changes what is recorded of the blocks. -/
theorem step_hw {p : Params} {a : Act} {s t : Sys} (h : FpgaDrm.step p a s = .some t)
    (hset : ∀ r c mode, a = .commit r → s.commit ≠ .program c mode) : t.hw = s.hw := by
  cases a with
  | begin c =>
    obtain ⟨-, rfl⟩ := Sys.beginCommit_eq h
    rfl
  | remove =>
    have h : s.beginRemove = .some t := h
    unfold Sys.beginRemove at h
    split at h
    · split at h
      · cases h
      · cases h
        rfl
    · cases h
  | commit r => exact commitMove_hw (Sys.commitStep_move h) fun c mode => hset r c mode rfl
  | upload ret => cases Sys.uploadStep_move h <;> rfl
  | complete => cases Sys.completeStep_move h <;> rfl
  | service ok => cases Sys.serviceStep_move h <;> rfl
  | callback => cases Sys.callbackStep_move h <;> rfl
  | timeoutBegin => cases Sys.timeoutBegin_move h <;> rfl
  | timeout => cases Sys.timeoutStep_move h <;> rfl

omit hio in
theorem Abstracts.congr {x y : σ} (h : Abstracts ddrBypassTest hw (regs x))
    (hsame : ∀ k, displayHardware.drift k (regs x k) (regs y k)) : Abstracts ddrBypassTest hw (regs y) where
  clkWiz := h.clkWiz.congr clkWiz_block fun k hk => (clkWiz_block.stored k hk).drift (hsame k)
  vdma := h.vdma.congr (vdma_block _) fun k hk => ((vdma_block ddrBypassTest).stored k hk).drift (hsame k)
  vtc := h.vtc.congr vtc_block fun k hk => (vtc_block.stored k hk).drift (hsame k)

/-- A step over the registers is a step of the state machine, or none. -/
theorem step_refines {tick : σ → σ}
    (htick : ∀ x k, displayHardware.drift k (regs x k) (regs (tick x) k)) {p : Params} (a : Option Act)
    {s t : Sys} {x y : σ} (hs : Abstracts ddrBypassTest s.hw (regs x))
    (h : io.step ddr ddrBypassTest tick p a (s, x) = .some (t, y)) :
    ∃ as, run (FpgaDrm.step p) as s = .some t ∧ Abstracts ddrBypassTest t.hw (regs y) := by
  cases a with
  | none =>
    cases h
    exact ⟨[], rfl, hs.congr (htick x)⟩
  | some a =>
    have h : (FpgaDrm.step p (io.meet ddr ddrBypassTest p a s x).1 s).map
        (fun s' => (s', (io.meet ddr ddrBypassTest p a s x).2)) = .some (t, y) := h
    rw [Option.map_eq_some_iff] at h
    obtain ⟨t', ht, heq⟩ := h
    obtain ⟨rfl, rfl⟩ := Prod.mk.inj heq
    refine ⟨[(io.meet ddr ddrBypassTest p a s x).1], run_cons_some.2 ⟨t', ht, rfl⟩, ?_⟩
    unfold Mmio.meet at ht ⊢
    split at ht
    next r c mode hc =>
      -- A mode set: the label's returns are those of the registers.
      have hset := (hs.programMode hio ddr p mode).1
      have hhw : t'.hw = (FpgaDrm.programMode p mode (io.programRets ddr ddrBypassTest mode x) s.hw).2 := by
        have ht : s.commitStep p (io.programRets ddr ddrBypassTest mode x) = .some t' := ht
        unfold Sys.commitStep at ht
        rw [hc] at ht
        obtain rfl := Option.some.inj ht
        rfl
      rw [hhw]
      exact hset
    next hother =>
      rw [step_hw ht fun r c mode ha hc => hother r c mode ha hc]
      exact hs

/-- Every run of the driver over the registers is a run of the state machine, and while the
pipe is enabled, or a frame is on its way, the registers are those of the active mode. -/
theorem mode_sets_refine {tick : σ → σ}
    (htick : ∀ x k, displayHardware.drift k (regs x k) (regs (tick x) k)) {p : Params}
    {as : List (Option Act)} {x₀ : σ} {s : Sys} {x : σ}
    (h : run (io.step ddr ddrBypassTest tick p) as (init, x₀) = .some (s, x)) :
    Reachable p s ∧ Abstracts ddrBypassTest s.hw (regs x) ∧
    (p.configurePipeline = true → s.pipeEnabled = true ∨ s.HoldsSnapshots →
      ∀ r ∈ clkWizSet s.activeMode ++ (vdmaSet ddrBypassTest s.activeMode ++ vtcSet s.activeMode),
        regs x r.1 = r.2) := by
  have hstep : ∀ (a : Option Act) (s : Sys) (st st' : Sys × σ),
      (st.1 = s ∧ Abstracts ddrBypassTest s.hw (regs st.2)) →
      io.step ddr ddrBypassTest tick p a st = .some st' →
      ∃ as s', run (FpgaDrm.step p) as s = .some s' ∧
        (st'.1 = s' ∧ Abstracts ddrBypassTest s'.hw (regs st'.2)) := by
    rintro a s st st' ⟨rfl, hs⟩ ha
    obtain ⟨as, hrun, hs'⟩ := step_refines hio htick a hs ha
    exact ⟨as, st'.1, hrun, rfl, hs'⟩
  obtain ⟨bs, t, hrun, rfl, habs⟩ := run_simulates hstep ⟨rfl, .none, .none, .none⟩ h
  have hreach : Reachable p s := ⟨bs, hrun⟩
  refine ⟨hreach, habs, fun hconf hon r hr => ?_⟩
  have hall := hreach.modeOk.hw hconf hon
  rw [hall] at habs
  rcases List.mem_append.1 hr with hr | hr
  · exact habs.clkWiz _ rfl r hr
  rcases List.mem_append.1 hr with hr | hr
  · exact habs.vdma _ rfl r hr
  · exact habs.vtc _ rfl r hr

end

/-- The registers after the first modeset. -/
theorem mode_sets_refine_modeset : ∃ s x,
    run (fileMmio.step ⟨⟨true, 0x04000000, 0x04000000, 2, "bypass"⟩, true, true⟩ false id allOn)
      ((.begin (vgaFrame true) :: commitSteps 12).map .some) (init, fun _ => 0) = .some (s, x) ∧
    s.pipeEnabled = true ∧
    ∀ r ∈ clkWizSet s.activeMode ++ (vdmaSet false s.activeMode ++ vtcSet s.activeMode),
      (x r.1).toNat = r.2 := by
  have hio : RegisterMmio fileMmio fun file k => (file k).toNat :=
    ⟨fun offset file => SimpleDisplay.readFile_read (axi offset) file,
      fun value offset file hv => SimpleDisplay.writeFile_write (axi offset) hv file⟩
  have hrun : (run (fileMmio.step ⟨⟨true, 0x04000000, 0x04000000, 2, "bypass"⟩, true, true⟩ false id
      allOn) ((.begin (vgaFrame true) :: commitSteps 12).map .some) (init, fun _ => 0)).any
        (fun st => st.1.pipeEnabled) = true := by
    decide +kernel
  obtain ⟨⟨s, x⟩, hs, hpipe⟩ := run_any hrun
  exact ⟨s, x, hs, hpipe,
    (mode_sets_refine hio (fun x k => SimpleDisplay.drift_refl k _) hs).2.2 rfl (.inl hpipe)⟩

end FpgaDrm
