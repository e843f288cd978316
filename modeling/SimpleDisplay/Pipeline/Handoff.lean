import Mathlib.Tactic.FinCases
import SimpleDisplay.Pipeline.Firmware
import SimpleDisplay.Pipeline.Linux

/-!
# The handoff from the firmware to Linux

Given the same timing in their own mode structures, the two drivers leave the same values
in the clock wizard, the timing generator and the read channel of the VDMA, and for fields
of 13 bits the timing can be read back from the timing generator.
-/

namespace SimpleDisplay

open Word Registers
open FpgaDrm (VideoMode Mmio MmioBar RegisterMmio configPipeline)

/-- One timing record in both structures, `line_bytes` as `FPGA_MODE` makes it. -/
structure SameRecord (mode : Mode) (m : VideoMode) : Prop where
  hdisplay : m.drm.hdisplay = mode.horizontalActive
  hsyncStart : m.drm.hsyncStart = mode.horizontalSyncStart
  hsyncEnd : m.drm.hsyncEnd = mode.horizontalSyncEnd
  htotal : m.drm.htotal = mode.horizontalTotal
  vdisplay : m.drm.vdisplay = mode.verticalActive
  vsyncStart : m.drm.vsyncStart = mode.verticalSyncStart
  vsyncEnd : m.drm.vsyncEnd = mode.verticalSyncEnd
  vtotal : m.drm.vtotal = mode.verticalTotal
  phsync : m.drm.flags &&& FpgaDrm.flagPHSync ≠ 0 ↔ mode.positiveHSync = true
  pvsync : m.drm.flags &&& FpgaDrm.flagPVSync ≠ 0 ↔ mode.positiveVSync = true
  lineBytes : m.lineBytes = 4 * m.drm.hdisplay
  clkCfg0 : m.clkCfg0 = mode.clockConfig0
  clkCfg2 : m.clkCfg2 = mode.clockConfig2

/-- The registers that the two drivers must agree on, the stride aside. -/
def sharedRegisters : List Nat :=
  clockLoadRegister :: clockRegisters ++ vtcControlRegister :: vtcGeneratorRegisters ++
    [mm2sHorizontalSize, mm2sVerticalSize, mm2sFrameStore, mm2sStartAddress]

/-- The timing generator holds what `ConfigureVtc` writes for the mode. -/
def VtcImage (mode : Mode) (file : Nat → Nat) : Prop := ∀ p ∈ vtcWrites mode, file p.1 = p.2

/-- What the timing generator is given of a mode. -/
def Mode.timing (mode : Mode) : List Nat × Bool × Bool :=
  ([mode.horizontalActive, mode.horizontalSyncStart, mode.horizontalSyncEnd, mode.horizontalTotal,
    mode.verticalActive, mode.verticalSyncStart, mode.verticalSyncEnd, mode.verticalTotal],
    mode.positiveHSync, mode.positiveVSync)

/-! ## Same writes -/

section

variable {mode : Mode} {m : VideoMode} (h : SameRecord mode m)
include h

theorem polarity_eq : FpgaDrm.vtcPolarity m.drm = polarity mode := by
  unfold FpgaDrm.vtcPolarity polarity
  simp only [h.phsync, h.pvsync]
  rfl

theorem vtcWrites_eq : FpgaDrm.vtcWrites m.drm = vtcWrites mode := by
  unfold FpgaDrm.vtcWrites vtcWrites
  rw [polarity_eq h, h.hdisplay, h.hsyncStart, h.hsyncEnd, h.htotal, h.vdisplay, h.vsyncStart,
    h.vsyncEnd, h.vtotal]
  rfl

theorem clockWrites_eq : FpgaDrm.clkWizWrites m = clockWrites mode := by
  unfold FpgaDrm.clkWizWrites clockWrites
  rw [h.clkCfg0, h.clkCfg2]
  rfl

theorem lineBytes_eq : m.lineBytes % 2 ^ 32 = lineBytes mode % 2 ^ 32 := by
  unfold lineBytes bytesPerPixel
  rw [h.lineBytes, h.hdisplay, u32_natCast, Nat.mul_comm]
  omega

/-- What both drivers know of the registers in the end. -/
theorem shared_lookup (control reg : Nat) : ∀ k ∈ sharedRegisters, ∃ v,
    (firmwareKnown mode control).lookup k = some v ∧
    (FpgaDrm.linuxKnown m control reg).lookup k = some v := by
  unfold FpgaDrm.linuxKnown FpgaDrm.vdmaWrites
  rw [vtcWrites_eq h, clockWrites_eq h, lineBytes_eq h, h.vdisplay]
  intro k hk
  fin_cases hk <;> exact ⟨_, rfl, rfl⟩

end

/-! ## The timing can be read back -/

theorem pack_eq {a b : Nat} (ha : a < 2 ^ 16) : a ||| (b <<< 16) = a + b * 2 ^ 16 := by
  rw [Nat.or_comm, ← Nat.shiftLeft_add_eq_or_of_lt ha, Nat.shiftLeft_eq]
  omega

theorem vtcPack_eq (start finish : Nat) :
    vtcPack start finish = start % 2 ^ 14 + finish % 2 ^ 14 * 2 ^ 16 := by
  unfold vtcPack
  rw [show 0x3FFF = 2 ^ 14 - 1 from rfl, Nat.and_two_pow_sub_one_eq_mod,
    Nat.and_two_pow_sub_one_eq_mod, pack_eq (by omega)]

/-- Two fields of 14 bits in one word. -/
theorem word_inj {lo hi lo' hi' : Nat} (hlo : lo < 2 ^ 14) (hlo' : lo' < 2 ^ 14) (hhi : hi < 2 ^ 14)
    (hhi' : hi' < 2 ^ 14) (h : (lo + hi * 2 ^ 16) % 2 ^ 32 = (lo' + hi' * 2 ^ 16) % 2 ^ 32) :
    lo = lo' ∧ hi = hi' := by
  omega

theorem vtcPack_inj {start finish start' finish' : Nat}
    (h : vtcPack start finish % 2 ^ 32 = vtcPack start' finish' % 2 ^ 32) :
    start % 2 ^ 14 = start' % 2 ^ 14 ∧ finish % 2 ^ 14 = finish' % 2 ^ 14 := by
  rw [vtcPack_eq, vtcPack_eq] at h
  exact word_inj (by omega) (by omega) (by omega) (by omega) h

/-- The vertical sync is programmed one line early, 0 as the last 14-bit value. -/
theorem early_inj {v v' : Nat} (hv : v < 2 ^ 13) (hv' : v' < 2 ^ 13)
    (h : Word.u32 (v - 1) % 2 ^ 14 = Word.u32 (v' - 1) % 2 ^ 14) : v = v' := by
  unfold Word.u32 at h
  omega

/-- Every timing field fits 13 bits. -/
def Mode.FitsVtc (mode : Mode) : Prop := ∀ field ∈ mode.timing.1, field < 2 ^ 13

theorem polarity_inj {mode other : Mode} (h : polarity mode % 2 ^ 32 = polarity other % 2 ^ 32) :
    mode.positiveHSync = other.positiveHSync ∧ mode.positiveVSync = other.positiveVSync := by
  unfold polarity at h
  revert h
  generalize mode.positiveHSync = h₁
  generalize mode.positiveVSync = v₁
  generalize other.positiveHSync = h₂
  generalize other.positiveVSync = v₂
  revert h₁ v₁ h₂ v₂
  decide

theorem shift_eq {v : Nat} (h : v < 2 ^ 13) : u32 (v <<< 16 : Nat) = v <<< 16 := by
  rw [u32_natCast, Nat.shiftLeft_eq]
  omega

/-- The same registers are written for every mode. -/
theorem VtcImage.values_eq {mode other : Mode} {file : Nat → Nat} (h : VtcImage mode file)
    (h' : VtcImage other file) :
    (vtcWrites mode).map Prod.snd = (vtcWrites other).map Prod.snd := by
  have hread : ∀ {mode : Mode}, VtcImage mode file →
      (vtcWrites mode).map Prod.snd = ((vtcWrites mode).map Prod.fst).map file := by
    intro mode h
    rw [List.map_map]
    exact List.map_congr_left fun p hp => (h p hp).symm
  have hkeys : (vtcWrites mode).map Prod.fst = (vtcWrites other).map Prod.fst := by
    unfold vtcWrites
    simp only [List.map_cons, List.map_nil]
  rw [hread h, hread h', hkeys]

/-- Two modes with the same image have the same timing. -/
theorem vtcImage_inj {mode other : Mode} {file : Nat → Nat} (hfits : mode.FitsVtc)
    (hfits' : other.FitsVtc) (h : VtcImage mode file) (h' : VtcImage other file) :
    mode.timing = other.timing := by
  have hvalues := h.values_eq h'
  unfold vtcWrites at hvalues
  simp only [List.map_cons, List.map_nil, List.cons.injEq, and_true] at hvalues
  obtain ⟨hpolarity, -, -, -, -, -, -, hvsync, hhsync, -, hactive, hvtotal, hhtotal⟩ := hvalues
  obtain ⟨hpos, hpos'⟩ := polarity_inj hpolarity
  simp only [Mode.FitsVtc, Mode.timing, List.forall_mem_cons, List.not_mem_nil, false_implies,
    implies_true, and_true] at hfits hfits'
  obtain ⟨ha, hss, hse, ht, va, vss, vse, vt⟩ := hfits
  obtain ⟨ha', hss', hse', ht', va', vss', vse', vt'⟩ := hfits'
  rw [shift_eq va, shift_eq va', pack_eq (by omega), pack_eq (by omega)] at hactive
  rw [shift_eq vt, shift_eq vt', pack_eq (by omega), pack_eq (by omega)] at hvtotal
  have hwide : ∀ {v : Nat}, v < 2 ^ 13 → v < 2 ^ 14 := fun hv => hv.trans (by decide)
  obtain ⟨hhactive, hvactive⟩ := word_inj (hwide ha) (hwide ha') (hwide va) (hwide va') hactive
  obtain ⟨hlines, -⟩ := word_inj (hwide vt) (hwide vt') (hwide vt) (hwide vt') hvtotal
  obtain ⟨hhstart, hhend⟩ := vtcPack_inj hhsync
  obtain ⟨hvstart, hvend⟩ := vtcPack_inj hvsync
  unfold Mode.timing
  rw [hpos, hpos', hhactive, hvactive, hlines, early_inj vss vss' hvstart,
    early_inj vse vse' hvend, show mode.horizontalSyncStart = other.horizontalSyncStart by omega,
    show mode.horizontalSyncEnd = other.horizontalSyncEnd by omega,
    show mode.horizontalTotal = other.horizontalTotal by omega]

/-! ## Top theorem -/

theorem vtcWrites_generator (mode : Mode) : ∀ p ∈ vtcWrites mode, p.1 ∈ vtcGeneratorRegisters := by
  intro p hp
  fin_cases hp <;> dsimp only <;> decide

theorem firmware_vtcImage {mode : Mode} {control : Nat} {file : Nat → Nat}
    (h : displayHardware.Knows (firmwareKnown mode control) file) : VtcImage mode file := by
  have hlookup : ∀ p ∈ vtcWrites mode, (firmwareKnown mode control).lookup p.1 = some p.2 := by
    intro p hp
    fin_cases hp <;> rfl
  intro p hp
  exact stored_eq (by simp [vtcWrites_generator mode p hp]) h (hlookup p hp)

theorem shared_eq {mode : Mode} {m : VideoMode} (hrecord : SameRecord mode m) {control reg : Nat}
    {file file' : Nat → Nat} (h : displayHardware.Knows (firmwareKnown mode control) file)
    (h' : displayHardware.Knows (FpgaDrm.linuxKnown m control reg) file') :
    ∀ k ∈ sharedRegisters, file k = file' k := by
  have hstored : ∀ k ∈ sharedRegisters, k = clockLoadRegister ∨
      k ∈ clockRegisters ++ (vtcControlRegister :: vtcGeneratorRegisters) ++ mm2sRegisters := by
    decide
  intro k hk
  obtain ⟨v, hv, hv'⟩ := shared_lookup hrecord control reg k hk
  rcases hstored k hk with rfl | hmem
  · -- The load bit was seen clear by both, and stays clear.
    obtain rfl : 2 = v := Option.some.inj hv
    rw [clockLoad_settled (h _ _ hv), clockLoad_settled (h' _ _ hv')]
  · rw [stored_eq hmem h hv, stored_eq hmem h' hv']

theorem stride_mod (line : Nat) :
    (u32 (1 <<< 24 : Nat) ||| line) % 2 ^ 32 % 2 ^ 16 = line % 2 ^ 32 % 2 ^ 16 := by
  have hhigh : u32 (1 <<< 24 : Nat) % 2 ^ 16 = 0 := by decide
  rw [Nat.mod_mod_of_dvd _ (by decide), Nat.mod_mod_of_dvd _ (by decide), Nat.or_mod_two_pow,
    hhigh, Nat.zero_or]

/-- After both drivers have programmed the pipeline for one record, from the same registers
and with any responses on which they succeed, the shared registers hold the same values, the
strides agree in their low 16 bits, and no other record of 13-bit fields has this image. -/
theorem same_pipeline {σ τ : Type} {pci : PciIo σ} {regs : σ → Nat → Nat}
    (hbus : RegisterBus pci regs) {io : Mmio τ} {regs' : τ → Nat → Nat}
    (hio : RegisterMmio io regs') {context : HwContext} {s₀ s₁ : σ}
    (hinit : hwInitializeContext pci s₀ = (.ok context, s₁)) {fpga : MmioBar} {mode : Mode}
    {m : VideoMode} (hrecord : SameRecord mode m) {s t : σ} {s' t' : τ}
    (hfile : regs s = regs' s') (hfirmware : hwProgramMode pci context mode s = (.ok (), t))
    (hlinux : configPipeline io fpga m s' = (.ok (), t')) :
    (∀ k ∈ sharedRegisters, regs t k = regs' t' k) ∧
    regs t mm2sStride % 2 ^ 16 = regs' t' mm2sStride % 2 ^ 16 ∧
    VtcImage mode (regs t) ∧ VtcImage mode (regs' t') ∧
    ∀ other : Mode, mode.FitsVtc → other.FitsVtc →
      VtcImage other (regs t) → other.timing = mode.timing := by
  have hbar := hwInitializeContext_barIndex hinit
  have hknown : ∀ file : Nat → Nat,
      displayHardware.Knows [(vtcControlRegister, file vtcControlRegister)] file := by
    intro file k v hv
    rw [Hardware.lookup_cons] at hv
    by_cases hk : k = vtcControlRegister
    · rw [if_pos hk, Option.some.injEq] at hv
      subst hk hv
      exact rfl
    · rw [if_neg hk] at hv
      cases hv
  obtain ⟨_, rfl, hfw⟩ := (hwProgramMode_learns hbus hbar mode
    (regs s vtcControlRegister) s (hknown _)).1 () t hfirmware
  obtain ⟨_, ⟨reg, rfl⟩, hlx⟩ := (FpgaDrm.configPipeline_learns hio m
    (regs' s' vtcControlRegister) s' (hknown _)).1 () t' hlinux
  rw [← hfile] at hlx
  refine ⟨?_, ?_, firmware_vtcImage hfw, ?_, ?_⟩
  · exact shared_eq hrecord hfw hlx
  · rw [stored_eq (by decide) hfw (show _ = some (lineBytes mode % 2 ^ 32) from rfl),
      stored_eq (by decide) hlx
        (show _ = some ((u32 (1 <<< 24 : Nat) ||| m.lineBytes) % 2 ^ 32) from rfl),
      stride_mod, lineBytes_eq hrecord]
  · intro p hp
    rw [← firmware_vtcImage hfw p hp]
    have hmem := vtcWrites_generator mode p hp
    exact (shared_eq hrecord hfw hlx p.1 (by simp [sharedRegisters, hmem])).symm
  · intro other hfits hfits' hother
    exact (vtcImage_inj hfits hfits' (firmware_vtcImage hfw) hother).symm

/-- What the status registers and the registers of the other blocks read. -/
def answers : List (Nat × Nat) := [
  (axi identityOffset, abiMagic), (axi (identityOffset + 4), abiVersion),
  (axi (identityOffset + 8), 3), (axi (identityOffset + 12), 4096),
  (axi (pixelUnpackOffset + pixelUnpackMode), 1), (axi (colorOffset + colorC1C1), 256),
  (axi (colorOffset + colorC2C2), 256), (axi (colorOffset + colorC3C3), 256),
  (axi (iicOffset + iicStatus), iicStatusTxFifoEmpty),
  (axi (clockOffset + clockStatus), clockStatusLocked)]

/-- Registers that answer as the drivers wait for: the bits that clear by themselves are
cleared when they are read. -/
def respond (a x : Nat) : Nat :=
  match behaviour a with
  | .stored => x
  | .selfClearing mask => x ^^^ (x &&& mask)
  | .volatile => (answers.lookup a).getD 0

abbrev RegisterFile := Nat → BitVec 32

def readFile (a : Nat) (file : RegisterFile) : BitVec 32 × RegisterFile :=
  let v := .ofNat 32 (respond a (file a).toNat)
  (v, fun k => if k = a then v else file k)

def writeFile (a v : Nat) (file : RegisterFile) : RegisterFile := fun k =>
  if k = a then .ofNat 32 v else file k

def filePci : PciIo RegisterFile where
  attributes _ _ file := ((.success, 0), file)
  pciRead8 _ count file := ((.success, List.replicate count 0), file)
  pciRead16 _ file := ((.success, 0), file)
  pciWrite16 _ _ file := (.success, file)
  getBarAttributes _ file := ((.success, some ⟨0x8A, 0, 0, barMinSize, barMinSize_lt⟩), file)
  memRead _ offset _ file :=
    ((.success, leBytes (readFile (axi offset) file).1.toNat), (readFile (axi offset) file).2)
  memWrite _ offset _ bytes file := (.success, writeFile (axi offset) (leWord bytes) file)

def fileMmio : Mmio RegisterFile where
  ioread32 offset file :=
    ((readFile (axi offset) file).1.toNat, (readFile (axi offset) file).2)
  iowrite32 value offset file := writeFile (axi offset) value file

theorem drift_refl (a u : Nat) : displayHardware.drift a u u := by
  show (behaviour a).drift u u
  rcases behaviour a with _ | mask | _
  · rfl
  · exact fun i => .inl rfl
  · trivial

theorem respond_drift (a : Nat) {x : Nat} (hx : x < 2 ^ 32) :
    displayHardware.drift a x (respond a x % 2 ^ 32) := by
  show (behaviour a).drift x _
  unfold respond
  rcases behaviour a with _ | mask | _
  · exact Nat.mod_eq_of_lt hx
  · dsimp only
    rw [Nat.mod_eq_of_lt (Nat.xor_lt_two_pow hx (Nat.lt_of_le_of_lt Nat.and_le_left hx))]
    intro i
    rw [Nat.testBit_xor, Nat.testBit_and]
    cases x.testBit i <;> cases mask.testBit i <;> simp
  · trivial

theorem readFile_read (a : Nat) (file : RegisterFile) :
    displayHardware.Read (fun k => (file k).toNat) a (readFile a file).1.toNat
      (fun k => ((readFile a file).2 k).toNat) := by
  refine ⟨respond_drift a (file a).isLt, ?_, ?_⟩
  · simp [readFile, drift_refl]
  · intro k hk
    simp [readFile, hk, drift_refl]

theorem writeFile_write (a : Nat) {v : Nat} (hv : v < 2 ^ 32) (file : RegisterFile) :
    displayHardware.Write (fun k => (file k).toNat) a v
      (fun k => (writeFile a v file k).toNat) := by
  refine ⟨?_, ?_⟩
  · have hmod : v % 4294967296 = v := Nat.mod_eq_of_lt hv
    simp [writeFile, hmod, drift_refl]
  · intro k hk _
    simp [writeFile, hk, drift_refl]

theorem filePci_bus : RegisterBus filePci fun file k => (file k).toNat := by
  refine ⟨fun offset file _ => ?_, fun offset bytes file _ => ?_⟩
  · show displayHardware.Read _ _ (leWord (leBytes _)) _
    rw [leWord_leBytes, Nat.mod_eq_of_lt (BitVec.isLt _)]
    exact readFile_read (axi offset) file
  · exact writeFile_write (axi offset) (leWord_lt bytes) file

/-- The preferred mode of Linux is mode 0 of the firmware. -/
theorem same_pipeline_preferred : ∃ context start t t',
    hwInitializeContext filePci (fun _ => 0) = (.ok context, start) ∧
    hwProgramMode filePci context modes[0]! start = (.ok (), t) ∧
    configPipeline fileMmio ⟨true, "bypass", 0x04000000⟩ FpgaDrm.preferredMode start =
      (.ok (), t') ∧
    ∀ k ∈ sharedRegisters, (t k).toNat = (t' k).toNat := by
  have hio : RegisterMmio fileMmio fun file k => (file k).toNat :=
    ⟨fun offset file => readFile_read (axi offset) file,
      fun value offset file hv => writeFile_write (axi offset) hv file⟩
  have hrecord : SameRecord modes[0]! FpgaDrm.preferredMode :=
    ⟨by decide, by decide, by decide, by decide, by decide, by decide, by decide, by decide,
      by decide, by decide, by decide, by decide, by decide⟩
  have hfw : ((do let context ← hwInitializeContext filePci
                  hwProgramMode filePci context modes[0]! : Efi RegisterFile Unit) fun _ => 0).1.isOk =
      true := by
    decide +kernel
  have hlx : (configPipeline fileMmio ⟨true, "bypass", 0x04000000⟩ FpgaDrm.preferredMode
      (hwInitializeContext filePci fun _ => 0).2).1.isOk = true := by
    decide +kernel
  rcases hrun : (do let context ← hwInitializeContext filePci
                    hwProgramMode filePci context modes[0]! : Efi RegisterFile Unit) fun _ => 0
    with ⟨_ | ⟨⟨⟩⟩, t⟩
  · rw [hrun] at hfw
    cases hfw
  obtain ⟨context, start, hinit, hprog⟩ := Efi.bind_ok hrun
  rw [hinit] at hlx
  rcases hrun' : configPipeline fileMmio ⟨true, "bypass", 0x04000000⟩ FpgaDrm.preferredMode start
    with ⟨_ | ⟨⟨⟩⟩, t'⟩
  · rw [hrun'] at hlx
    cases hlx
  exact ⟨context, start, t, t', hinit, hprog, hrun',
    (same_pipeline filePci_bus hio hinit hrecord rfl hprog hrun').1⟩

end SimpleDisplay
