import SimpleDisplay.Pipeline.Hardware

/-!
# What the firmware leaves in the registers

Each block of `SimpleDisplayHwProgramMode` adds to what is known of the registers;
`hwProgramMode_learns` is the whole.
-/

namespace SimpleDisplay

open Word Registers

/-- `PciIo` reaches the registers of the pipeline through BAR2: an access that succeeds
reads or writes the register at its offset. -/
structure RegisterBus {σ : Type} (pci : PciIo σ) (regs : σ → Nat → Nat) : Prop where
  read : ∀ offset s, let r := pci.memRead barIndex offset 1 s
    r.1.1.isError = false → displayHardware.Read (regs s) (axi offset) (leWord r.1.2) (regs r.2)
  write : ∀ offset bytes s, let r := pci.memWrite barIndex offset 1 bytes s
    r.1.isError = false → displayHardware.Write (regs s) (axi offset) (leWord bytes) (regs r.2)

/-- The values that `ConfigureVtc` writes, the last register first. -/
def vtcWrites (mode : Mode) : List (Nat × Nat) :=
  let vSyncStart := u32 (mode.verticalSyncStart - 1)
  let vSyncEnd := u32 (mode.verticalSyncEnd - 1)
  [(axi (vtcOffset + vtcPolarity), polarity mode % 2 ^ 32),
    (axi (vtcOffset + vtcFrameEncoding), 0),
    (axi (vtcOffset + vtcVerticalSyncOffsetF1),
      vtcPack mode.horizontalSyncStart mode.horizontalSyncStart % 2 ^ 32),
    (axi (vtcOffset + vtcVerticalSyncOffset),
      vtcPack mode.horizontalSyncStart mode.horizontalSyncStart % 2 ^ 32),
    (axi (vtcOffset + vtcVerticalBlankOffsetF1),
      vtcPack mode.horizontalActive mode.horizontalActive % 2 ^ 32),
    (axi (vtcOffset + vtcVerticalBlankOffset),
      vtcPack mode.horizontalActive mode.horizontalActive % 2 ^ 32),
    (axi (vtcOffset + vtcVerticalSyncF1), vtcPack vSyncStart vSyncEnd % 2 ^ 32),
    (axi (vtcOffset + vtcVerticalSync), vtcPack vSyncStart vSyncEnd % 2 ^ 32),
    (axi (vtcOffset + vtcHorizontalSync),
      vtcPack mode.horizontalSyncStart mode.horizontalSyncEnd % 2 ^ 32),
    (axi (vtcOffset + vtcActiveSizeF1), u32 (mode.verticalActive <<< 16 : Nat) % 2 ^ 32),
    (axi (vtcOffset + vtcActiveSize),
      (mode.horizontalActive ||| u32 (mode.verticalActive <<< 16 : Nat)) % 2 ^ 32),
    (axi (vtcOffset + vtcVerticalSize),
      (mode.verticalTotal ||| u32 (mode.verticalTotal <<< 16 : Nat)) % 2 ^ 32),
    (axi (vtcOffset + vtcHorizontalSize), mode.horizontalTotal % 2 ^ 32)]

/-- The control register of the timing generator after the update of `control`. -/
def vtcControlValue (control : Nat) : Nat :=
  ((control &&& (maxUint32 ^^^ vtcControlAllSourceSelect)) ||| (vtcControlSoftwareEnable |||
    vtcControlGeneratorEnable ||| vtcControlRegisterUpdate)) % 2 ^ 32

def clockWrites (mode : Mode) : List (Nat × Nat) :=
  [(clockLoadRegister, 2), (clockLoadRegister, 3), (axi (clockOffset + clockConfig4), clockDuty50Percent),
    (axi (clockOffset + clockConfig3), 0),
    (axi (clockOffset + clockConfig2), mode.clockConfig2 % 2 ^ 32),
    (axi (clockOffset + clockConfig1), 0),
    (axi (clockOffset + clockConfig0), mode.clockConfig0 % 2 ^ 32)]

def mm2sWrites (mode : Mode) : List (Nat × Nat) :=
  [(mm2sVerticalSize, mode.verticalActive % 2 ^ 32), (mm2sStartAddress, ddrFrameAddress),
    (mm2sStride, lineBytes mode % 2 ^ 32), (mm2sHorizontalSize, lineBytes mode % 2 ^ 32),
    (mm2sFrameStore, 1)]

section

variable {σ : Type} {pci : PciIo σ} {regs : σ → Nat → Nat} (hbus : RegisterBus pci regs)
  {context : HwContext} (hbar : context.barIndex = barIndex) {known : List (Nat × Nat)}
include hbus hbar

/-! ## Accesses -/

theorem read32_reads (offset : Nat) :
    Reads displayHardware regs (read32 pci context offset) (axi offset) := by
  intro s v t h
  unfold read32 at h
  split at h
  · cases h
  · rw [hbar, show barIndex % 256 = barIndex from rfl] at h
    dsimp only at h
    rw [Prod.mk.injEq] at h
    obtain ⟨hvalue, rfl⟩ := h
    unfold Status.andReturn at hvalue
    by_cases herr : (pci.memRead barIndex offset 1 s).1.1.isError = true
    · rw [if_pos herr] at hvalue
      cases hvalue
    · rw [if_neg herr] at hvalue
      obtain rfl := Except.ok.inj hvalue
      exact hbus.read offset s (by simpa using herr)

theorem write32_writes (offset value : Nat) :
    Writes displayHardware regs (write32 pci context offset value) (axi offset)
      (value % 2 ^ 32) := by
  intro s u t h
  unfold write32 at h
  split at h
  · cases h
  · rw [hbar, show barIndex % 256 = barIndex from rfl] at h
    dsimp only at h
    rw [Prod.mk.injEq] at h
    obtain ⟨hvalue, rfl⟩ := h
    unfold Status.andReturn at hvalue
    by_cases herr : (pci.memWrite barIndex offset 1 (leBytes value) s).1.isError = true
    · rw [if_pos herr] at hvalue
      cases hvalue
    · rw [← leWord_leBytes]
      exact hbus.write offset (leBytes value) s (by simpa using herr)

/-- A poll that ends well has read a value that passes. -/
theorem waitForBits_learns (offset clearMask setMask timeout poll : Nat) :
    Learns displayHardware regs known (waitForBits pci context offset clearMask setMask timeout poll)
      fun _ known' => ∃ v, v &&& clearMask = 0 ∧ v &&& setMask = setMask ∧
        known' = (axi offset, v) :: known ∧
        ∀ u, known.lookup (axi offset) = some u → displayHardware.drift (axi offset) u v := by
  unfold waitForBits
  generalize (timeout + poll - 1) / poll = n
  induction n with
  | zero => exact .throw
  | succ n ih =>
    apply (read32_reads hbus hbar offset).learns.bind
    rintro v _ ⟨rfl, hvalue⟩
    by_cases hdone : v &&& clearMask = 0 ∧ v &&& setMask = setMask
    · rw [if_pos hdone]
      exact .pure ⟨v, hdone.1, hdone.2, rfl, hvalue⟩
    · rw [if_neg hdone]
      exact ih.of_knows fun _ hknows => hknows.tail hvalue

/-- A poll that tells nothing new. -/
theorem waitForBits_skips (offset clearMask setMask timeout poll : Nat) :
    Learns displayHardware regs known (waitForBits pci context offset clearMask setMask timeout poll)
      fun _ known' => known' = known := by
  intro s hs
  obtain ⟨hok, herr⟩ := waitForBits_learns hbus hbar offset clearMask setMask timeout poll s hs
  refine ⟨fun a t ht => ?_, herr⟩
  obtain ⟨_, ⟨v, -, -, rfl, hvalue⟩, hknows⟩ := hok a t ht
  exact ⟨known, rfl, hknows.tail hvalue⟩

theorem readBack_skips (offset value : Nat) :
    Learns displayHardware regs known (readBack pci context offset value)
      fun _ known' => known' = known := by
  apply (read32_reads hbus hbar offset).skips.skip
  intro v
  by_cases hv : v = value
  · rw [if_pos hv]
    exact .pure rfl
  · rw [if_neg hv]
    exact .throw

/-! ## Blocks -/

theorem configureGpio_skips (h : Elsewhere gpioOffset known) :
    Learns displayHardware regs known (configureGpio pci context)
      fun _ known' => known' = known := by
  apply ((write32_writes hbus hbar _ _).skips (calm_of_not_mem (by decide))
    (h.lookup (by decide))).skip
  intro _
  apply ((write32_writes hbus hbar _ _).skips (calm_of_not_mem (by decide))
    (h.lookup (by decide))).skip
  intro _
  apply (read32_reads hbus hbar _).skips.skip
  intro _
  apply (read32_reads hbus hbar _).skips.skip
  intro _
  exact .pure rfl

theorem configurePixelUnpack_skips (h : Elsewhere pixelUnpackOffset known) :
    Learns displayHardware regs known (configurePixelUnpack pci context)
      fun _ known' => known' = known := by
  apply ((write32_writes hbus hbar _ _).skips (calm_of_not_mem (by decide))
    (h.lookup (by decide))).skip
  intro _
  exact readBack_skips hbus hbar _ _

theorem configureColor_skips (h : Elsewhere colorOffset known) :
    Learns displayHardware regs known (configureColor pci context)
      fun _ known' => known' = known := by
  have htable : ∀ p ∈ colorCoefficients, axi (colorOffset + p.1) ∉ vdmaControlRegisters ∧
      axi colorOffset ≤ axi (colorOffset + p.1) ∧
      axi (colorOffset + p.1) < axi colorOffset + registerWindowSize := by
    decide
  apply (Learns.forM colorCoefficients fun p hp => ?_).skip
  · intro _
    apply (readBack_skips hbus hbar _ _).skip
    intro _
    apply (readBack_skips hbus hbar _ _).skip
    intro _
    exact readBack_skips hbus hbar _ _
  · obtain ⟨hcontrol, hin⟩ := htable p hp
    exact (write32_writes hbus hbar _ _).skips (calm_of_not_mem hcontrol) (h.lookup hin)

theorem iicWriteFifo_skips (h : Elsewhere iicOffset known) (value : Nat) :
    Learns displayHardware regs known (iicWriteFifo pci context value)
      fun _ known' => known' = known := by
  apply (waitForBits_skips hbus hbar _ _ _ _ _).skip
  intro _
  exact (write32_writes hbus hbar _ _).skips (calm_of_not_mem (by decide)) (h.lookup (by decide))

theorem configureHdmi_skips (h : Elsewhere iicOffset known) :
    Learns displayHardware regs known (configureHdmi pci context)
      fun _ known' => known' = known := by
  apply ((write32_writes hbus hbar _ _).skips (calm_of_not_mem (by decide))
    (h.lookup (by decide))).skip
  intro _
  apply ((write32_writes hbus hbar _ _).skips (calm_of_not_mem (by decide))
    (h.lookup (by decide))).skip
  intro _
  apply ((write32_writes hbus hbar _ _).skips (calm_of_not_mem (by decide))
    (h.lookup (by decide))).skip
  intro _
  apply Learns.forM hdmiSettings
  intro setting _
  apply (waitForBits_skips hbus hbar _ _ _ _ _).skip
  intro _
  apply (iicWriteFifo_skips hbus hbar h _).skip
  intro _
  apply (iicWriteFifo_skips hbus hbar h _).skip
  intro _
  apply (iicWriteFifo_skips hbus hbar h _).skip
  intro _
  exact waitForBits_skips hbus hbar _ _ _ _ _

theorem configureClock_learns (mode : Mode) :
    Learns displayHardware regs known (configureClock pci context mode)
      fun _ known' => known' = clockWrites mode ++ known := by
  apply (write32_writes hbus hbar _ _).seq (calm_of_not_mem (by decide))
  apply (write32_writes hbus hbar _ _).seq (calm_of_not_mem (by decide))
  apply (write32_writes hbus hbar _ _).seq (calm_of_not_mem (by decide))
  apply (write32_writes hbus hbar _ _).seq (calm_of_not_mem (by decide))
  apply (write32_writes hbus hbar _ _).seq (calm_of_not_mem (by decide))
  apply (write32_writes hbus hbar _ _).seq (calm_of_not_mem (by decide))
  intro s hs
  obtain ⟨hok, herr⟩ := waitForBits_learns hbus hbar (clockOffset + clockConfig23)
    clockConfig23Load 0 1000000 1000 s hs
  refine ⟨fun a t ht => ?_, herr⟩
  obtain ⟨_, ⟨v, hclear, -, rfl, hvalue⟩, hknows⟩ := hok a t ht
  obtain rfl := clockLoad_eq hclear (hvalue 3 rfl)
  exact ⟨_, rfl, hknows⟩

theorem resetVdmaChannel_skips (h : Elsewhere vdmaOffset known) {channel : Nat}
    (hin : axi vdmaOffset ≤ axi (vdmaOffset + channel + vdmaControl) ∧
      axi (vdmaOffset + channel + vdmaControl) < axi vdmaOffset + registerWindowSize) :
    Learns displayHardware regs known (resetVdmaChannel pci context channel)
      fun _ known' => known' = known := by
  apply (write32_writes hbus hbar _ _).learns.bind
  rintro ⟨⟩ _ rfl
  rw [h.kept]
  intro s hs
  have hs : displayHardware.Knows known (regs s) := by
    apply hs.tail
    intro u hu
    rw [h.lookup hin] at hu
    cases hu
  exact waitForBits_skips hbus hbar _ _ _ _ _ s hs

theorem configureVdma_learns (h : Elsewhere vdmaOffset known) (mode : Mode) :
    Learns displayHardware regs known (configureVdma pci context mode)
      fun _ known' => known' = mm2sWrites mode ++ known := by
  have hcontrol : known.lookup (axi (vdmaOffset + vdmaMm2sChannel + vdmaControl)) = none :=
    h.lookup (by decide)
  apply (resetVdmaChannel_skips hbus hbar h (by decide)).skip
  intro _
  apply (resetVdmaChannel_skips hbus hbar h (by decide)).skip
  intro _
  apply ((write32_writes hbus hbar _ _).skips (calm_of_not_mem (by decide))
    (h.lookup (by decide))).skip
  intro _
  apply (write32_writes hbus hbar _ _).seq (calm_of_not_mem (by decide))
  -- The control register is not tracked: here and at the start it only must not reset.
  apply ((write32_writes hbus hbar _ _).skips (calm_of_testBit (by decide)) (by exact hcontrol)).skip
  intro _
  apply (write32_writes hbus hbar _ _).seq (calm_of_not_mem (by decide))
  apply (write32_writes hbus hbar _ _).seq (calm_of_not_mem (by decide))
  apply (write32_writes hbus hbar _ _).seq (calm_of_not_mem (by decide))
  apply ((write32_writes hbus hbar _ _).skips (calm_of_testBit (by decide)) (by exact hcontrol)).skip
  intro _
  apply (write32_writes hbus hbar _ _).seq (calm_of_not_mem (by decide))
  apply (read32_reads hbus hbar _).skips.skip
  intro status
  by_cases hgood : status &&& vdmaStatusErrors = 0
  · rw [if_pos hgood]
    exact .pure rfl
  · rw [if_neg hgood]
    exact .throw

/-- The control register of the timing generator is read as it was known to be. -/
theorem configureVtc_learns {control : Nat} (mode : Mode)
    (h : known.lookup vtcControlRegister = some control) :
    Learns displayHardware regs known (configureVtc pci context mode) fun _ known' =>
      known' = (vtcControlRegister, vtcControlValue control) ::
        (vtcControlRegister, control) :: (vtcWrites mode ++ known) := by
  apply (write32_writes hbus hbar _ _).seq (calm_of_not_mem (by decide))
  apply (write32_writes hbus hbar _ _).seq (calm_of_not_mem (by decide))
  apply (write32_writes hbus hbar _ _).seq (calm_of_not_mem (by decide))
  apply (write32_writes hbus hbar _ _).seq (calm_of_not_mem (by decide))
  apply (write32_writes hbus hbar _ _).seq (calm_of_not_mem (by decide))
  apply (write32_writes hbus hbar _ _).seq (calm_of_not_mem (by decide))
  apply (write32_writes hbus hbar _ _).seq (calm_of_not_mem (by decide))
  apply (write32_writes hbus hbar _ _).seq (calm_of_not_mem (by decide))
  apply (write32_writes hbus hbar _ _).seq (calm_of_not_mem (by decide))
  apply (write32_writes hbus hbar _ _).seq (calm_of_not_mem (by decide))
  apply (write32_writes hbus hbar _ _).seq (calm_of_not_mem (by decide))
  apply (write32_writes hbus hbar _ _).seq (calm_of_not_mem (by decide))
  apply (write32_writes hbus hbar _ _).seq (calm_of_not_mem (by decide))
  apply (read32_reads hbus hbar _).learns.bind
  rintro v _ ⟨rfl, hvalue⟩
  have hv : v = control := by
    have hdrift : (behaviour vtcControlRegister).drift control v := hvalue control h
    exact hdrift
  subst hv
  exact (write32_writes hbus hbar _ _).learns_calm (calm_of_not_mem (by decide))

/-! ## The whole -/

/-- What is known after a successful `SimpleDisplayHwProgramMode` on a timing generator whose
control register was `control`. -/
def firmwareKnown (mode : Mode) (control : Nat) : List (Nat × Nat) :=
  (vtcControlRegister, vtcControlValue control) :: (vtcControlRegister, control) ::
    (vtcWrites mode ++ (mm2sWrites mode ++ (clockWrites mode ++ [(vtcControlRegister, control)])))

theorem hwProgramMode_learns (mode : Mode) (control : Nat) :
    Learns displayHardware regs [(vtcControlRegister, control)] (hwProgramMode pci context mode)
      fun _ known' => known' = firmwareKnown mode control := by
  have hctl : ∀ base ∈ [gpioOffset, pixelUnpackOffset, colorOffset, iicOffset],
      ∀ k ∈ [vtcControlRegister], ¬ (axi base ≤ k ∧ k < axi base + registerWindowSize) := by
    decide
  have helse : ∀ base ∈ [gpioOffset, pixelUnpackOffset, colorOffset, iicOffset],
      Elsewhere base [(vtcControlRegister, control)] :=
    fun base hbase => .of_keys [vtcControlRegister] rfl (hctl base hbase)
  have hvdma : Elsewhere vdmaOffset (clockWrites mode ++ [(vtcControlRegister, control)]) :=
    .of_keys ([clockLoadRegister, clockLoadRegister] ++ clockRegisters.reverse ++
      [vtcControlRegister]) rfl (by decide)
  have hvalid : Learns displayHardware regs [(vtcControlRegister, control)]
      (Efi.call fun s : σ => (hwValidateModeBounds context mode, s))
      fun _ known' => known' = [(vtcControlRegister, control)] := by
    intro s hs
    refine ⟨fun a t ht => ⟨_, rfl, ?_⟩, fun _ _ _ => trivial⟩
    rw [← (Prod.mk.inj ht).2]
    exact hs
  apply hvalid.skip
  intro _
  apply (configureGpio_skips hbus hbar (helse gpioOffset (by decide))).skip
  intro _
  apply (configurePixelUnpack_skips hbus hbar (helse pixelUnpackOffset (by decide))).skip
  intro _
  apply (configureColor_skips hbus hbar (helse colorOffset (by decide))).skip
  intro _
  apply (configureHdmi_skips hbus hbar (helse iicOffset (by decide))).skip
  intro _
  apply (configureClock_learns hbus hbar mode).bind
  rintro ⟨⟩ _ rfl
  apply (waitForBits_skips hbus hbar _ _ _ _ _).skip
  intro _
  apply (configureVdma_learns hbus hbar hvdma mode).bind
  rintro ⟨⟩ _ rfl
  apply (configureVtc_learns hbus hbar mode (by rfl)).bind
  rintro ⟨⟩ _ rfl
  exact readBack_skips hbus hbar _ _

end

end SimpleDisplay
