import SimpleDisplay.Gop.Hardware

/-!
# `SimpleDisplayHwProgramMode`

The blocks of the pipeline are programmed one after another, each by the register writes
of its own function; polls and read-back checks stand between them.  The first access that
fails, poll that runs out or check that does not hold ends the whole.
-/

namespace SimpleDisplay

open Word

def pixelUnpackOffset : Nat := 0x00000000
def vtcOffset : Nat := 0x00010000
def iicOffset : Nat := 0x00020000
def vdmaOffset : Nat := 0x00040000
def colorOffset : Nat := 0x00050000
def clockOffset : Nat := 0x00060000
def gpioOffset : Nat := 0x00070000
def registerWindowSize : Nat := 0x00010000
def scratchOffset : Nat := 0x03FFF000
def ddrFrameAddress : Nat := 0x3E000000

def pixelUnpackMode : Nat := 0x010

def colorC1C1 : Nat := 0x010
def colorC2C2 : Nat := 0x030
def colorC3C3 : Nat := 0x050

/-- The identity matrix over `COLOR_C1_C1` to `COLOR_C3_C3`, and no bias. -/
def colorCoefficients : List (Nat × Nat) := [
  (colorC1C1, 256), (0x018, 0), (0x020, 0),
  (0x028, 0), (colorC2C2, 256), (0x038, 0),
  (0x040, 0), (0x048, 0), (colorC3C3, 256),
  (0x058, 0), (0x060, 0), (0x068, 0)]

def vdmaMm2sChannel : Nat := 0x000
def vdmaS2mmChannel : Nat := 0x030
def vdmaControl : Nat := 0x000
def vdmaStatus : Nat := 0x004
def vdmaFrameStore : Nat := 0x018
def vdmaMm2sAddress : Nat := 0x050
def vdmaVerticalSize : Nat := 0x000
def vdmaHorizontalSize : Nat := 0x004
def vdmaStride : Nat := 0x008
def vdmaStartAddress : Nat := 0x00C
def vdmaControlRun : Nat := 1 <<< 0
def vdmaControlTail : Nat := 1 <<< 1
def vdmaControlReset : Nat := 1 <<< 2
def vdmaControlSync : Nat := 1 <<< 3
def vdmaControlInternalGenlock : Nat := 1 <<< 7
def vdmaStatusErrors : Nat := 0x00000FF0
def vdmaStatusInterrupts : Nat := 0x00007000

def vtcControl : Nat := 0x000
def vtcError : Nat := 0x008
def vtcActiveSize : Nat := 0x060
def vtcFrameEncoding : Nat := 0x068
def vtcPolarity : Nat := 0x06C
def vtcHorizontalSize : Nat := 0x070
def vtcVerticalSize : Nat := 0x074
def vtcHorizontalSync : Nat := 0x078
def vtcVerticalBlankOffset : Nat := 0x07C
def vtcVerticalSync : Nat := 0x080
def vtcVerticalSyncOffset : Nat := 0x084
def vtcVerticalBlankOffsetF1 : Nat := 0x088
def vtcVerticalSyncF1 : Nat := 0x08C
def vtcVerticalSyncOffsetF1 : Nat := 0x090
def vtcActiveSizeF1 : Nat := 0x094
def vtcControlAllSourceSelect : Nat := 0x03FDEF00
def vtcControlGeneratorEnable : Nat := 1 <<< 2
def vtcControlRegisterUpdate : Nat := 1 <<< 1
def vtcControlSoftwareEnable : Nat := 1 <<< 0
def vtcPolarityVBlank : Nat := 1 <<< 0
def vtcPolarityHBlank : Nat := 1 <<< 1
def vtcPolarityVSync : Nat := 1 <<< 2
def vtcPolarityHSync : Nat := 1 <<< 3
def vtcPolarityActiveVideo : Nat := 1 <<< 4
def vtcPolarityActiveChroma : Nat := 1 <<< 5
def vtcPolarityFieldId : Nat := 1 <<< 6

def gpioDataChannel1 : Nat := 0x000
def gpioTriChannel1 : Nat := 0x004
def gpioDataChannel2 : Nat := 0x008
def gpioTriChannel2 : Nat := 0x00C

def clockStatus : Nat := 0x004
def clockConfig0 : Nat := 0x200
def clockConfig1 : Nat := 0x204
def clockConfig2 : Nat := 0x208
def clockConfig3 : Nat := 0x20C
def clockConfig4 : Nat := 0x210
def clockConfig23 : Nat := 0x25C
def clockStatusLocked : Nat := 1 <<< 0
def clockConfig23Load : Nat := 1 <<< 0
def clockConfig23Saddr : Nat := 1 <<< 1
def clockDuty50Percent : Nat := 50000

def iicResetRegister : Nat := 0x040
def iicControl : Nat := 0x100
def iicStatus : Nat := 0x104
def iicTxFifo : Nat := 0x108
def iicResetValue : Nat := 0x0000000A
def iicControlEnable : Nat := 1 <<< 0
def iicControlTxFifoReset : Nat := 1 <<< 1
def iicStatusBusBusy : Nat := 1 <<< 2
def iicStatusTxFifoFull : Nat := 1 <<< 4
def iicStatusTxFifoEmpty : Nat := 1 <<< 7
def iicDynamicStart : Nat := 0x00000100
def iicDynamicStop : Nat := 0x00000200

/-- The device address, register and data of the two writes to the transmitter. -/
def hdmiSettings : List (Nat × Nat × Nat) := [(0x72, 0x08, 0x35), (0x7A, 0x2F, 0x00)]

def vtcPack (start finish : Nat) : Nat := (start &&& 0x3FFF) ||| ((finish &&& 0x3FFF) <<< 16)

/-- The value that `ConfigureVtc` builds in `Polarity`. -/
def polarity (mode : Mode) : Nat :=
  vtcPolarityVBlank ||| vtcPolarityHBlank ||| vtcPolarityActiveVideo |||
    vtcPolarityActiveChroma ||| vtcPolarityFieldId |||
    (if mode.positiveHSync then vtcPolarityHSync else 0) |||
    (if mode.positiveVSync then vtcPolarityVSync else 0)

/-- `LineBytes` of `ConfigureVdma`. -/
def lineBytes (mode : Mode) : Nat := u32 (mode.horizontalActive * bytesPerPixel : Nat)

/-- The bytes of a 32-bit word. -/
def leBytes (value : Nat) : List UInt8 :=
  [.ofNat value, .ofNat (value / 256), .ofNat (value / 65536), .ofNat (value / 16777216)]

theorem leWord_leBytes (value : Nat) : leWord (leBytes value) = value % 2 ^ 32 := by
  unfold leWord leBytes
  simp [UInt8.toNat_ofNat']
  omega

theorem leWord_lt (bytes : List UInt8) : leWord bytes < 2 ^ 32 := by
  have hfold : ∀ l : List UInt8, l.foldr (fun b n => b.toNat + 256 * n) 0 < 256 ^ l.length := by
    intro l
    induction l with
    | nil => decide
    | cons b l ih =>
      have hb := b.toNat_lt
      rw [List.foldr_cons, List.length_cons, Nat.pow_succ]
      omega
  have hlen : (bytes.take 4).length ≤ 4 := by simp
  exact Nat.lt_of_lt_of_le (hfold _) (Nat.pow_le_pow_right (by decide) hlen)

section

variable {σ : Type} (pci : PciIo σ) (context : HwContext)

def write32 (offset value : Nat) : Efi σ Unit := fun s =>
  if offset > u64 (context.barLength + 2 ^ 64 - 4) then (.error .invalidParameter, s)
  else
    let (status, s) := pci.memWrite (context.barIndex % 256) offset 1 (leBytes value) s
    (status.andReturn (), s)

/-- The passes of the loop of `WaitForBits`. -/
def pollBits (offset clearMask setMask : Nat) : Nat → Efi σ Unit
  | 0 => throw .timeout
  | n + 1 => do
    let value ← read32 pci context offset
    if value &&& clearMask = 0 ∧ value &&& setMask = setMask then return ()
    else pollBits offset clearMask setMask n

def waitForBits (offset clearMask setMask timeout poll : Nat) : Efi σ Unit :=
  pollBits pci context offset clearMask setMask ((timeout + poll - 1) / poll)

/-- A read-back that must give `value`. -/
def readBack (offset value : Nat) : Efi σ Unit := do
  let read ← read32 pci context offset
  if read = value then return () else throw .deviceError

def configureGpio : Efi σ Unit := do
  write32 pci context (gpioOffset + gpioTriChannel1) 0x0F
  write32 pci context (gpioOffset + gpioTriChannel2) maxUint32
  let _ ← read32 pci context (gpioOffset + gpioDataChannel1)
  let _ ← read32 pci context (gpioOffset + gpioDataChannel2)
  return ()

def configurePixelUnpack : Efi σ Unit := do
  write32 pci context (pixelUnpackOffset + pixelUnpackMode) 1
  readBack pci context (pixelUnpackOffset + pixelUnpackMode) 1

def configureColor : Efi σ Unit := do
  colorCoefficients.forM fun (offset, value) => write32 pci context (colorOffset + offset) value
  readBack pci context (colorOffset + colorC1C1) 256
  readBack pci context (colorOffset + colorC2C2) 256
  readBack pci context (colorOffset + colorC3C3) 256

def iicWriteFifo (value : Nat) : Efi σ Unit := do
  waitForBits pci context (iicOffset + iicStatus) iicStatusTxFifoFull 0 10000 10
  write32 pci context (iicOffset + iicTxFifo) value

def iicWriteRegister (deviceAddress8 register data : Nat) : Efi σ Unit := do
  waitForBits pci context (iicOffset + iicStatus) iicStatusBusBusy 0 100000 10
  iicWriteFifo pci context (iicDynamicStart ||| deviceAddress8)
  iicWriteFifo pci context register
  iicWriteFifo pci context (iicDynamicStop ||| data)
  waitForBits pci context (iicOffset + iicStatus) iicStatusBusBusy iicStatusTxFifoEmpty 100000 10

def configureHdmi : Efi σ Unit := do
  write32 pci context (iicOffset + iicResetRegister) iicResetValue
  write32 pci context (iicOffset + iicControl) (iicControlEnable ||| iicControlTxFifoReset)
  write32 pci context (iicOffset + iicControl) iicControlEnable
  hdmiSettings.forM fun (device, register, data) =>
    iicWriteRegister pci context device register data

def configureClock (mode : Mode) : Efi σ Unit := do
  write32 pci context (clockOffset + clockConfig0) mode.clockConfig0
  write32 pci context (clockOffset + clockConfig1) 0
  write32 pci context (clockOffset + clockConfig2) mode.clockConfig2
  write32 pci context (clockOffset + clockConfig3) 0
  write32 pci context (clockOffset + clockConfig4) clockDuty50Percent
  write32 pci context (clockOffset + clockConfig23) (clockConfig23Load ||| clockConfig23Saddr)
  waitForBits pci context (clockOffset + clockConfig23) clockConfig23Load 0 1000000 1000

def resetVdmaChannel (channel : Nat) : Efi σ Unit := do
  write32 pci context (vdmaOffset + channel + vdmaControl) vdmaControlReset
  waitForBits pci context (vdmaOffset + channel + vdmaControl) vdmaControlReset 0 10000 10

def configureVdma (mode : Mode) : Efi σ Unit := do
  let control := vdmaControlTail ||| vdmaControlSync ||| vdmaControlInternalGenlock
  resetVdmaChannel pci context vdmaS2mmChannel
  resetVdmaChannel pci context vdmaMm2sChannel
  write32 pci context (vdmaOffset + vdmaMm2sChannel + vdmaStatus)
    (vdmaStatusErrors ||| vdmaStatusInterrupts)
  write32 pci context (vdmaOffset + vdmaMm2sChannel + vdmaFrameStore) 1
  write32 pci context (vdmaOffset + vdmaMm2sChannel + vdmaControl) control
  write32 pci context (vdmaOffset + vdmaMm2sAddress + vdmaHorizontalSize) (lineBytes mode)
  write32 pci context (vdmaOffset + vdmaMm2sAddress + vdmaStride) (lineBytes mode)
  write32 pci context (vdmaOffset + vdmaMm2sAddress + vdmaStartAddress) ddrFrameAddress
  write32 pci context (vdmaOffset + vdmaMm2sChannel + vdmaControl) (control ||| vdmaControlRun)
  write32 pci context (vdmaOffset + vdmaMm2sAddress + vdmaVerticalSize) mode.verticalActive
  let status ← read32 pci context (vdmaOffset + vdmaMm2sChannel + vdmaStatus)
  if status &&& vdmaStatusErrors = 0 then return () else throw .deviceError

def configureVtc (mode : Mode) : Efi σ Unit := do
  let vSyncStart := u32 (mode.verticalSyncStart - 1)
  let vSyncEnd := u32 (mode.verticalSyncEnd - 1)
  write32 pci context (vtcOffset + vtcHorizontalSize) mode.horizontalTotal
  write32 pci context (vtcOffset + vtcVerticalSize)
    (mode.verticalTotal ||| u32 (mode.verticalTotal <<< 16 : Nat))
  write32 pci context (vtcOffset + vtcActiveSize)
    (mode.horizontalActive ||| u32 (mode.verticalActive <<< 16 : Nat))
  write32 pci context (vtcOffset + vtcActiveSizeF1) (u32 (mode.verticalActive <<< 16 : Nat))
  write32 pci context (vtcOffset + vtcHorizontalSync)
    (vtcPack mode.horizontalSyncStart mode.horizontalSyncEnd)
  write32 pci context (vtcOffset + vtcVerticalSync) (vtcPack vSyncStart vSyncEnd)
  write32 pci context (vtcOffset + vtcVerticalSyncF1) (vtcPack vSyncStart vSyncEnd)
  write32 pci context (vtcOffset + vtcVerticalBlankOffset)
    (vtcPack mode.horizontalActive mode.horizontalActive)
  write32 pci context (vtcOffset + vtcVerticalBlankOffsetF1)
    (vtcPack mode.horizontalActive mode.horizontalActive)
  write32 pci context (vtcOffset + vtcVerticalSyncOffset)
    (vtcPack mode.horizontalSyncStart mode.horizontalSyncStart)
  write32 pci context (vtcOffset + vtcVerticalSyncOffsetF1)
    (vtcPack mode.horizontalSyncStart mode.horizontalSyncStart)
  write32 pci context (vtcOffset + vtcFrameEncoding) 0
  write32 pci context (vtcOffset + vtcPolarity) (polarity mode)
  let control ← read32 pci context (vtcOffset + vtcControl)
  write32 pci context (vtcOffset + vtcControl)
    ((control &&& (maxUint32 ^^^ vtcControlAllSourceSelect)) ||| (vtcControlSoftwareEnable |||
      vtcControlGeneratorEnable ||| vtcControlRegisterUpdate))

/-- `SimpleDisplayHwProgramMode`. -/
def hwProgramMode (mode : Mode) : Efi σ Unit := do
  Efi.call fun s => (hwValidateModeBounds context mode, s)
  configureGpio pci context
  configurePixelUnpack pci context
  configureColor pci context
  configureHdmi pci context
  configureClock pci context mode
  waitForBits pci context (clockOffset + clockStatus) 0 clockStatusLocked 1000000 1000
  configureVdma pci context mode
  configureVtc pci context mode
  readBack pci context (vtcOffset + vtcError) 0

end

end SimpleDisplay
