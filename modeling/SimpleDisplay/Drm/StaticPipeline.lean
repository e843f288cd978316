import SimpleDisplay.Drm.Translation

/-!
# Setting up the pipeline

`configureStaticPipeline` sets up what no mode changes: the video lock GPIO, the pixel format,
the color conversion and, through the IIC controller, the HDMI transmitter.  `programMode` is
the part that each mode set runs.
-/

namespace FpgaDrm

open Word

def hwGopBypassFrameBase : Nat := 0x3E000000
def hwPixelUnpackBase : Nat := 0x3C000000
def hwAxiIicBase : Nat := 0x3C020000
def hwColorConvertBase : Nat := 0x3C050000
def hwVideoLockGpioBase : Nat := 0x3C070000
def hwRegWindow : Nat := 0x10000

def hlsPixelUnpackMode : Nat := 0x10
def hlsColorC1C1 : Nat := 0x10
def hlsColorC1C2 : Nat := 0x18
def hlsColorC1C3 : Nat := 0x20
def hlsColorC2C1 : Nat := 0x28
def hlsColorC2C2 : Nat := 0x30
def hlsColorC2C3 : Nat := 0x38
def hlsColorC3C1 : Nat := 0x40
def hlsColorC3C2 : Nat := 0x48
def hlsColorC3C3 : Nat := 0x50
def hlsColorBiasC1 : Nat := 0x58
def hlsColorBiasC2 : Nat := 0x60
def hlsColorBiasC3 : Nat := 0x68

def axiGpioDataCh1 : Nat := 0x00
def axiGpioTriCh1 : Nat := 0x04
def axiGpioDataCh2 : Nat := 0x08
def axiGpioTriCh2 : Nat := 0x0C

def axiIicResetr : Nat := 0x040
def axiIicCr : Nat := 0x100
def axiIicSr : Nat := 0x104
def axiIicDtr : Nat := 0x108
def axiIicReset : Nat := 0x0000000A
def axiIicCrEnable : Nat := 1 <<< 0
def axiIicCrTxFifoReset : Nat := 1 <<< 1
def axiIicSrBusBusy : Nat := 1 <<< 2
def axiIicSrTxFifoFull : Nat := 1 <<< 4
def axiIicSrTxFifoEmpty : Nat := 1 <<< 7
def axiIicTxDynStart : Nat := 0x00000100
def axiIicTxDynStop : Nat := 0x00000200

def vtcIsr : Nat := 0x004
def vtcError : Nat := 0x008

/-- `struct fpga_i2c_lut_entry`. -/
structure I2cLutEntry where
  devAddr8 : Nat
  regAddr : Nat
  regData : Nat
  deriving DecidableEq

def fpgaHdmiLut : List I2cLutEntry := [⟨0x72, 0x0008, 0x35⟩, ⟨0x7A, 0x002F, 0x00⟩, ⟨0xFF, 0xFFFF, 0xFF⟩]

/-- `coeffs` of `fpga_drm_config_color_convert`. -/
def colorCoeffs : List (Nat × Nat) := [
  (hlsColorC1C1, 256), (hlsColorC1C2, 0), (hlsColorC1C3, 0),
  (hlsColorC2C1, 0), (hlsColorC2C2, 256), (hlsColorC2C3, 0),
  (hlsColorC3C1, 0), (hlsColorC3C2, 0), (hlsColorC3C3, 256),
  (hlsColorBiasC1, 0), (hlsColorBiasC2, 0), (hlsColorBiasC3, 0)]

/-- `colors` of `fpga_drm_write_ddr_test_pattern`. -/
def testPatternColors : List Nat := [
  0x00ff0000, 0x0000ff00, 0x000000ff, 0x00ffffff,
  0x0000ffff, 0x00ff00ff, 0x00ffff00, 0x00000000]

section

variable {σ : Type} (io : Mmio σ) (fpga : MmioBar)

def requireRange (base size : Nat) : Driver σ Unit :=
  match axiToBarOffset fpga base size fpga.mmioBarMappedLen with
  | .error ret => throw ret
  | .ok _ => return ()

def configPixelUnpack : Driver σ Unit := do
  axiWrite io fpga (hwPixelUnpackBase + hlsPixelUnpackMode) 1
  let _ ← axiRead io fpga (hwPixelUnpackBase + hlsPixelUnpackMode)
  return ()

def configColorConvert : Driver σ Unit := do
  colorCoeffs.forM fun (offset, value) => axiWrite io fpga (hwColorConvertBase + offset) value
  let _ ← axiRead io fpga (hwColorConvertBase + hlsColorC1C1)
  let _ ← axiRead io fpga (hwColorConvertBase + hlsColorC2C2)
  let _ ← axiRead io fpga (hwColorConvertBase + hlsColorC3C3)
  return ()

/-- The passes of the loop of `fpga_drm_iic_wait`. -/
def pollIic (clear set : Nat) : Nat → Driver σ Unit
  | 0 => throw (-ETIMEDOUT)
  | n + 1 => do
    let sr ← axiRead io fpga (hwAxiIicBase + axiIicSr)
    if sr &&& clear = 0 ∧ sr &&& set = set then return () else pollIic clear set n

/-- The loop waits 10 microseconds a pass and makes one in any case. -/
def iicWait (clear set timeoutUs : Nat) : Driver σ Unit :=
  pollIic io fpga clear set (max 1 ((timeoutUs + 9) / 10))

def iicWriteDtr (val : Nat) : Driver σ Unit := do
  iicWait io fpga axiIicSrTxFifoFull 0 10000
  axiWrite io fpga (hwAxiIicBase + axiIicDtr) val

def iicWriteReg (e : I2cLutEntry) : Driver σ Unit := do
  let dev7 := e.devAddr8 >>> 1
  iicWait io fpga axiIicSrBusBusy 0 100000
  iicWriteDtr io fpga (axiIicTxDynStart ||| (dev7 <<< 1))
  iicWriteDtr io fpga (e.regAddr &&& 0xff)
  iicWriteDtr io fpga (axiIicTxDynStop ||| e.regData)
  iicWait io fpga axiIicSrBusBusy axiIicSrTxFifoEmpty 100000

def configIicHdmi : Driver σ Unit := do
  axiWrite io fpga (hwAxiIicBase + axiIicResetr) axiIicReset
  axiWrite io fpga (hwAxiIicBase + axiIicCr) (axiIicCrEnable ||| axiIicCrTxFifoReset)
  axiWrite io fpga (hwAxiIicBase + axiIicCr) axiIicCrEnable
  (fpgaHdmiLut.takeWhile fun e => e.devAddr8 ≠ 0xff).forM (iicWriteReg io fpga)

def configVideoLockGpio : Driver σ Unit := do
  axiWrite io fpga (hwVideoLockGpioBase + axiGpioTriCh1) 0x0f
  axiWrite io fpga (hwVideoLockGpioBase + axiGpioTriCh2) 0xffffffff
  let _ ← axiRead io fpga (hwVideoLockGpioBase + axiGpioDataCh1)
  let _ ← axiRead io fpga (hwVideoLockGpioBase + axiGpioDataCh2)
  return ()

def configureStaticPipeline (configurePipeline : Bool) : Driver σ Unit :=
  if !configurePipeline then return ()
  else do
    [hwColorConvertBase, hwPixelUnpackBase, hwVideoLockGpioBase, hwAxiIicBase, hwVdmaBase, hwVtcBase,
      hwVideoClkWizBase].forM fun base => requireRange fpga base hwRegWindow
    configVideoLockGpio io fpga
    configPixelUnpack io fpga
    configColorConvert io fpga
    configIicHdmi io fpga

/-! ## The bypass to the DDR -/

/-- What a direct access to the DDR needs. -/
structure DdrBypass where
  bar : BypassBar
  /-- `pci_iomap_range` gives a mapping. -/
  iomap : Bool
  /-- `kvmalloc` gives memory. -/
  kvmalloc : Bool

/-- `fpga_drm_map_bypass_axi_range`; the mapping is named by its offset. -/
def mapBypassAxiRange (ddr : DdrBypass) (axiAddr size : Nat) : Except Int Nat :=
  if size = 0 then .error (-EINVAL)
  else
    match axiToBarOffset ddr.bar.toMmioBar axiAddr size ddr.bar.mmioBarResourceLen.toNat with
    | .error ret => .error ret
    | .ok offset =>
      if offset + size > ddr.bar.mmioBarResourceLen.toNat then .error (-ERANGE)
      else if !ddr.iomap then .error (-ENOMEM)
      else .ok offset

/-- Pixel `i` of the test pattern. -/
def testPatternPixel (pixelsPerLine i : Nat) : Nat :=
  testPatternColors[(i % pixelsPerLine) * testPatternColors.length / pixelsPerLine]!

/-- `fpga_drm_write_ddr_test_pattern`. -/
def writeDdrTestPattern (ddr : DdrBypass) (ddrBypassTest : Bool) (mode : VideoMode) :
    Driver σ Unit := fun s =>
  let pixelsPerLine := mode.lineBytes / 4
  let frameBytes := u32 (mode.lineBytes * mode.drm.vdisplay : Nat)
  if !ddrBypassTest then (.ok (), s)
  else if pixelsPerLine = 0 ∨ mode.lineBytes % 4 ≠ 0 then (.error (-EINVAL), s)
  else if !ddr.kvmalloc then (.error (-ENOMEM), s)
  else
    match mapBypassAxiRange ddr hwGopBypassFrameBase frameBytes with
    | .error ret => (.error ret, s)
    | .ok mapping =>
      let s := (List.range (frameBytes / 4)).foldl
        (fun s i => io.iowrite32 (testPatternPixel pixelsPerLine i) (mapping + 4 * i) s) s
      let (first, s) := io.ioread32 mapping s
      -- The second read is not made when the first word is wrong.
      if first ≠ testPatternPixel pixelsPerLine 0 then (.error (- EIO), s)
      else
        let (last, s) := io.ioread32 (mapping + frameBytes - 4) s
        if last ≠ testPatternPixel pixelsPerLine (frameBytes / 4 - 1) then (.error (- EIO), s)
        else (.ok (), s)

/-- `fpga_drm_program_mode`; `Drm.Upload` has it as one step that may fail. -/
def Mmio.programMode (ddr : DdrBypass) (configurePipeline ddrBypassTest : Bool) (mode : VideoMode) :
    Driver σ Unit :=
  if !configurePipeline then return ()
  else do
    configClkWiz io ddr.bar.toMmioBar mode
    configVdma io ddr.bar.toMmioBar ddrBypassTest mode
    configVtc io ddr.bar.toMmioBar mode
    writeDdrTestPattern io ddr ddrBypassTest mode
    let _ ← axiRead io ddr.bar.toMmioBar (hwVdmaBase + axiVdmaRxOffset + axiVdmaSrOffset)
    let _ ← axiRead io ddr.bar.toMmioBar (hwVdmaBase + axiVdmaTxOffset + axiVdmaSrOffset)
    let _ ← axiRead io ddr.bar.toMmioBar (hwVtcBase + vtcIsr)
    let _ ← axiRead io ddr.bar.toMmioBar (hwVtcBase + vtcError)
    let _ ← axiRead io ddr.bar.toMmioBar (hwVideoClkWizBase + 0x04)
    return ()

end

end FpgaDrm
