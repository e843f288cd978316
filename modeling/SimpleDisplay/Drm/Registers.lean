import SimpleDisplay.Drm.Mode
import SimpleDisplay.Lib.Word

/-!
# Register programming of `fpga_drm_drv.c`

Every access names a register by its AXI address, which `axiToBarOffset` turns into an
offset of the bypass BAR.  `configClkWiz`, `configVdma` and `configVtc` program the video
blocks for a mode.
-/

namespace FpgaDrm

open Word

def ENODEV : Int := 19
def ERANGE : Int := 34
def EOPNOTSUPP : Int := 95

def hwFrameCount : Nat := 4
def hwBypassAxiTranslation : Nat := 0x3C000000
def hwBypassHostUsableSize : Nat := 0x04000000
def hwGopVdmaFrameBase : Nat := 0x3E000000
def hwFrameBase : Nat := 0x3E000000
def hwVtcBase : Nat := 0x3C010000
def hwVdmaBase : Nat := 0x3C040000
def hwVideoClkWizBase : Nat := 0x3C060000

def axiVdmaTxOffset : Nat := 0x000
def axiVdmaRxOffset : Nat := 0x030
def axiVdmaParkPtrOffset : Nat := 0x028
def axiVdmaCrOffset : Nat := 0x000
def axiVdmaSrOffset : Nat := 0x004
def axiVdmaFrmStoreOffset : Nat := 0x018
def axiVdmaMm2sAddrOffset : Nat := 0x050
def axiVdmaS2mmAddrOffset : Nat := 0x0A0
def axiVdmaVSizeOffset : Nat := 0x000
def axiVdmaHSizeOffset : Nat := 0x004
def axiVdmaStrdFrmDlyOffset : Nat := 0x008
def axiVdmaStartAddrOffset : Nat := 0x00C
def axiVdmaCrRunStop : Nat := 1 <<< 0
def axiVdmaCrTailEn : Nat := 1 <<< 1
def axiVdmaCrReset : Nat := 1 <<< 2
def axiVdmaCrSyncEn : Nat := 1 <<< 3
def axiVdmaCrFSyncTUser : Nat := 0x40
def axiVdmaCrGenlockInternal : Nat := 1 <<< 7
def axiVdmaCrGenlockRepeat : Nat := 1 <<< 15
def axiVdmaSrErrAll : Nat := 0x00000FF0
def axiVdmaSrIrqAll : Nat := 0x00007000

def vtcCtl : Nat := 0x000
def vtcGASize : Nat := 0x060
def vtcGTStat : Nat := 0x064
def vtcGFEnc : Nat := 0x068
def vtcGPol : Nat := 0x06C
def vtcGHSize : Nat := 0x070
def vtcGVSize : Nat := 0x074
def vtcGHSync : Nat := 0x078
def vtcGVBHOff : Nat := 0x07C
def vtcGVSync : Nat := 0x080
def vtcGVSHOff : Nat := 0x084
def vtcGVBHOffF1 : Nat := 0x088
def vtcGVSyncF1 : Nat := 0x08C
def vtcGVSHOffF1 : Nat := 0x090
def vtcGASizeF1 : Nat := 0x094
def vtcCtlAllSS : Nat := 0x03FDEF00
def vtcCtlGE : Nat := 1 <<< 2
def vtcCtlRU : Nat := 1 <<< 1
def vtcCtlSW : Nat := 1 <<< 0
def vtcPolVBlank : Nat := 1 <<< 0
def vtcPolHBlank : Nat := 1 <<< 1
def vtcPolVSync : Nat := 1 <<< 2
def vtcPolHSync : Nat := 1 <<< 3
def vtcPolActiveVideo : Nat := 1 <<< 4
def vtcPolActiveChroma : Nat := 1 <<< 5
def vtcPolFieldId : Nat := 1 <<< 6
def vtcPolBase : Nat :=
  vtcPolVBlank ||| vtcPolHBlank ||| vtcPolActiveVideo ||| vtcPolActiveChroma ||| vtcPolFieldId

def clkWizSr : Nat := 0x004
def clkWizCfg0 : Nat := 0x200
def clkWizCfg1 : Nat := 0x204
def clkWizCfg2 : Nat := 0x208
def clkWizCfg3 : Nat := 0x20C
def clkWizCfg4 : Nat := 0x210
def clkWizCfg23 : Nat := 0x25C
def clkWizSrLocked : Nat := 1 <<< 0
def clkWizCfg23Load : Nat := 1 <<< 0
def clkWizCfg23Saddr : Nat := 1 <<< 1
def clkWizDuty50 : Nat := 50000

def hwFrameAddr : List Nat :=
  (List.range hwFrameCount).map fun i => hwFrameBase + i * frameSpacing

def vdmaFrameCount (ddrBypassTest : Bool) : Nat := if ddrBypassTest then 1 else hwFrameCount

def vdmaFrameAddr (ddrBypassTest : Bool) (index : Nat) : Nat :=
  if ddrBypassTest then hwGopVdmaFrameBase else hwFrameAddr[index]!

/-- The fields of `struct fpga_drm_device` that an access reads; `mmioBar` is whether the BAR
is mapped. -/
structure MmioBar where
  mmioBar : Bool
  mmioBarName : String
  mmioBarMappedLen : Nat

/-- `ioread32` and `iowrite32` at an offset of the BAR. -/
structure Mmio (σ : Type) where
  ioread32 : (offset : Nat) → σ → Nat × σ
  iowrite32 : (value offset : Nat) → σ → σ

/-- A function that goes on until one returns an error. -/
abbrev Driver (σ : Type) := ExceptT Int (StateM σ)

def maxU64 : Nat := 2 ^ 64 - 1

def axiToBarOffset (fpga : MmioBar) (axiAddr size limit : Nat) : Except Int Nat :=
  if size = 0 then .error (-EINVAL)
  else if fpga.mmioBarName ≠ "bypass" then .error (-EOPNOTSUPP)
  else if axiAddr < hwBypassAxiTranslation then .error (-ERANGE)
  else if axiAddr > maxU64 - (size - 1) then .error (-ERANGE)
  else
    let offset := axiAddr - hwBypassAxiTranslation
    let endAddr := axiAddr + size - 1
    let endOffset := offset + size - 1
    if offset > maxU64 - (size - 1) ∨ endOffset ≥ limit ∨ endOffset ≥ hwBypassHostUsableSize then
      .error (-ERANGE)
    else if hwBypassAxiTranslation ||| offset ≠ axiAddr ∨
        hwBypassAxiTranslation ||| endOffset ≠ endAddr then .error (-ERANGE)
    else .ok offset

def mmioCheck (fpga : MmioBar) (axiAddr size : Nat) : Except Int Nat :=
  if !fpga.mmioBar then .error (-ENODEV)
  else if axiAddr &&& 3 ≠ 0 ∨ size ≠ 4 then .error (-EINVAL)
  else
    match axiToBarOffset fpga axiAddr size fpga.mmioBarMappedLen with
    | .error ret => .error ret
    | .ok offset =>
      if offset + size > fpga.mmioBarMappedLen then .error (-ERANGE) else .ok offset

def vtcPack (start finish : Nat) : Nat := (start &&& 0x3FFF) ||| ((finish &&& 0x3FFF) <<< 16)

section

variable {σ : Type} (io : Mmio σ) (fpga : MmioBar)

def axiWrite (addr val : Nat) : Driver σ Unit := fun s =>
  match mmioCheck fpga addr 4 with
  | .error ret => (.error ret, s)
  | .ok offset => (.ok (), io.iowrite32 (val % 2 ^ 32) offset s)

def axiRead (addr : Nat) : Driver σ Nat := fun s =>
  match mmioCheck fpga addr 4 with
  | .error ret => (.error ret, s)
  | .ok offset => (.ok (io.ioread32 offset s).1, (io.ioread32 offset s).2)

def axiUpdateBits (addr mask val : Nat) : Driver σ Unit := do
  let reg ← axiRead io fpga addr
  axiWrite io fpga addr ((reg &&& (0xFFFFFFFF ^^^ mask)) ||| (val &&& mask))

/-- The passes of the loop of `fpga_drm_reset_vdma_channel`. -/
def pollVdmaReset (chan : Nat) : Nat → Driver σ Unit
  | 0 => throw (-ETIMEDOUT)
  | n + 1 => do
    let cr ← axiRead io fpga (hwVdmaBase + chan + axiVdmaCrOffset)
    if cr &&& axiVdmaCrReset = 0 then return () else pollVdmaReset chan n

def resetVdmaChannel (chan : Nat) : Driver σ Unit := do
  axiWrite io fpga (hwVdmaBase + chan + axiVdmaCrOffset) axiVdmaCrReset
  pollVdmaReset io fpga chan 1000

def programVdmaChannel (ddrBypassTest : Bool) (mode : VideoMode)
    (chan addrBase cr frameDelay : Nat) : Driver σ Unit := do
  resetVdmaChannel io fpga chan
  axiWrite io fpga (hwVdmaBase + chan + axiVdmaSrOffset) (axiVdmaSrErrAll ||| axiVdmaSrIrqAll)
  axiWrite io fpga (hwVdmaBase + chan + axiVdmaFrmStoreOffset) (vdmaFrameCount ddrBypassTest)
  axiWrite io fpga (hwVdmaBase + chan + axiVdmaCrOffset) cr
  axiWrite io fpga (hwVdmaBase + addrBase + axiVdmaHSizeOffset) mode.lineBytes
  axiWrite io fpga (hwVdmaBase + addrBase + axiVdmaStrdFrmDlyOffset)
    (u32 (frameDelay <<< 24 : Nat) ||| mode.lineBytes)
  (List.range (vdmaFrameCount ddrBypassTest)).forM fun i =>
    axiWrite io fpga (hwVdmaBase + addrBase + axiVdmaStartAddrOffset + i * 4)
      (vdmaFrameAddr ddrBypassTest i)
  axiUpdateBits io fpga (hwVdmaBase + chan + axiVdmaCrOffset) axiVdmaCrRunStop axiVdmaCrRunStop
  axiWrite io fpga (hwVdmaBase + addrBase + axiVdmaVSizeOffset) mode.drm.vdisplay
  let _ ← axiRead io fpga (hwVdmaBase + chan + axiVdmaSrOffset)
  return ()

def configVdma (ddrBypassTest : Bool) (mode : VideoMode) : Driver σ Unit := do
  programVdmaChannel io fpga ddrBypassTest mode axiVdmaRxOffset axiVdmaS2mmAddrOffset
    (axiVdmaCrTailEn ||| axiVdmaCrSyncEn ||| axiVdmaCrFSyncTUser ||| axiVdmaCrGenlockInternal |||
      axiVdmaCrGenlockRepeat) 0
  programVdmaChannel io fpga ddrBypassTest mode axiVdmaTxOffset axiVdmaMm2sAddrOffset
    (axiVdmaCrTailEn ||| axiVdmaCrSyncEn ||| axiVdmaCrGenlockInternal) 1
  let _ ← axiRead io fpga (hwVdmaBase + axiVdmaParkPtrOffset)
  return ()

def configVtc (mode : VideoMode) : Driver σ Unit := do
  let m := mode.drm
  let vactive := m.vdisplay
  let vsyncStart := u32 (m.vsyncStart - 1)
  let vsyncEnd := u32 (m.vsyncEnd - 1)
  let polarity := vtcPolBase ||| (if m.flags &&& flagPHSync ≠ 0 then vtcPolHSync else 0) |||
    (if m.flags &&& flagPVSync ≠ 0 then vtcPolVSync else 0)
  axiWrite io fpga (hwVtcBase + vtcGHSize) m.htotal
  axiWrite io fpga (hwVtcBase + vtcGVSize) (m.vtotal ||| u32 (m.vtotal <<< 16 : Nat))
  axiWrite io fpga (hwVtcBase + vtcGASize) (m.hdisplay ||| u32 (vactive <<< 16 : Nat))
  axiWrite io fpga (hwVtcBase + vtcGASizeF1) (u32 (vactive <<< 16 : Nat))
  axiWrite io fpga (hwVtcBase + vtcGHSync) (vtcPack m.hsyncStart m.hsyncEnd)
  axiWrite io fpga (hwVtcBase + vtcGVSync) (vtcPack vsyncStart vsyncEnd)
  axiWrite io fpga (hwVtcBase + vtcGVSyncF1) (vtcPack vsyncStart vsyncEnd)
  axiWrite io fpga (hwVtcBase + vtcGVBHOff) (vtcPack m.hdisplay m.hdisplay)
  axiWrite io fpga (hwVtcBase + vtcGVBHOffF1) (vtcPack m.hdisplay m.hdisplay)
  axiWrite io fpga (hwVtcBase + vtcGVSHOff) (vtcPack m.hsyncStart m.hsyncStart)
  axiWrite io fpga (hwVtcBase + vtcGVSHOffF1) (vtcPack m.hsyncStart m.hsyncStart)
  axiWrite io fpga (hwVtcBase + vtcGFEnc) 0
  axiWrite io fpga (hwVtcBase + vtcGPol) polarity
  let ctl ← axiRead io fpga (hwVtcBase + vtcCtl)
  axiWrite io fpga (hwVtcBase + vtcCtl)
    ((ctl &&& (0xFFFFFFFF ^^^ vtcCtlAllSS)) ||| (vtcCtlSW ||| vtcCtlGE ||| vtcCtlRU))
  let _ ← axiRead io fpga (hwVtcBase + vtcGTStat)
  return ()

/-- The passes of the loop of `fpga_drm_wait_clk_wiz_locked`. -/
def pollClkWizLocked : Nat → Driver σ Unit
  | 0 => throw (-ETIMEDOUT)
  | n + 1 => do
    let status ← axiRead io fpga (hwVideoClkWizBase + clkWizSr)
    let cfg23 ← axiRead io fpga (hwVideoClkWizBase + clkWizCfg23)
    if status &&& clkWizSrLocked ≠ 0 ∧ cfg23 &&& clkWizCfg23Load = 0 then return ()
    else pollClkWizLocked n

def waitClkWizLocked : Driver σ Unit := pollClkWizLocked io fpga 1000

def configClkWiz (mode : VideoMode) : Driver σ Unit := do
  let _ ← axiRead io fpga (hwVideoClkWizBase + clkWizSr)
  axiWrite io fpga (hwVideoClkWizBase + clkWizCfg0) mode.clkCfg0
  axiWrite io fpga (hwVideoClkWizBase + clkWizCfg1) 0
  axiWrite io fpga (hwVideoClkWizBase + clkWizCfg2) mode.clkCfg2
  axiWrite io fpga (hwVideoClkWizBase + clkWizCfg3) 0
  axiWrite io fpga (hwVideoClkWizBase + clkWizCfg4) clkWizDuty50
  axiWrite io fpga (hwVideoClkWizBase + clkWizCfg23) (clkWizCfg23Load ||| clkWizCfg23Saddr)
  waitClkWizLocked io fpga
  let _ ← axiRead io fpga (hwVideoClkWizBase + clkWizSr)
  return ()

end

end FpgaDrm
