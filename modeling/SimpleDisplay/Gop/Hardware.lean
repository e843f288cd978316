import SimpleDisplay.Gop.Efi

/-!
# `SimpleDisplayHwLib`: the context and the modes

The hardware contract of `SimpleDisplayHardware.h`, the mode table, and the checks that
every access to BAR2 rests on.
-/

namespace SimpleDisplay

open Word

def vendorId : Nat := 0x10EE
def deviceId : Nat := 0x7024
def baseClass : UInt8 := 0x03
def barIndex : Nat := 2
def barMinSize : Nat := 0x04000000
def identityOffset : Nat := 0x00080000
def framebufferOffset : Nat := 0x02000000
def bytesPerPixel : Nat := 4
def maxWidth : Nat := 1920
def maxHeight : Nat := 1080
def maxFrameBytes : Nat := 0x007E9000
def abiMagic : Nat := 0x31434453
def abiVersion : Nat := 0x00010000
def abiRequiredFeatures : Nat := 0x3

/-- The identity registers of a device with a ROM of 4 KiB. -/
def identityBytes : List UInt8 := [0x53, 0x44, 0x43, 0x31, 0, 0, 1, 0, 3, 0, 0, 0, 0, 0x10, 0, 0]

def acpiAddressSpaceDescriptor : Nat := 0x8A
def acpiAddressSpaceTypeMem : Nat := 0x00
def gopModeCount : Nat := 1

structure Mode where
  name : String
  pixelClockKhz : Nat
  horizontalActive : Nat
  horizontalSyncStart : Nat
  horizontalSyncEnd : Nat
  horizontalTotal : Nat
  verticalActive : Nat
  verticalSyncStart : Nat
  verticalSyncEnd : Nat
  verticalTotal : Nat
  positiveHSync : Bool
  positiveVSync : Bool
  clockConfig0 : Nat
  clockConfig2 : Nat
deriving DecidableEq, Inhabited

/-- `gSimpleDisplayModes`. -/
def modes : List Mode := [
  ⟨"1920x1080@60", 148500, 1920, 2008, 2052, 2200, 1080, 1084, 1089, 1125, true, true,
    10 ||| (37 <<< 8) ||| (125 <<< 16), 5⟩,
  ⟨"800x600@60", 40000, 800, 840, 968, 1056, 600, 601, 605, 628, true, true, 1 ||| (3 <<< 8), 15⟩,
  ⟨"640x480@60", 25175, 640, 656, 752, 800, 480, 490, 492, 525, false, false,
    11 ||| (36 <<< 8), 26⟩,
  ⟨"1024x768@60", 65000, 1024, 1048, 1184, 1344, 768, 771, 777, 806, false, false,
    4 ||| (13 <<< 8), 10⟩,
  ⟨"1280x1024@60", 108000, 1280, 1328, 1440, 1688, 1024, 1025, 1028, 1066, true, true,
    5 ||| (27 <<< 8), 10⟩,
  ⟨"1280x720@60", 74250, 1280, 1390, 1430, 1650, 720, 725, 730, 750, true, true,
    10 ||| (37 <<< 8) ||| (125 <<< 16), 10⟩]

/-- `SIMPLE_DISPLAY_HW_CONTEXT`; its `PciIo` is the one the functions are given. -/
structure HwContext where
  barIndex : Nat
  barBase : Nat
  barLength : Nat
  abiVersion : Nat
  abiFeatures : Nat
  romApertureBytes : Nat
deriving Inhabited

def HwContext.zero : HwContext := ⟨0, 0, 0, 0, 0, 0⟩

section

variable {σ : Type} (pci : PciIo σ)

def read32 (context : HwContext) (offset : Nat) : Efi σ Nat := fun s =>
  if offset > u64 (context.barLength + 2 ^ 64 - 4) then (.error .invalidParameter, s)
  else
    let ((status, bytes), s) := pci.memRead (context.barIndex % 256) offset 1 s
    (status.andReturn (leWord bytes), s)

/-- `SimpleDisplayHwMatchPci`, with the revision. -/
def hwMatchPci : Efi σ UInt8 := do
  let header ← Efi.get (pci.pciRead8 0 64)
  if leWord (header.take 2) ≠ vendorId ∨ leWord ((header.drop 2).take 2) ≠ deviceId ∨
      header[11]! ≠ baseClass then throw .unsupported
  else return header[8]!

/-- `SimpleDisplayHwInitializeContext`; where it fails, the context is zero. -/
def hwInitializeContext : Efi σ HwContext := do
  let resource ← Efi.get (pci.getBarAttributes barIndex)
  match resource with
  | none => throw .unsupported
  | some resource =>
    if resource.desc ≠ acpiAddressSpaceDescriptor ∨ resource.resType ≠ acpiAddressSpaceTypeMem ∨
        resource.addrLen < barMinSize then throw .unsupported
    else
      let context : HwContext := ⟨barIndex, resource.addrRangeMin, resource.addrLen, 0, 0, 0⟩
      let magic ← read32 pci context identityOffset
      let version ← read32 pci context (identityOffset + 4)
      let features ← read32 pci context (identityOffset + 8)
      let romBytes ← read32 pci context (identityOffset + 12)
      if magic ≠ abiMagic ∨ version ≠ abiVersion ∨
          features &&& abiRequiredFeatures ≠ abiRequiredFeatures ∨
          (romBytes ≠ 4096 ∧ romBytes ≠ 32768) then throw .unsupported
      else
        return { context with
          abiVersion := version
          abiFeatures := features
          romApertureBytes := romBytes }

end

/-- `SimpleDisplayHwFrameBytes`. -/
def hwFrameBytes (mode : Mode) : Nat :=
  u64 (u64 (mode.horizontalActive * mode.verticalActive) * bytesPerPixel)

/-- `SimpleDisplayHwValidateModeBounds`. -/
def hwValidateModeBounds (context : HwContext) (mode : Mode) : Status :=
  if mode.horizontalActive = 0 ∨ mode.verticalActive = 0 ∨ mode.horizontalActive > maxWidth ∨
      mode.verticalActive > maxHeight then .invalidParameter
  else
    let frameBytes := hwFrameBytes mode
    if frameBytes = 0 ∨ frameBytes > maxFrameBytes ∨ framebufferOffset > context.barLength ∨
        frameBytes > context.barLength - framebufferOffset then .badBufferSize
    else .success

/-! ## Lemmas -/

theorem barMinSize_lt : barMinSize < 2 ^ 64 := by decide

/-- What initialization has checked. -/
theorem hwInitializeContext_ok {σ : Type} {pci : PciIo σ} {s t : σ} {context : HwContext}
    (h : hwInitializeContext pci s = (.ok context, t)) : context.barIndex = barIndex ∧
      barMinSize ≤ context.barLength ∧ context.barLength < 2 ^ 64 := by
  obtain ⟨resource, s₁, -, h⟩ := Efi.bind_ok h
  cases resource with
  | none => cases h
  | some resource =>
    dsimp only at h
    split at h
    · cases h
    · next hres =>
      rw [not_or, not_or] at hres
      obtain ⟨magic, s₂, -, h⟩ := Efi.bind_ok h
      obtain ⟨version, s₃, -, h⟩ := Efi.bind_ok h
      obtain ⟨features, s₄, -, h⟩ := Efi.bind_ok h
      obtain ⟨romBytes, s₅, -, h⟩ := Efi.bind_ok h
      split at h
      · cases h
      · cases h
        exact ⟨rfl, Nat.not_lt.1 hres.2.2, resource.addrLen_lt⟩

/-- An initialized context covers the registers and the framebuffer. -/
theorem barMinSize_le {σ : Type} {pci : PciIo σ} {s t : σ} {context : HwContext}
    (h : hwInitializeContext pci s = (.ok context, t)) :
    barMinSize ≤ context.barLength ∧ context.barLength < 2 ^ 64 :=
  (hwInitializeContext_ok h).2

theorem hwInitializeContext_barIndex {σ : Type} {pci : PciIo σ} {s t : σ} {context : HwContext}
    (h : hwInitializeContext pci s = (.ok context, t)) : context.barIndex = barIndex :=
  (hwInitializeContext_ok h).1

/-- Every mode of the table fits a device that was let through. -/
theorem modes_validate {context : HwContext} (h : barMinSize ≤ context.barLength) :
    ∀ mode ∈ modes, hwValidateModeBounds context mode = .success := by
  have hbounds : ∀ mode ∈ modes, (mode.horizontalActive ≠ 0 ∧ mode.verticalActive ≠ 0 ∧
      mode.horizontalActive ≤ maxWidth ∧ mode.verticalActive ≤ maxHeight) ∧
      0 < hwFrameBytes mode ∧ hwFrameBytes mode ≤ maxFrameBytes := by
    decide
  have hframe : framebufferOffset + maxFrameBytes ≤ barMinSize := by decide
  intro mode hmode
  obtain ⟨⟨hw, hh, hw', hh'⟩, hpos, hmax⟩ := hbounds mode hmode
  unfold hwValidateModeBounds
  rw [if_neg (by omega), if_neg (by omega)]

end SimpleDisplay
