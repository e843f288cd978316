import SimpleDisplay.Gop.Blt
import SimpleDisplay.Lib.Tiling
import SimpleDisplay.Pipeline.Handoff

/-!
# Where a pixel is

The row functions of `Blt` and `SimpleDisplayHwFillColorBars` write a pixel through BAR2,
and the VDMA fetches it from the start address and the stride that `ConfigureVdma` gave it:
both are the same place, for every mode that passes `SimpleDisplayHwValidateModeBounds`.
-/

namespace SimpleDisplay

open Word Registers Tiling

/-- `MakeModeInfo` of a mode record. -/
def GopInfo.ofMode (mode : Mode) : GopInfo :=
  ⟨mode.horizontalActive, mode.verticalActive, mode.horizontalActive⟩

example (modeNumber : Nat) : makeModeInfo modeNumber = .ofMode modes[modeNumber]! := rfl

def colors : List Nat := [
  0x00FF0000, 0x0000FF00, 0x000000FF, 0x00FFFFFF,
  0x0000FFFF, 0x00FF00FF, 0x00FFFF00, 0x00000000]

/-- A write of `SimpleDisplayHwFillColorBars`: `count` pixels of one color from column `x`. -/
structure Chunk where
  x : Nat
  offset : Nat
  count : Nat
  color : Nat
deriving DecidableEq

def chunkPixels : Nat := 256

/-- The passes of the inner loop, from column `x` on. -/
def colorBarsLine (mode : Mode) (y : Nat) : (n x : Nat) → List Chunk
  | 0, _ => []
  | n + 1, x =>
    if x < mode.horizontalActive then
      let count := min (mode.horizontalActive - x) chunkPixels
      let offset := u64 (framebufferOffset + u64 (u64 (y * mode.horizontalActive + x) * 4))
      ⟨x, offset, count, colors[u32 (y * 8 : Nat) / mode.verticalActive]!⟩ ::
        colorBarsLine mode y n (x + count)
    else []

/-- `SimpleDisplayHwFillColorBars`. -/
def hwFillColorBars {σ : Type} (pci : PciIo σ) (context : HwContext) (mode : Mode) :
    Efi σ Unit := do
  Efi.call fun s => (hwValidateModeBounds context mode, s)
  (List.range mode.verticalActive).forM fun y =>
    (colorBarsLine mode y mode.horizontalActive 0).forM fun c =>
      Efi.call (pci.memWrite (context.barIndex % 256) c.offset c.count
        (List.replicate chunkPixels (leBytes c.color)).flatten)

/-- The offset of a pixel in BAR2, in exact arithmetic. -/
def pixelOffset (mode : Mode) (x y : Nat) : Nat :=
  framebufferOffset + (y * mode.horizontalActive + x) * 4

/-- The blocks of registers in BAR2. -/
def registerWindows : List Nat := [pixelUnpackOffset, vtcOffset, iicOffset, vdmaOffset,
  colorOffset, clockOffset, gpioOffset, identityOffset]

/-! ## Bounds -/

theorem pixelOffset_add (mode : Mode) (y : Nat) {x₀ x : Nat} (h : x₀ ≤ x) :
    pixelOffset mode x₀ y + 4 * (x - x₀) = pixelOffset mode x y := by
  unfold pixelOffset
  omega

/-- The bridge's OR is a sum for every offset in the first 64 MiB. -/
theorem axi_eq {offset : Nat} (h : offset < barMinSize) :
    axi offset = bypassAxiTranslation + offset := by
  unfold axi
  rw [show bypassAxiTranslation = 15 <<< 26 from rfl, ← Nat.shiftLeft_add_eq_or_of_lt h]

theorem validate_ok {context : HwContext} {mode : Mode}
    (h : hwValidateModeBounds context mode = .success) :
    0 < mode.horizontalActive ∧ mode.horizontalActive ≤ 1920 ∧ 0 < mode.verticalActive ∧
      mode.verticalActive ≤ 1080 := by
  unfold hwValidateModeBounds at h
  split at h
  · cases h
  · next hbounds =>
    unfold maxWidth maxHeight at hbounds
    omega

section

variable {mode : Mode} (hbounds : 0 < mode.horizontalActive ∧ mode.horizontalActive ≤ 1920 ∧
  0 < mode.verticalActive ∧ mode.verticalActive ≤ 1080)
include hbounds

/-- A pixel's offset is below the scratch page. -/
theorem pixel_lt {x y : Nat} (hx : x < mode.horizontalActive) (hy : y < mode.verticalActive) :
    y * mode.horizontalActive + x < 1080 * 1920 := by
  have hrow : (y + 1) * mode.horizontalActive ≤ 1080 * 1920 :=
    Nat.mul_le_mul (by omega) hbounds.2.1
  rw [Nat.add_one_mul] at hrow
  omega

theorem rowOffset_eq {priv : Private} (hinfo : priv.gopInfo = .ofMode mode) {x y : Nat}
    (hx : x < mode.horizontalActive) (hy : y < mode.verticalActive) :
    rowOffset priv x y = pixelOffset mode x y := by
  have hlt := pixel_lt hbounds hx hy
  have hfb : framebufferOffset = 33554432 := rfl
  unfold rowOffset pixelOffset bytesPerPixel
  rw [hinfo]
  unfold GopInfo.ofMode
  dsimp only
  rw [u64_of_lt (x := y * mode.horizontalActive) (by omega),
    u64_of_lt (x := y * mode.horizontalActive + x) (by omega),
    u64_of_lt (x := (y * mode.horizontalActive + x) * 4) (by omega), u64_of_lt (by omega)]

theorem pixel_inj {x y x' y' : Nat} (hx : x < mode.horizontalActive)
    (hx' : x' < mode.horizontalActive) (h : pixelOffset mode x y = pixelOffset mode x' y') :
    x = x' ∧ y = y' := by
  have hsum : x + mode.horizontalActive * y = x' + mode.horizontalActive * y' := by
    unfold pixelOffset at h
    rw [Nat.mul_comm _ y, Nat.mul_comm _ y']
    omega
  have hline : y = y' := by
    have hdiv := congrArg (· / mode.horizontalActive) hsum
    simpa [Nat.add_mul_div_left _ _ hbounds.1, Nat.div_eq_of_lt hx, Nat.div_eq_of_lt hx'] using hdiv
  subst hline
  exact ⟨by omega, rfl⟩

/-- Two pixels do not share a byte. -/
theorem pixelOffset_apart {x y x' y' : Nat} (hx : x < mode.horizontalActive)
    (hx' : x' < mode.horizontalActive) (hne : (x, y) ≠ (x', y')) :
    pixelOffset mode x y + 4 ≤ pixelOffset mode x' y' ∨
      pixelOffset mode x' y' + 4 ≤ pixelOffset mode x y := by
  have hpixel : pixelOffset mode x y ≠ pixelOffset mode x' y' := by
    intro heq
    obtain ⟨rfl, rfl⟩ := pixel_inj hbounds hx hx' heq
    exact hne rfl
  unfold pixelOffset at hpixel ⊢
  omega

/-- A pixel is in the frame. -/
theorem pixelOffset_window {x y : Nat} (hx : x < mode.horizontalActive)
    (hy : y < mode.verticalActive) : framebufferOffset ≤ pixelOffset mode x y ∧
      pixelOffset mode x y + 4 ≤ framebufferOffset + maxFrameBytes := by
  have hlt := pixel_lt hbounds hx hy
  have hframe : maxFrameBytes = 8294400 := rfl
  unfold pixelOffset
  omega

/-! ## Color bars -/

/-- A chunk has 1 to 256 pixels of the line's color, and is at its pixels' offsets. -/
theorem colorBarsLine_mem {y : Nat} (hy : y < mode.verticalActive) (n : Nat) :
    ∀ x₀, ∀ c ∈ colorBarsLine mode y n x₀, c.offset = pixelOffset mode c.x y ∧
      0 < c.count ∧ c.count ≤ chunkPixels ∧ c.color = colors[8 * y / mode.verticalActive]! := by
  induction n with
  | zero =>
    intro x₀ c hc
    cases hc
  | succ n ih =>
    intro x₀ c hc
    unfold colorBarsLine at hc
    by_cases hx : x₀ < mode.horizontalActive
    · rw [if_pos hx] at hc
      rcases List.mem_cons.1 hc with rfl | hc
      · have hlt := pixel_lt hbounds hx hy
        have hfb : framebufferOffset = 33554432 := rfl
        have hchunk : chunkPixels = 256 := rfl
        refine ⟨?_, by dsimp only; omega, by dsimp only; omega, ?_⟩
        · unfold pixelOffset
          dsimp only
          rw [u64_of_lt (x := y * mode.horizontalActive + x₀) (by omega),
            u64_of_lt (x := (y * mode.horizontalActive + x₀) * 4) (by omega), u64_of_lt (by omega)]
        · dsimp only
          rw [u32_natCast, Nat.mod_eq_of_lt (by omega), Nat.mul_comm]
      · exact ih _ c hc
    · rw [if_neg hx] at hc
      cases hc

end

/-- The chunks of a line follow each other up to its end. -/
theorem colorBarsLine_tiles (mode : Mode) (y n : Nat) : ∀ x₀ ≤ mode.horizontalActive,
    mode.horizontalActive - x₀ ≤ n →
      Tiles Chunk.x Chunk.count x₀ (colorBarsLine mode y n x₀) mode.horizontalActive := by
  have hchunk : chunkPixels = 256 := rfl
  induction n with
  | zero =>
    intro x₀ hle hn
    exact Nat.le_antisymm hle (by omega)
  | succ n ih =>
    intro x₀ hle hn
    unfold colorBarsLine
    by_cases hx : x₀ < mode.horizontalActive
    · rw [if_pos hx]
      refine ⟨rfl, ih _ ?_ ?_⟩ <;> dsimp only <;> omega
    · rw [if_neg hx]
      exact Nat.le_antisymm hle (by omega)

/-! ## The fetched address -/

theorem configureVdma_fetch {σ : Type} {pci : PciIo σ} {regs : σ → Nat → Nat}
    (hbus : RegisterBus pci regs) {context : HwContext} (hbar : context.barIndex = barIndex)
    {mode : Mode} (hwidth : mode.horizontalActive ≤ 1920) {s t : σ}
    (hvdma : configureVdma pci context mode s = (.ok (), t)) (x y : Nat) :
    regs t mm2sStartAddress + y * regs t mm2sStride + 4 * x =
      1006632960 + pixelOffset mode x y := by
  obtain ⟨_, rfl, hknows⟩ := (configureVdma_learns hbus hbar
    (show Elsewhere vdmaOffset [] by rintro p ⟨⟩) mode s (fun k v hv => by cases hv)).1 () t hvdma
  have hstart : regs t mm2sStartAddress = 1040187392 := stored_eq (by decide) hknows (by rfl)
  have hstride : regs t mm2sStride = mode.horizontalActive * 4 := by
    rw [stored_eq (by decide) hknows (show _ = some (lineBytes mode % 2 ^ 32) from rfl)]
    unfold lineBytes bytesPerPixel
    rw [u32_natCast]
    omega
  have hfb : framebufferOffset = 33554432 := rfl
  rw [hstart, hstride, ← Nat.mul_assoc]
  unfold pixelOffset
  omega

theorem registerWindows_below : ∀ base ∈ registerWindows,
    axi base + registerWindowSize ≤ bypassAxiTranslation + framebufferOffset := by
  decide

/-! ## Top theorem -/

/-- For every mode that passes the check, the pixels that `Blt` and the color bars write
through BAR2 are those that the VDMA fetches; different pixels are apart, in the DDR window
and below the scratch page, inside BAR2, and outside every block of registers. -/
theorem scanout_address {σ : Type} {pci : PciIo σ} {regs : σ → Nat → Nat}
    (hbus : RegisterBus pci regs) {context : HwContext} {s₀ s₁ : σ}
    (hinit : hwInitializeContext pci s₀ = (.ok context, s₁)) {mode : Mode}
    (hvalid : hwValidateModeBounds context mode = .success) {s t : σ}
    (hvdma : configureVdma pci context mode s = (.ok (), t)) (gopMode : GopMode) :
    let fetch x y := regs t mm2sStartAddress + y * regs t mm2sStride + 4 * x
    let priv : Private := ⟨context, gopMode, .ofMode mode⟩
    (∀ x y, x < mode.horizontalActive → y < mode.verticalActive →
      -- a row from any column up to this one
      (∀ x₀ ≤ x, axi (rowOffset priv x₀ y + 4 * (x - x₀)) = fetch x y) ∧
      (∃ c ∈ colorBarsLine mode y mode.horizontalActive 0, c.x ≤ x ∧ x < c.x + c.count ∧
        axi (c.offset + 4 * (x - c.x)) = fetch x y) ∧
      0x3E000000 ≤ fetch x y ∧ fetch x y + 4 ≤ axi scratchOffset ∧ axi scratchOffset ≤ 0x3FFFFFFF ∧
      rowOffset priv x y + 4 ≤ context.barLength ∧
      ∀ base ∈ registerWindows, axi base + registerWindowSize ≤ fetch x y) ∧
    ∀ x y x' y', x < mode.horizontalActive → x' < mode.horizontalActive →
      y < mode.verticalActive → y' < mode.verticalActive → (x, y) ≠ (x', y') →
      fetch x y + 4 ≤ fetch x' y' ∨ fetch x' y' + 4 ≤ fetch x y := by
  have hbounds := validate_ok hvalid
  have hfb : framebufferOffset = 33554432 := rfl
  have hframe : maxFrameBytes = 8294400 := rfl
  have hmin : barMinSize = 67108864 := rfl
  obtain ⟨hbar, -⟩ := barMinSize_le hinit
  have hfetch := configureVdma_fetch hbus (hwInitializeContext_barIndex hinit) hbounds.2.1 hvdma
  intro fetch priv
  have hinfo : priv.gopInfo = .ofMode mode := rfl
  have haddr : ∀ x y, fetch x y = 1006632960 + pixelOffset mode x y := hfetch
  refine ⟨fun x y hx hy => ?_, fun x y x' y' hx hx' hy hy' hne => ?_⟩
  · obtain ⟨hlow, hhigh⟩ := pixelOffset_window hbounds hx hy
    have hpixel := haddr x y
    have haxi : axi (pixelOffset mode x y) = fetch x y := by
      rw [axi_eq (by omega), hpixel]
      rfl
    have hscratch : axi scratchOffset = 1073737728 := by decide
    refine ⟨?_, ?_, by omega, by omega, by omega, ?_, ?_⟩
    · intro x₀ hx₀
      rw [rowOffset_eq hbounds hinfo (by omega) hy, pixelOffset_add mode y hx₀, haxi]
    · have htiles := colorBarsLine_tiles mode y mode.horizontalActive 0 (by omega) (by omega)
      obtain ⟨c, hc, hle, hcovers⟩ := htiles.covers (Nat.zero_le x) hx
      obtain ⟨hoffset, -⟩ := colorBarsLine_mem hbounds hy _ _ c hc
      exact ⟨c, hc, hle, hcovers, by rw [hoffset, pixelOffset_add mode y hle, haxi]⟩
    · rw [rowOffset_eq hbounds hinfo hx hy]
      omega
    · intro base hbase
      have hwindow := registerWindows_below base hbase
      have hbypass : bypassAxiTranslation = 1006632960 := rfl
      omega
  · rw [haddr x y, haddr x' y']
    have hapart := pixelOffset_apart hbounds hx hx' hne
    omega

/-- A pixel of a mode that GOP does not offer. -/
theorem scanout_address_720p : ∃ context start t,
    hwInitializeContext filePci (fun _ => 0) = (.ok context, start) ∧
    configureVdma filePci context modes[5]! start = (.ok (), t) ∧
    axi (rowOffset ⟨context, ⟨1, 0⟩, .ofMode modes[5]!⟩ 3 2) =
      (t mm2sStartAddress).toNat + 2 * (t mm2sStride).toNat + 4 * 3 := by
  have hok : ((do let context ← hwInitializeContext filePci
                  configureVdma filePci context modes[5]! : Efi RegisterFile Unit) fun _ => 0).1.isOk =
      true := by
    decide +kernel
  rcases hrun : (do let context ← hwInitializeContext filePci
                    configureVdma filePci context modes[5]! : Efi RegisterFile Unit) fun _ => 0
    with ⟨_ | ⟨⟨⟩⟩, t⟩
  · rw [hrun] at hok
    cases hok
  obtain ⟨context, start, hinit, hvdma⟩ := Efi.bind_ok hrun
  have hvalid := modes_validate (barMinSize_le hinit).1 modes[5]! (by decide)
  obtain ⟨hpixels, -⟩ := scanout_address filePci_bus hinit hvalid hvdma ⟨1, 0⟩
  obtain ⟨hrows, -⟩ := hpixels 3 2 (by decide) (by decide)
  have hrow := hrows 3 (by decide)
  rw [Nat.sub_self, Nat.mul_zero, Nat.add_zero] at hrow
  exact ⟨context, start, t, hinit, hvdma, hrow⟩

end SimpleDisplay
