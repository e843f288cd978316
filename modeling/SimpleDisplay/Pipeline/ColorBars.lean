import SimpleDisplay.Gop.Transfers
import SimpleDisplay.Pipeline.Scanout

/-!
# `SimpleDisplayHwFillColorBars`

The chunks of a line tile its columns, so the writes of the two loops list the pixels of
the frame in order (`colorBars_pixels`), and their bytes tile its bytes (`colorBars_tiles`):
memory then holds at each pixel what its chunk put there.
-/

namespace SimpleDisplay

open Word Blocks Tiling

/-- The pixels of a write, each with its color. -/
def Chunk.pixels (c : Chunk) : List (Nat × Nat) :=
  (List.range c.count).map fun i => (c.offset + i * 4, c.color)

/-- `Pixels`. -/
def Chunk.bytes (c : Chunk) : List UInt8 := (List.replicate chunkPixels (leBytes c.color)).flatten

/-- The writes of the two loops, in order. -/
def colorBars (mode : Mode) : List Chunk :=
  (List.range mode.verticalActive).flatMap fun y => colorBarsLine mode y mode.horizontalActive 0

/-- The color of line `y`. -/
def lineColor (mode : Mode) (y : Nat) : Nat := colors[8 * y / mode.verticalActive]!

section

variable {σ : Type} (pci : PciIo σ) (context : HwContext)

def Chunk.write (c : Chunk) : σ → Status × σ :=
  pci.memWrite (context.barIndex % 256) c.offset c.count c.bytes

/-- Every write succeeds when its turn comes. -/
def WritesSucceed : List Chunk → σ → Prop
  | [], _ => True
  | c :: l, s => (c.write pci context s).1 = .success ∧ WritesSucceed l (c.write pci context s).2

def afterWrites (l : List Chunk) (s : σ) : σ := l.foldl (fun s c => (c.write pci context s).2) s

end

/-! ## The pixels -/

section

variable {mode : Mode} (hbounds : 0 < mode.horizontalActive ∧ mode.horizontalActive ≤ 1920 ∧
  0 < mode.verticalActive ∧ mode.verticalActive ≤ 1080)
include hbounds

theorem colorBars_mem {c : Chunk} (hc : c ∈ colorBars mode) :
    ∃ y < mode.verticalActive, c ∈ colorBarsLine mode y mode.horizontalActive 0 ∧
      c.offset = pixelOffset mode c.x y ∧ 0 < c.count ∧ c.count ≤ chunkPixels ∧
      c.color = lineColor mode y := by
  obtain ⟨y, hy, hc⟩ := List.mem_flatMap.mp hc
  rw [List.mem_range] at hy
  exact ⟨y, hy, hc, colorBarsLine_mem hbounds hy _ _ c hc⟩

omit hbounds in
/-- Passes beyond the end of the line change nothing. -/
theorem colorBarsLine_passes (y n n' : Nat) : ∀ x₀, mode.horizontalActive - x₀ ≤ n →
    mode.horizontalActive - x₀ ≤ n' → colorBarsLine mode y n x₀ = colorBarsLine mode y n' x₀ := by
  have hchunk : chunkPixels = 256 := rfl
  induction n generalizing n' with
  | zero =>
    intro x₀ hn hn'
    cases n' with
    | zero => rfl
    | succ n' =>
      unfold colorBarsLine
      rw [if_neg (by omega)]
  | succ n ih =>
    intro x₀ hn hn'
    cases n' with
    | zero =>
      unfold colorBarsLine
      rw [if_neg (by omega)]
    | succ n' =>
      unfold colorBarsLine
      by_cases hx : x₀ < mode.horizontalActive
      · rw [if_pos hx, if_pos hx]
        dsimp only
        rw [ih n' _ (by omega) (by omega)]
      · rw [if_neg hx, if_neg hx]

theorem colorBarsLine_pixels {y : Nat} (hy : y < mode.verticalActive) :
    (colorBarsLine mode y mode.horizontalActive 0).flatMap Chunk.pixels =
      (List.range mode.horizontalActive).map fun x => (pixelOffset mode x y, lineColor mode y) := by
  have htiles := colorBarsLine_tiles mode y mode.horizontalActive 0 (by omega) (by omega)
  have hcolumns := htiles.flatMap_range'
  rw [Nat.sub_zero] at hcolumns
  rw [List.range_eq_range', ← hcolumns, List.map_flatMap]
  apply List.flatMap_congr
  intro c hc
  obtain ⟨hoffset, -, -, hcolor⟩ := colorBarsLine_mem hbounds hy _ _ c hc
  unfold Chunk.pixels
  rw [List.range'_eq_map_range, List.map_map]
  apply List.map_congr_left
  intro i _
  dsimp only [Function.comp]
  rw [hoffset, hcolor, ← pixelOffset_add mode y (Nat.le_add_right c.x i), Nat.add_sub_cancel_left,
    Nat.mul_comm 4]
  rfl

/-- The writes are the pixels of the frame, line by line and column by column. -/
theorem colorBars_pixels : (colorBars mode).flatMap Chunk.pixels =
    (List.range mode.verticalActive).flatMap fun y =>
      (List.range mode.horizontalActive).map fun x => (pixelOffset mode x y, lineColor mode y) := by
  unfold colorBars
  rw [List.flatMap_assoc]
  apply List.flatMap_congr
  intro y hy
  exact colorBarsLine_pixels hbounds (List.mem_range.mp hy)

/-- No pixel is listed twice. -/
theorem colorBars_nodup : (((colorBars mode).flatMap Chunk.pixels).map Prod.fst).Nodup := by
  rw [colorBars_pixels hbounds, List.map_flatMap]
  rw [List.nodup_flatMap]
  constructor
  · intro y _
    rw [List.map_map]
    refine List.Nodup.map_on ?_ List.nodup_range
    intro x hx x' hx' heq
    exact (pixel_inj hbounds (List.mem_range.mp hx) (List.mem_range.mp hx') heq).1
  · refine List.nodup_range.imp_of_mem ?_
    intro y y' _ _ hne offset hy hy'
    simp only [List.map_map, List.mem_map, List.mem_range, Function.comp] at hy hy'
    obtain ⟨x, hx, rfl⟩ := hy
    obtain ⟨x', hx', heq⟩ := hy'
    exact hne (pixel_inj hbounds hx' hx heq).2.symm

/-- The bytes of the writes tile those of the frame. -/
theorem colorBars_tiles : Tiles Chunk.offset (fun c => c.count * 4) (pixelOffset mode 0 0)
    (colorBars mode) (pixelOffset mode 0 mode.verticalActive) := by
  apply tiles_flatMap (pixelOffset mode 0)
  intro y hy
  have hnext : pixelOffset mode 0 (y + 1) = pixelOffset mode 0 y + mode.horizontalActive * 4 := by
    unfold pixelOffset
    rw [Nat.add_one_mul]
    omega
  have htiles := colorBarsLine_tiles mode y mode.horizontalActive 0 (by omega) (by omega)
  rw [hnext]
  refine htiles.scale 4 (pixelOffset mode 0 y) fun c hc => ⟨?_, rfl⟩
  rw [(colorBarsLine_mem hbounds hy _ _ c hc).1, ← pixelOffset_add mode y (Nat.zero_le c.x),
    Nat.sub_zero, Nat.mul_comm 4]

end

/-! ## The run -/

section

variable {σ : Type} {pci : PciIo σ} {context : HwContext}

theorem writesSucceed_append (l l' : List Chunk) (s : σ) :
    WritesSucceed pci context (l ++ l') s ↔
      WritesSucceed pci context l s ∧
        WritesSucceed pci context l' (afterWrites pci context l s) := by
  induction l generalizing s with
  | nil => exact (iff_of_eq (true_and _)).symm
  | cons c l ih =>
    show _ ∧ WritesSucceed pci context (l ++ l') _ ↔ (_ ∧ _) ∧ _
    rw [ih, and_assoc]
    rfl

theorem forM_writes (l : List Chunk) (s : σ) (h : WritesSucceed pci context l s) :
    (l.forM fun c => Efi.call (c.write pci context)) s = (.ok (), afterWrites pci context l s) := by
  induction l generalizing s with
  | nil => rfl
  | cons c l ih =>
    obtain ⟨hok, hrest⟩ := h
    have hcall : Efi.call (c.write pci context) s = (.ok (), (c.write pci context s).2) := by
      unfold Efi.call
      rw [hok]
      rfl
    rw [List.forM, Efi.bind_of_ok hcall]
    exact ih _ hrest

/-- The loops make the writes one after another, and end. -/
theorem forM_lines (line : Nat → List Chunk) (ys : List Nat) (s : σ)
    (h : WritesSucceed pci context (ys.flatMap line) s) :
    (ys.forM fun y => (line y).forM fun c => Efi.call (c.write pci context)) s =
      (.ok (), afterWrites pci context (ys.flatMap line) s) := by
  induction ys generalizing s with
  | nil => rfl
  | cons y ys ih =>
    rw [List.flatMap_cons, writesSucceed_append] at h
    rw [List.forM, Efi.bind_of_ok (forM_writes _ s h.1), ih _ h.2, List.flatMap_cons]
    unfold afterWrites
    rw [List.foldl_append]

theorem hwFillColorBars_run {mode : Mode} (hvalid : hwValidateModeBounds context mode = .success)
    {s : σ} (h : WritesSucceed pci context (colorBars mode) s) :
    hwFillColorBars pci context mode s =
      (.ok (), afterWrites pci context (colorBars mode) s) := by
  have hcheck : Efi.call (fun s : σ => (hwValidateModeBounds context mode, s)) s = (.ok (), s) := by
    unfold Efi.call
    rw [hvalid]
    rfl
  exact (Efi.bind_of_ok hcheck).trans (forM_lines _ _ s h)

end

/-! ## The memory -/

theorem Chunk.bytes_take {c : Chunk} (hcount : c.count ≤ chunkPixels) :
    c.bytes.take (c.count * 4) =
      (List.range (c.count * 4)).map fun i => (leBytes c.color)[i % 4]! := by
  have hfill : c.bytes = fillBytes (fun i => (leBytes c.color)[i]!) chunkPixels := rfl
  rw [hfill, fillBytes_eq, ← List.map_take, List.take_range,
    Nat.min_eq_left (Nat.mul_le_mul_right 4 hcount)]

section

variable {σ : Type} {pci : PciIo σ} {context : HwContext} {mem : σ → Nat → UInt8}
  (hmem : FrameBufferMemory pci (context.barIndex % 256) mem)
  (hwords : ∀ offset count bytes, pci.memWrite (context.barIndex % 256) offset count bytes =
    pci.memWrite (context.barIndex % 256) offset count (bytes.take (count * 4)))
include hmem hwords

theorem write_put {c : Chunk} (hcount : c.count ≤ chunkPixels) (hlow : framebufferOffset ≤ c.offset)
    (hhigh : c.offset + c.count * 4 ≤ framebufferOffset + maxFrameBytes) {s : σ}
    (hok : (c.write pci context s).1 = .success) :
    mem (c.write pci context s).2 =
      put (mem s) c.offset (c.count * 4) fun i => (leBytes c.color)[i % 4]! := by
  have hlen : (c.bytes.take (c.count * 4)).length = c.count * 4 := by
    rw [Chunk.bytes_take hcount, List.length_map, List.length_range]
  unfold Chunk.write at hok ⊢
  rw [hwords] at hok ⊢
  rw [(hmem.write _ _ _ s hlow hhigh hlen).1 hok, Chunk.bytes_take hcount, storeBytes_map]

theorem afterWrites_putAll (l : List Chunk) (s : σ)
    (hl : ∀ c ∈ l, c.count ≤ chunkPixels ∧ framebufferOffset ≤ c.offset ∧
      c.offset + c.count * 4 ≤ framebufferOffset + maxFrameBytes)
    (h : WritesSucceed pci context l s) :
    mem (afterWrites pci context l s) = putAll Chunk.offset (fun c => c.count * 4)
      (fun c i => (leBytes c.color)[i % 4]!) l (mem s) := by
  induction l generalizing s with
  | nil => rfl
  | cons c l ih =>
    obtain ⟨hcount, hlow, hhigh⟩ := hl c List.mem_cons_self
    have hrest := ih _ (fun c hc => hl c (List.mem_cons_of_mem _ hc)) h.2
    rw [write_put hmem hwords hcount hlow hhigh h.1] at hrest
    exact hrest

/-- The frame after the writes. -/
theorem colorBars_memory {mode : Mode} (hbounds : 0 < mode.horizontalActive ∧
      mode.horizontalActive ≤ 1920 ∧ 0 < mode.verticalActive ∧ mode.verticalActive ≤ 1080) {s : σ}
    (h : WritesSucceed pci context (colorBars mode) s) :
    (∀ y < mode.verticalActive, ∀ x < mode.horizontalActive,
      loadBytes (mem (afterWrites pci context (colorBars mode) s)) (pixelOffset mode x y) 4 =
        leBytes (lineColor mode y)) ∧
    ∀ i, i < pixelOffset mode 0 0 ∨ pixelOffset mode 0 mode.verticalActive ≤ i →
      mem (afterWrites pci context (colorBars mode) s) i = mem s i := by
  have htiles := colorBars_tiles hbounds
  have hframe : maxFrameBytes = 8294400 := rfl
  have hsize : mode.verticalActive * mode.horizontalActive ≤ 1080 * 1920 :=
    Nat.mul_le_mul hbounds.2.2.2 hbounds.2.1
  have hend : pixelOffset mode 0 mode.verticalActive ≤ framebufferOffset + maxFrameBytes := by
    unfold pixelOffset
    omega
  have hstart : framebufferOffset ≤ pixelOffset mode 0 0 := Nat.le_add_right _ _
  have hput := afterWrites_putAll hmem hwords (colorBars mode) s (fun c hc => by
    obtain ⟨-, -, -, -, -, hcount, -⟩ := colorBars_mem hbounds hc
    have hin := htiles.mem hc
    exact ⟨hcount, by omega, by omega⟩) h
  rw [hput]
  constructor
  · intro y hy x hx
    have hline := colorBarsLine_tiles mode y mode.horizontalActive 0 (by omega) (by omega)
    obtain ⟨c, hc, hle, hlt⟩ := hline.covers (Nat.zero_le x) hx
    obtain ⟨hoffset, -, -, hcolor⟩ := colorBarsLine_mem hbounds hy _ _ c hc
    have hmem : c ∈ colorBars mode := List.mem_flatMap.mpr ⟨y, List.mem_range.mpr hy, hc⟩
    have hbyte : ∀ b < 4, putAll Chunk.offset (fun c => c.count * 4)
        (fun c i => (leBytes c.color)[i % 4]!) (colorBars mode) (mem s) (pixelOffset mode x y + b) =
        (leBytes (lineColor mode y))[b]! := by
      intro b hb
      rw [← pixelOffset_add mode y hle, ← hoffset, Nat.add_assoc,
        htiles.putAll_inside (mem s) hmem (by omega), hcolor,
        show (4 * (x - c.x) + b) % 4 = b by omega]
      rfl
    unfold loadBytes
    rw [List.map_congr_left fun b hb => hbyte b (List.mem_range.mp hb)]
    rfl
  · intro i hi
    exact htiles.putAll_outside (mem s) hi

end

/-! ## Top theorem -/

/-- For every mode that passes the check both loops end, a chunk has 1 to 256 pixels, and
the writes list every pixel of the frame once, with the color of its line.  If the writes
succeed they are all made; memory then holds these colors in the frame and is unchanged
everywhere else. -/
theorem colorBars_frame {σ : Type} {pci : PciIo σ} {context : HwContext} {mode : Mode}
    (hvalid : hwValidateModeBounds context mode = .success) :
    let writes := colorBars mode
    -- any number of passes that lets a line end gives the same chunks, up to its last column
    (∀ y n, mode.horizontalActive ≤ n →
      colorBarsLine mode y n 0 = colorBarsLine mode y mode.horizontalActive 0 ∧
      Tiles Chunk.x Chunk.count 0 (colorBarsLine mode y n 0) mode.horizontalActive) ∧
    (∀ c ∈ writes, 1 ≤ c.count ∧ c.count ≤ 256) ∧
    (∀ y < mode.verticalActive, 8 * y / mode.verticalActive < colors.length) ∧
    (writes.flatMap Chunk.pixels = (List.range mode.verticalActive).flatMap fun y =>
      (List.range mode.horizontalActive).map fun x =>
        (pixelOffset mode x y, colors[8 * y / mode.verticalActive]!)) ∧
    ((writes.flatMap Chunk.pixels).map Prod.fst).Nodup ∧
    (∀ s, WritesSucceed pci context writes s →
      hwFillColorBars pci context mode s = (.ok (), afterWrites pci context writes s)) ∧
    ∀ mem, FrameBufferMemory pci (context.barIndex % 256) mem →
      -- `Mem.Write` takes `Count` words from the buffer
      (∀ offset count bytes, pci.memWrite (context.barIndex % 256) offset count bytes =
        pci.memWrite (context.barIndex % 256) offset count (bytes.take (count * 4))) →
      ∀ s, WritesSucceed pci context writes s →
        let t := (hwFillColorBars pci context mode s).2
        (∀ y < mode.verticalActive, ∀ x < mode.horizontalActive,
          loadBytes (mem t) (pixelOffset mode x y) 4 =
            leBytes colors[8 * y / mode.verticalActive]!) ∧
        ∀ i, i < framebufferOffset ∨ framebufferOffset + hwFrameBytes mode ≤ i →
          mem t i = mem s i := by
  have hbounds := validate_ok hvalid
  have hsize : mode.verticalActive * mode.horizontalActive ≤ 1080 * 1920 :=
    Nat.mul_le_mul hbounds.2.2.2 hbounds.2.1
  have hframe : framebufferOffset + hwFrameBytes mode = pixelOffset mode 0 mode.verticalActive := by
    unfold hwFrameBytes pixelOffset bytesPerPixel
    rw [Nat.mul_comm mode.horizontalActive]
    rw [u64_of_lt (x := mode.verticalActive * mode.horizontalActive) (by omega),
      u64_of_lt (by omega), Nat.add_zero]
  have hstart : framebufferOffset = pixelOffset mode 0 0 := by
    unfold pixelOffset
    omega
  refine ⟨?_, ?_, ?_, colorBars_pixels hbounds, colorBars_nodup hbounds, ?_, ?_⟩
  · intro y n hn
    have hpasses := colorBarsLine_passes y n mode.horizontalActive 0 (by omega) (by omega)
    exact ⟨hpasses, colorBarsLine_tiles mode y n 0 (by omega) (by omega)⟩
  · intro c hc
    obtain ⟨-, -, -, -, hpos, hcount, -⟩ := colorBars_mem hbounds hc
    exact ⟨hpos, hcount⟩
  · intro y hy
    have hlen : colors.length = 8 := rfl
    rw [hlen, Nat.div_lt_iff_lt_mul hbounds.2.2.1]
    omega
  · exact fun s => hwFillColorBars_run hvalid
  · intro mem hmem hwords s hsucceed
    dsimp only
    rw [hwFillColorBars_run hvalid hsucceed, hframe, hstart]
    exact colorBars_memory hmem hwords hbounds hsucceed

theorem memoryPci_succeeds (context : HwContext) (l : List Chunk) (mem : Nat → UInt8) :
    WritesSucceed memoryPci context l mem := by
  induction l generalizing mem with
  | nil => trivial
  | cons c l ih => exact ⟨rfl, ih _⟩

/-- A mode whose width is no multiple of 256 and whose height is no multiple of 8. -/
theorem colorBars_frame_odd :
    let context : HwContext := ⟨barIndex, 0, barMinSize, abiVersion, 3, 4096⟩
    let mode : Mode := { modes[5]! with horizontalActive := 300, verticalActive := 13 }
    let t := (hwFillColorBars memoryPci context mode identityMemory).2
    loadBytes t (pixelOffset mode 299 11) 4 = leBytes 0x00FFFF00 ∧
      t identityOffset = identityMemory identityOffset := by
  intro context mode
  have hwords : ∀ offset count bytes,
      memoryPci.memWrite (context.barIndex % 256) offset count bytes =
        memoryPci.memWrite (context.barIndex % 256) offset count (bytes.take (count * 4)) := by
    intro offset count bytes
    funext mem
    show (_, storeBytes mem offset _) = (_, storeBytes mem offset _)
    rw [List.take_take, Nat.min_self]
  obtain ⟨-, -, -, -, -, -, hmemory⟩ := @colorBars_frame _ memoryPci context mode (by decide)
  obtain ⟨hpixel, houtside⟩ := hmemory (fun mem => mem) (memoryPci_memory _) hwords identityMemory
    (memoryPci_succeeds context _ _)
  have hcolor : colors[8 * 11 / mode.verticalActive]! = 0x00FFFF00 := by decide
  have hyellow := hpixel 11 (by decide) 299 (by decide)
  rw [hcolor] at hyellow
  exact ⟨hyellow, houtside identityOffset (.inl (by decide))⟩

end SimpleDisplay
