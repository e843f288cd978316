import SimpleDisplay.Hls.ColorConvert
import SimpleDisplay.Hls.RoundTrip
import SimpleDisplay.Pipeline.Linux
import SimpleDisplay.Pipeline.Windows

/-!
# The path of a pixel

The words that the VDMA reads go through `pixel_unpack` and `color_convert`, whose registers
`configureStaticPipeline` sets and no mode set touches: from then on every word comes out as
its low 24 bits.
-/

namespace FpgaDrm

open Word Registers Registers.Hardware AxiStream Hls
open SimpleDisplay (axi)

/-! ## The registers of the two cores -/

def unpackModeRegister : Nat := hwPixelUnpackBase + hlsPixelUnpackMode

def pathRegisters : List Nat := unpackModeRegister :: colorCoeffs.map fun c => hwColorConvertBase + c.1

/-- The registers of the two cores keep what is written; the others are not looked at. -/
def pathHardware : Hardware where
  drift k u v := k ∈ pathRegisters → v = u
  drift_trans h h' hk := (h' hk).trans (h hk)
  disturbs _ _ _ := false

/-- `ioread32` and `iowrite32` reach the registers. -/
structure PathMmio {σ : Type} (io : Mmio σ) (regs : σ → Nat → Nat) : Prop where
  read : ∀ offset s, pathHardware.Read (regs s) (axi offset) (io.ioread32 offset s).1
    (regs (io.ioread32 offset s).2)
  write : ∀ value offset s, pathHardware.Write (regs s) (axi offset) value
    (regs (io.iowrite32 value offset s))

/-- A coefficient is the low 10 bits of its register. -/
def coeffOf (file : Nat → Nat) (offset : Nat) : BitVec 10 := .ofNat 10 (file (hwColorConvertBase + offset))

def pathMode (file : Nat → Nat) : Int := (BitVec.ofNat 32 (file unpackModeRegister)).toInt

def pathC1 (file : Nat → Nat) : Coeffs :=
  ⟨coeffOf file hlsColorC1C1, coeffOf file hlsColorC1C2, coeffOf file hlsColorC1C3⟩

def pathC2 (file : Nat → Nat) : Coeffs :=
  ⟨coeffOf file hlsColorC2C1, coeffOf file hlsColorC2C2, coeffOf file hlsColorC2C3⟩

def pathC3 (file : Nat → Nat) : Coeffs :=
  ⟨coeffOf file hlsColorC3C1, coeffOf file hlsColorC3C2, coeffOf file hlsColorC3C3⟩

def pathBias (file : Nat → Nat) : Coeffs :=
  ⟨coeffOf file hlsColorBiasC1, coeffOf file hlsColorBiasC2, coeffOf file hlsColorBiasC3⟩

/-- What leaves `color_convert` for `n` packets that enter `pixel_unpack`. -/
def videoPath (uninit : List WidePixel → BitVec 96) (file : Nat → Nat) (n : Nat)
    (input : List (Beat 32)) : Option (List (Beat 24)) :=
  match activations (pixelUnpack uninit (pathMode file)) n input with
  | none => none
  | some (pixels, _) =>
    (activations (colorConvert (pathC1 file) (pathC2 file) (pathC3 file) (pathBias file)) pixels.length
      pixels).map Prod.fst

/-- What is known of the registers after `configureStaticPipeline`. -/
def pathKnown : List (Nat × Nat) :=
  (colorCoeffs.map fun c => (hwColorConvertBase + c.1, c.2)).reverse ++ [(unpackModeRegister, 1)]

/-- A register that is known has its value. -/
theorem path_eq {known : List (Nat × Nat)} {file : Nat → Nat} {k v : Nat}
    (h : pathHardware.Knows known file) (hk : k ∈ pathRegisters) (hv : known.lookup k = some v) :
    file k = v := h k v hv hk

/-! ## What enters and what leaves -/

theorem groups_singles (ds : List (BitVec 32)) :
    groups 1 (fun g => g.flatMap pixelV32) ds = ds.map fun w => w.setWidth 24 := by
  have hlow : ∀ w : BitVec 32, pixelV32 w = [w.setWidth 24] := by
    intro w
    unfold pixelV32 Fields.range
    rw [BitVec.setWidth_eq_extractLsb' (by decide)]
  induction ds with
  | nil => rfl
  | cons d ds ih =>
    have hgroup : groups 1 (fun g => g.flatMap pixelV32) ([d] ++ ds) =
        [d].flatMap pixelV32 ++ groups 1 (fun g => g.flatMap pixelV32) ds :=
      groups_append (by decide) rfl
    show groups 1 (fun g => g.flatMap pixelV32) ([d] ++ ds) = _
    rw [hgroup, ih, List.flatMap_cons, List.flatMap_nil, List.append_nil, hlow]
    rfl

/-- With these registers the path passes the low 24 bits of each word, and the marks. -/
theorem videoPath_low (uninit : List WidePixel → BitVec 96) {file : Nat → Nat}
    (h : pathHardware.Knows pathKnown file) (lines : List (Bool × List (BitVec 32)))
    (hlines : ∀ l ∈ lines, l.2 ≠ []) :
    videoPath uninit file lines.length (stream lines) =
      some (stream (lines.map fun l => (l.1, l.2.map fun w => w.setWidth 24))) := by
  have hreg : ∀ p ∈ pathKnown, file p.1 = p.2 := by
    intro p hp
    have hall : ∀ p ∈ pathKnown, p.1 ∈ pathRegisters ∧ pathKnown.lookup p.1 = some p.2 := by decide
    exact path_eq h (hall p hp).1 (hall p hp).2
  have hcoeff : ∀ c ∈ colorCoeffs, coeffOf file c.1 = .ofNat 10 c.2 := by
    intro c hc
    have hmem : (hwColorConvertBase + c.1, c.2) ∈ pathKnown :=
      List.mem_append_left _ (List.mem_reverse.2 (List.mem_map_of_mem hc))
    unfold coeffOf
    rw [hreg _ hmem]
  have hmode : pathMode file = Hls.Mode.v32.code := by
    unfold pathMode
    rw [hreg (unpackModeRegister, 1) (by decide)]
    rfl
  have hc1 : pathC1 file = identityC1 := by
    unfold pathC1
    rw [hcoeff (hlsColorC1C1, 256) (by decide), hcoeff (hlsColorC1C2, 0) (by decide),
      hcoeff (hlsColorC1C3, 0) (by decide)]
    rfl
  have hc2 : pathC2 file = identityC2 := by
    unfold pathC2
    rw [hcoeff (hlsColorC2C1, 0) (by decide), hcoeff (hlsColorC2C2, 256) (by decide),
      hcoeff (hlsColorC2C3, 0) (by decide)]
    rfl
  have hc3 : pathC3 file = identityC3 := by
    unfold pathC3
    rw [hcoeff (hlsColorC3C1, 0) (by decide), hcoeff (hlsColorC3C2, 0) (by decide),
      hcoeff (hlsColorC3C3, 256) (by decide)]
    rfl
  have hbias : pathBias file = noBias := by
    unfold pathBias
    rw [hcoeff (hlsColorBiasC1, 0) (by decide), hcoeff (hlsColorBiasC2, 0) (by decide),
      hcoeff (hlsColorBiasC3, 0) (by decide)]
    rfl
  have hgrouped : ∀ l ∈ lines, Grouped 1 (fun _ => True) l.2 :=
    fun l hl => (grouped_iff (by decide)).2 ⟨hlines l hl, Nat.one_dvd _⟩
  have hunpack := (pixelUnpack_serves uninit .v32).stream lines hgrouped []
  rw [List.append_nil] at hunpack
  unfold videoPath
  rw [hmode, hunpack, hc1, hc2, hc3, hbias]
  dsimp only
  generalize hp : stream (lines.map fun p => (p.1, Hls.Mode.v32.pixels p.2)) = pixels
  have hcolor := colorConvert_stream identityC1 identityC2 identityC3 noBias pixels []
  rw [List.append_nil] at hcolor
  have hsame : (pixels.map fun p =>
      { p with data := convertData identityC1 identityC2 identityC3 noBias p.data }) = pixels := by
    conv_rhs => rw [← List.map_id pixels]
    apply List.map_congr_left
    intro p _
    rw [convertData_identity]
    rfl
  rw [hcolor, hsame, ← hp]
  show some (stream (lines.map fun p => (p.1, groups 1 (fun g => g.flatMap pixelV32) p.2))) = _
  simp only [groups_singles]

/-! ## What the driver writes -/

/-- Registers of the other blocks and the DDR. -/
theorem not_path {a : Nat} (h : 0x3C000010 < a) (h' : a < 0x3C050010 ∨ 0x3C050068 < a) :
    a ∉ pathRegisters := by
  have hall : ∀ k ∈ pathRegisters, k ≤ 0x3C000010 ∨ 0x3C050010 ≤ k ∧ k ≤ 0x3C050068 := by decide
  intro ha
  have hk := hall a ha
  omega

section

variable {σ : Type} {io : Mmio σ} {regs : σ → Nat → Nat} (hio : PathMmio io regs) {fpga : MmioBar}
  {known : List (Nat × Nat)}
include hio

theorem ioread32_keeps (offset : Nat) :
    Keeps (fun s => pathHardware.Knows known (regs s)) (io.ioread32 offset) := by
  intro s hs k v hv hk
  have hread := hio.read offset s
  have hold := hs k v hv hk
  by_cases ha : k = axi offset
  · subst ha
    rw [hread.after hk, hread.value hk]
    exact hold
  · rw [hread.others k ha hk]
    exact hold

theorem iowrite32_knows (value : Nat) {offset : Nat} (hoffset : axi offset ∉ pathRegisters) {s : σ}
    (hs : pathHardware.Knows known (regs s)) :
    pathHardware.Knows known (regs (io.iowrite32 value offset s)) := by
  intro k v hv hk
  have hne : k ≠ axi offset := by
    rintro rfl
    exact hoffset hk
  rw [(hio.write value offset s).others k hne rfl hk]
  exact hs k v hv hk

theorem axiRead_keeps (addr : Nat) :
    Keeps (fun s => pathHardware.Knows known (regs s)) (axiRead io fpga addr) := by
  intro s hs
  unfold axiRead
  split
  · exact hs
  · exact ioread32_keeps hio _ s hs

theorem axiWrite_keeps {addr : Nat} (haddr : addr ∉ pathRegisters) (val : Nat) :
    Keeps (fun s => pathHardware.Knows known (regs s)) (axiWrite io fpga addr val) := by
  intro s hs
  unfold axiWrite
  split
  · exact hs
  next offset hoffset =>
    rw [← mmioCheck_ok hoffset] at haddr
    exact iowrite32_knows hio _ haddr hs

theorem axiWrite_path (addr val : Nat) :
    Writes pathHardware regs (axiWrite io fpga addr val) addr (val % 2 ^ 32) := by
  intro s u t h
  unfold axiWrite at h
  split at h
  · cases h
  next offset hoffset =>
    rw [Prod.mk.injEq] at h
    obtain ⟨-, rfl⟩ := h
    rw [← mmioCheck_ok hoffset]
    exact hio.write (val % 2 ^ 32) offset s

/-- The windows of the other blocks. -/
theorem path_window {base : Nat}
    (hbase : 0x3C010000 ≤ base ∧ base ≤ 0x3C040000 ∨ 0x3C060000 ≤ base) :
    KeepsWindow io fpga (fun s => pathHardware.Knows known (regs s)) base := by
  have hwindow : hwRegWindow = 0x10000 := rfl
  exact ⟨fun addr => axiRead_keeps hio addr,
    fun off hoff val => axiWrite_keeps hio (not_path (by omega) (by omega)) val⟩

/-- The DDR is above the registers. -/
theorem path_ddr : KeepsDdr io (fun s => pathHardware.Knows known (regs s)) := by
  refine ⟨ioread32_keeps hio, fun offset value s hlow hhigh _ hs => iowrite32_knows hio _ ?_ hs⟩
  have haxi : axi offset = hwBypassAxiTranslation + offset := or_translation hhigh
  have hT : hwBypassAxiTranslation = 0x3C000000 := rfl
  have hD : hwGopBypassFrameBase = 0x3E000000 := rfl
  rw [haxi]
  exact not_path (by omega) (by omega)

theorem programMode_keeps (ddr : DdrBypass) (configurePipeline ddrBypassTest : Bool)
    (mode : VideoMode) : Keeps (fun s => pathHardware.Knows known (regs s))
      (io.programMode ddr configurePipeline ddrBypassTest mode) := by
  unfold Mmio.programMode
  split
  · exact fun s hs => hs
  refine Keeps.bind (configClkWiz_safe (path_window hio (by decide)) mode).keeps fun _ => ?_
  refine Keeps.bind (configVdma_safe (path_window hio (by decide)) _ mode).keeps fun _ => ?_
  refine Keeps.bind (configVtc_safe (path_window hio (by decide)) mode).keeps fun _ => ?_
  refine Keeps.bind (writeDdrTestPattern_safe (path_ddr hio) ddr _ mode).keeps fun _ => ?_
  refine Keeps.bind (axiRead_keeps hio _) fun _ => ?_
  refine Keeps.bind (axiRead_keeps hio _) fun _ => ?_
  refine Keeps.bind (axiRead_keeps hio _) fun _ => ?_
  refine Keeps.bind (axiRead_keeps hio _) fun _ => ?_
  exact Keeps.bind (axiRead_keeps hio _) fun _ _ hs => hs

/-! ## The static part -/

theorem configColorConvert_learns : Learns pathHardware regs known (configColorConvert io fpga)
    fun _ known' =>
      known' = (colorCoeffs.map fun c => (hwColorConvertBase + c.1, c.2)).reverse ++ known := by
  have hsmall : ∀ c ∈ colorCoeffs, c.2 % 2 ^ 32 = c.2 := by decide
  have hwrites : ∀ c ∈ colorCoeffs, Writes pathHardware regs
      (axiWrite io fpga (hwColorConvertBase + c.1) c.2) (hwColorConvertBase + c.1) c.2 := by
    intro c hc
    have hwrite : Writes pathHardware regs (axiWrite io fpga (hwColorConvertBase + c.1) c.2)
        (hwColorConvertBase + c.1) (c.2 % 2 ^ 32) := axiWrite_path hio _ _
    rw [hsmall c hc] at hwrite
    exact hwrite
  apply (Learns.forM_writes (g := fun c => (hwColorConvertBase + c.1, c.2)) colorCoeffs hwrites
    (fun _ _ _ => rfl) known).bind
  rintro ⟨⟩ _ rfl
  apply (Learns.of_keeps (axiRead_keeps hio _)).skip
  intro _
  apply (Learns.of_keeps (axiRead_keeps hio _)).skip
  intro _
  apply (Learns.of_keeps (axiRead_keeps hio _)).skip
  intro _
  exact .pure rfl

theorem configureStaticPipeline_learns : Learns pathHardware regs []
    (configureStaticPipeline io fpga true) fun _ known' => known' = pathKnown := by
  have hrange : Learns pathHardware regs [] ([hwColorConvertBase, hwPixelUnpackBase,
      hwVideoLockGpioBase, hwAxiIicBase, hwVdmaBase, hwVtcBase, hwVideoClkWizBase].forM
      fun base => (requireRange fpga base hwRegWindow : Driver σ Unit))
      fun _ known' => known' = [] := by
    apply Learns.of_keeps
    refine (Spares.forM (E := fun _ => True) _ fun base _ => ?_).keeps
    unfold requireRange
    split
    · exact .throw trivial
    · exact .pure ()
  have hgpio : Learns pathHardware regs [] (configVideoLockGpio io fpga)
      fun _ known' => known' = [] :=
    Learns.of_keeps (configVideoLockGpio_safe (path_window hio (by decide))).keeps
  have hunpack : Learns pathHardware regs [] (configPixelUnpack io fpga)
      fun _ known' => known' = [(unpackModeRegister, 1)] := by
    apply (axiWrite_path hio unpackModeRegister 1).seq fun _ => rfl
    apply (Learns.of_keeps (axiRead_keeps hio _)).skip
    intro _
    exact .pure rfl
  apply hrange.skip
  intro _
  apply hgpio.skip
  intro _
  apply hunpack.bind
  rintro ⟨⟩ _ rfl
  apply (configColorConvert_learns hio).bind
  rintro ⟨⟩ _ rfl
  exact Learns.of_keeps (configIicHdmi_safe (path_window hio (by decide))).keeps

/-- After a successful `configureStaticPipeline` and any mode sets, successful or not. -/
theorem path_known {s t : σ} (hstatic : configureStaticPipeline io fpga true s = (.ok (), t))
    (ddr : DdrBypass) (sets : List (Bool × VideoMode)) : pathHardware.Knows pathKnown
      (regs (sets.foldl (fun s m => (io.programMode ddr true m.1 m.2 s).2) t)) := by
  have hstart : pathHardware.Knows [] (regs s) := fun k v hv => by cases hv
  obtain ⟨_, rfl, ht⟩ := (configureStaticPipeline_learns hio s hstart).1 () t hstatic
  clear hstatic
  induction sets generalizing t with
  | nil => exact ht
  | cons m sets ih => exact ih (programMode_keeps hio ddr true m.1 m.2 t ht)

end

/-! ## Top theorem -/

/-- After a successful `configureStaticPipeline`, and after any mode sets since, whether they
succeeded or not, each line that enters the pixel path leaves it as the low 24 bits of its
words, with its marks. -/
theorem video_path_stays {σ : Type} {io : Mmio σ} {regs : σ → Nat → Nat} (hio : PathMmio io regs)
    {fpga : MmioBar} {s t : σ} (hstatic : configureStaticPipeline io fpga true s = (.ok (), t))
    (ddr : DdrBypass) (sets : List (Bool × VideoMode)) (uninit : List WidePixel → BitVec 96)
    (lines : List (Bool × List (BitVec 32))) (hlines : ∀ l ∈ lines, l.2 ≠ []) :
    let u := sets.foldl (fun s m => (io.programMode ddr true m.1 m.2 s).2) t
    videoPath uninit (regs u) lines.length (stream lines) =
      some (stream (lines.map fun l => (l.1, l.2.map fun w => w.setWidth 24))) :=
  videoPath_low uninit (path_known hio hstatic ddr sets) lines hlines

/-- Registers that keep what is written; the IIC controller is idle. -/
def plainMmio : Mmio (Nat → Nat) where
  ioread32 offset file := (file (axi offset), file)
  iowrite32 value offset file := Function.update file (axi offset) value

def idleFile (k : Nat) : Nat := if k = hwAxiIicBase + axiIicSr then axiIicSrTxFifoEmpty else 0

theorem plainMmio_path : PathMmio plainMmio id := by
  refine ⟨fun offset s => ⟨fun _ => rfl, fun _ => rfl, fun k _ _ => rfl⟩, fun value offset s => ?_⟩
  refine ⟨fun _ => ?_, fun k hk _ _ => ?_⟩
  · exact Function.update_self ..
  · exact Function.update_of_ne hk ..

theorem plainMmio_configured : ∃ t,
    configureStaticPipeline plainMmio ⟨true, "bypass", 0x04000000⟩ true idleFile = (.ok (), t) := by
  have hok : (configureStaticPipeline plainMmio ⟨true, "bypass", 0x04000000⟩ true idleFile).1.isOk =
      true := by
    decide +kernel
  rcases hrun : configureStaticPipeline plainMmio ⟨true, "bypass", 0x04000000⟩ true idleFile
    with ⟨_ | ⟨⟨⟩⟩, t⟩
  · rw [hrun] at hok
    cases hok
  exact ⟨t, rfl⟩

theorem video_path_stays_pixel : ∃ t,
    configureStaticPipeline plainMmio ⟨true, "bypass", 0x04000000⟩ true idleFile = (.ok (), t) ∧
      videoPath (fun _ => 0) ([(false, preferredMode)].foldl (fun s m => (plainMmio.programMode
        ⟨⟨true, 0x04000000, 0x04000000, 2, "bypass"⟩, true, true⟩ true m.1 m.2 s).2) t) 1
        (stream [(true, [0x12345678])]) = some (stream [(true, [0x345678])]) := by
  obtain ⟨t, ht⟩ := plainMmio_configured
  exact ⟨t, ht, video_path_stays plainMmio_path ht _ [(false, preferredMode)] (fun _ => 0)
    [(true, [0x12345678])] (by decide)⟩

end FpgaDrm
