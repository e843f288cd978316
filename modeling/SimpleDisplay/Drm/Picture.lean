import Mathlib.Data.List.Basic
import SimpleDisplay.Drm.Plane
import SimpleDisplay.Lib.Blocks

/-!
# The composed picture

`referencePixel` is what a pair of snapshots shows: the overlay on its destination
rectangle, the primary elsewhere.  `composeFrame` puts just that into the line buffers.

Its loops are runs of `LineCopy`, one per `memcpy` and one per 32-bit store, so what they
read and write is said of these.
-/

namespace FpgaDrm

open Word Blocks

/-- What `framebuffer_check` of the DRM core requires of a framebuffer. -/
structure FramebufferChecked (fb : Framebuffer) : Prop where
  pitch : fb.width * bpp ≤ fb.pitch
  size : fb.height * fb.pitch < 4294967296

/-! ## The reference -/

/-- The lines of a snapshot's framebuffer. -/
def PlaneSnapshot.frame (snap : PlaneSnapshot) : Raster :=
  ⟨snap.map.getD 0, (snap.fb.map (·.pitch)).getD 0⟩

def Rect.contains (r : Rect) (x y : Nat) : Bool :=
  decide (r.x1 ≤ x ∧ x < r.x2) && decide (r.y1 ≤ y ∧ y < r.y2)

def referencePixel (primary : PlaneSnapshot) (overlay : Option PlaneSnapshot) (mem : Memory)
    (x y : Nat) : List UInt8 :=
  match overlay with
  | none => primary.frame.pixel bpp mem x y
  | some ov =>
    if ov.enabled && ov.dst.contains x y then
      ov.frame.pixel bpp mem (ov.src.x1 + x - ov.dst.x1).toNat (ov.src.y1 + y - ov.dst.y1).toNat
    else primary.frame.pixel bpp mem x y

/-- The 32-bit word `x` of `line_bufs[y]`. -/
def lineWord (bufs : LineBufs) (x y : Nat) : List UInt8 :=
  (List.range bpp).map fun b => bufs y (x * bpp + b)

/-! ## Accesses -/

/-- `n` bytes at `src` go to byte `offset` of `line_bufs[line]`. -/
structure LineCopy where
  line : Nat
  offset : Nat
  src : Nat
  n : Nat

def LineCopy.run (mem : Memory) (bufs : LineBufs) (c : LineCopy) : LineBufs :=
  putLine bufs c.line c.offset c.n fun i => mem (c.src + i)

def primaryCopies (mode : VideoMode) (primary : PlaneSnapshot) : List LineCopy :=
  (List.range mode.drm.vdisplay).map fun y =>
    ⟨y, 0, primary.frame.base + Word.u32 (y * primary.frame.stride), mode.lineBytes⟩

def overlayCopies (overlay : PlaneSnapshot) : List LineCopy :=
  (List.range (Word.u32 overlay.dst.height)).flatMap fun (y : Nat) =>
    (List.range (Word.u32 overlay.dst.width)).map fun (x : Nat) =>
      ⟨(overlay.dst.y1 + y).toNat, overlay.dst.x1.toNat * bpp + 4 * x,
        overlay.frame.base + Word.u32 ((overlay.src.y1 + y) * overlay.frame.stride) +
          overlay.src.x1.toNat * bpp + 4 * x, 4⟩

/-- Everything a successful composition copies. -/
def composeCopies (mode : VideoMode) (primary : PlaneSnapshot) (overlay : Option PlaneSnapshot) :
    List LineCopy :=
  primaryCopies mode primary ++
    match overlay with
    | none => []
    | some ov => if ov.enabled then overlayCopies ov else []

/-- A copy reads inside the snapshot's framebuffer and writes inside its line buffer. -/
structure LineCopy.Inside (snap : PlaneSnapshot) (c : LineCopy) : Prop where
  read : ∃ fb base, snap.fb = some fb ∧ snap.map = some base ∧
    base ≤ c.src ∧ c.src + c.n ≤ base + fb.height * fb.pitch
  line : c.line < maxHeight
  write : c.offset + c.n ≤ maxLineBytes

theorem memcpyLine_run (bufs : LineBufs) (y : Nat) (mem : Memory) (src n : Nat) :
    memcpyLine bufs y mem src n = LineCopy.run mem bufs ⟨y, 0, src, n⟩ := by
  ext y' x
  unfold memcpyLine LineCopy.run
  rw [putLine_apply]
  simp

theorem copyWord_run (bufs : LineBufs) (y x : Nat) (mem : Memory) (src : Nat) :
    copyWord bufs y x mem src = LineCopy.run mem bufs ⟨y, x, src, 4⟩ := by
  ext y' x'
  unfold copyWord LineCopy.run
  rw [putLine_apply]

theorem copyPrimaryFrame_run {mode : VideoMode} {primary : PlaneSnapshot}
    (h : copyPrimaryCheck mode primary = 0) (mem : Memory) (bufs : LineBufs) :
    copyPrimaryFrame mode primary mem bufs =
      (0, (primaryCopies mode primary).foldl (LineCopy.run mem) bufs) := by
  unfold copyPrimaryFrame primaryCopies
  rw [if_neg (not_not.2 h), List.foldl_map]
  simp only [memcpyLine_run]
  rfl

theorem blendOverlayCpu_run {mode : VideoMode} {overlay : PlaneSnapshot}
    (he : overlay.enabled = true) (h : blendOverlayCheck mode overlay = 0) (mem : Memory)
    (bufs : LineBufs) :
    blendOverlayCpu mode overlay mem bufs =
      (0, (overlayCopies overlay).foldl (LineCopy.run mem) bufs) := by
  unfold blendOverlayCpu overlayCopies
  rw [he, List.foldl_flatMap]
  simp only [copyWord_run, List.foldl_map, Bool.not_true]
  rw [if_neg (by decide), if_neg (not_not.2 h)]
  rfl

/-- A composition that succeeds makes its copies, in order. -/
theorem composeFrame_run {mode : VideoMode} {primary : PlaneSnapshot}
    {overlay : Option PlaneSnapshot} {mem : Memory} {bufs : LineBufs}
    (hret : (composeFrame mode primary overlay mem bufs).ret = 0) :
    copyPrimaryCheck mode primary = 0 ∧
    (∀ ov, overlay = some ov → ov.enabled = true → blendOverlayCheck mode ov = 0) ∧
    (composeFrame mode primary overlay mem bufs).bufs =
      (composeCopies mode primary overlay).foldl (LineCopy.run mem) bufs := by
  have hchecks := hret
  rw [composeFrame_ret] at hchecks
  unfold composeRet at hchecks
  by_cases hprimary : copyPrimaryCheck mode primary = 0
  · rw [if_neg (not_not.2 hprimary)] at hchecks
    unfold composeFrame composeCopies
    rw [copyPrimaryFrame_run hprimary, List.foldl_append]
    refine ⟨hprimary, ?_⟩
    cases overlay with
    | none => exact ⟨by rintro ov ⟨⟩, rfl⟩
    | some ov =>
        cases he : ov.enabled with
        | false =>
            refine ⟨?_, by simp [he]⟩
            rintro _ ⟨⟩ htrue
            rw [he] at htrue
            cases htrue
        | true =>
            simp only [he, Bool.not_true] at hchecks ⊢
            have hblend : blendOverlayCheck mode ov = 0 := hchecks
            refine ⟨?_, ?_⟩
            · rintro _ ⟨⟩ _
              exact hblend
            · rw [blendOverlayCpu_run he hblend]
              rfl
  · rw [if_pos hprimary] at hchecks
    exact absurd hchecks hprimary

/-! ## The primary -/

/-- The framebuffer of the mode's size that the copy has found. -/
theorem copyPrimaryCheck_frame {mode : VideoMode} {primary : PlaneSnapshot}
    (h : copyPrimaryCheck mode primary = 0) :
    ∃ fb base, primary.fb = some fb ∧ primary.map = some base ∧
      fb.height = mode.drm.vdisplay ∧ mode.lineBytes ≤ fb.pitch ∧
      primary.frame = ⟨base, fb.pitch⟩ := by
  unfold copyPrimaryCheck at h
  split at h
  · cases h
  · next base fb hmap he hfb =>
    split_ifs at h with hsize hpitch
    · cases h
    · cases h
    · refine ⟨fb, base, hfb, hmap, by omega, by omega, ?_⟩
      unfold PlaneSnapshot.frame
      rw [hmap, hfb]
      rfl
  · cases h

section

variable {mode : VideoMode} {primary : PlaneSnapshot} {fb : Framebuffer} {base : Nat}
  (hframe : primary.frame = ⟨base, fb.pitch⟩) (hchecked : FramebufferChecked fb)
  (hheight : fb.height = mode.drm.vdisplay)
include hframe hchecked hheight

/-- No line of the framebuffer starts beyond 32 bits. -/
theorem primaryCopies_eq : primaryCopies mode primary =
    (List.range mode.drm.vdisplay).map fun y => ⟨y, 0, base + y * fb.pitch, mode.lineBytes⟩ := by
  unfold primaryCopies
  rw [hframe]
  apply List.map_congr_left
  intro y hy
  have hline : y * fb.pitch ≤ fb.height * fb.pitch := by
    rw [hheight]
    exact Nat.mul_le_mul_right _ (List.mem_range.1 hy).le
  have hsize := hchecked.size
  dsimp only
  rw [← Nat.cast_mul, Word.u32_natCast, Nat.mod_eq_of_lt (by omega)]

theorem primaryCopies_run (mem : Memory) (bufs : LineBufs) :
    (primaryCopies mode primary).foldl (LineCopy.run mem) bufs = fun y i =>
      if y < mode.drm.vdisplay ∧ i < mode.lineBytes then mem (base + y * fb.pitch + i)
      else bufs y i := by
  rw [primaryCopies_eq hframe hchecked hheight, List.foldl_map]
  have hlines := foldl_putLine bufs 0 0 mode.lineBytes (fun y i => mem (base + y * fb.pitch + i))
    mode.drm.vdisplay
  simp only [Nat.zero_add] at hlines
  unfold LineCopy.run
  rw [hlines]
  funext y i
  by_cases hy : y < mode.drm.vdisplay
  · rw [if_pos (by omega)]
    unfold put
    simp [hy]
  · rw [if_neg (by omega), if_neg (by omega)]

theorem primaryCopies_inside (hmode : mode ∈ fpgaVideoModes) (hfb : primary.fb = some fb)
    (hmap : primary.map = some base) (hpitch : mode.lineBytes ≤ fb.pitch) :
    ∀ c ∈ primaryCopies mode primary, c.Inside primary := by
  obtain ⟨hline, -, -, hw, -, hh⟩ := fpgaVideoModes_sizes mode hmode
  rw [primaryCopies_eq hframe hchecked hheight]
  intro c hc
  obtain ⟨y, hy, rfl⟩ := List.mem_map.1 hc
  have hlt := List.mem_range.1 hy
  have hend : (y + 1) * fb.pitch ≤ fb.height * fb.pitch := by
    rw [hheight]
    exact Nat.mul_le_mul_right _ hlt
  rw [Nat.succ_mul] at hend
  refine ⟨⟨fb, base, hfb, hmap, by dsimp only; omega, by dsimp only; omega⟩, ?_, ?_⟩
  · show y < maxHeight
    omega
  · show 0 + mode.lineBytes ≤ maxWidth * bpp
    rw [hline, Nat.zero_add]
    exact Nat.mul_le_mul_right _ hw

end

/-! ## The overlay -/

/-- An overlay of `width` by `height` pixels from `(sx, sy)` of its framebuffer, shown at
`(dx, dy)`; every sum is exact. -/
structure Placed (mode : VideoMode) (ov : PlaneSnapshot) (fb : Framebuffer)
    (base sx sy dx dy width height : Nat) : Prop where
  attached : ov.fb = some fb
  mapped : ov.map = some base
  checked : FramebufferChecked fb
  src : ov.src = ⟨sx, sy, sx + width, sy + height⟩
  dst : ov.dst = ⟨dx, dy, dx + width, dy + height⟩
  right : sx + width ≤ fb.width
  bottom : sy + height ≤ fb.height
  columns : dx + width ≤ mode.drm.hdisplay
  lines : dy + height ≤ mode.drm.vdisplay

/-- The overlay a commit may show is placed, if the blend takes it. -/
theorem snapshotOf_placed {mode : VideoMode} {st : PlaneState} {fb : Framebuffer}
    (hfb : st.fb = some fb) (hc : st.crtc = true) (hcore : CoreChecked st)
    (hchecked : FramebufferChecked fb) (hx : 0 ≤ st.crtcX) (hy : 0 ≤ st.crtcY)
    (hsw : st.srcW >>> 16 = st.crtcW) (hsh : st.srcH >>> 16 = st.crtcH)
    (hblend : blendOverlayCheck mode (snapshotOf st) = 0) :
    ∃ base, Placed mode (snapshotOf st) fb base (st.srcX >>> 16) (st.srcY >>> 16)
      st.crtcX.toNat st.crtcY.toNat st.crtcW st.crtcH := by
  obtain ⟨he, hsfb, hsmap, hsrc, hdst⟩ := snapshotOf_attached hfb hc
  obtain ⟨base, hbase⟩ := Option.isSome_iff_exists.1 (hcore.mapped fb hfb)
  have hdX := hcore.dstX
  have hdY := hcore.dstY
  have hr := st.u32
  have bx := shiftRight_bounds st.srcX
  have bY := shiftRight_bounds st.srcY
  have bw := shiftRight_bounds st.srcW
  have bh := shiftRight_bounds st.srcH
  rw [hsw] at bw hsrc
  rw [hsh] at bh hsrc
  -- No conversion of this snapshot wraps around.
  rw [Word.s32_of_range _ (by omega) (by omega), Word.s32_of_range _ (by omega) (by omega)]
    at hsrc hdst
  have hux := Word.u32_of_range (((st.srcX >>> 16 : Nat) : Int) + st.crtcW) (by omega) (by omega)
  have huy := Word.u32_of_range (((st.srcY >>> 16 : Nat) : Int) + st.crtcH) (by omega) (by omega)
  unfold blendOverlayCheck at hblend
  rw [hsmap, hbase, hsfb, hsrc, hdst] at hblend
  dsimp only at hblend
  split_ifs at hblend with hf hsign hfits hsize hpitch
  · cases hblend
  · cases hblend
  · cases hblend
  · cases hblend
  · cases hblend
  · refine ⟨base, hsfb, hsmap.trans hbase, hchecked, hsrc, ?_, by omega, by omega, by omega,
      by omega⟩
    rw [hdst, Int.toNat_of_nonneg hx, Int.toNat_of_nonneg hy]

section

variable {mode : VideoMode} {ov : PlaneSnapshot} {fb : Framebuffer}
  {base sx sy dx dy width height : Nat}
  (hp : Placed mode ov fb base sx sy dx dy width height)
include hp

theorem Placed.frame : ov.frame = ⟨base, fb.pitch⟩ := by
  unfold PlaneSnapshot.frame
  rw [hp.attached, hp.mapped]
  rfl

/-- No line of the source starts beyond 32 bits. -/
theorem Placed.line {j : Nat} (hj : j < height) :
    (sy + j) * fb.pitch + fb.pitch ≤ fb.height * fb.pitch ∧
    Word.u32 ((((sy : Nat) : Int) + j) * fb.pitch) = (sy + j) * fb.pitch := by
  have hbottom := hp.bottom
  have hline : (sy + j + 1) * fb.pitch ≤ fb.height * fb.pitch :=
    Nat.mul_le_mul_right _ (by omega)
  rw [Nat.succ_mul] at hline
  have hsize := hp.checked.size
  refine ⟨hline, ?_⟩
  rw [← Nat.cast_add, ← Nat.cast_mul, Word.u32_natCast, Nat.mod_eq_of_lt (by omega)]

theorem overlayCopies_eq (hmode : mode ∈ fpgaVideoModes) : overlayCopies ov =
    (List.range height).flatMap fun y => (List.range width).map fun x =>
      ⟨dy + y, dx * bpp + x * 4, base + (sy + y) * fb.pitch + sx * bpp + x * 4, 4⟩ := by
  obtain ⟨-, -, -, hw, -, hh⟩ := fpgaVideoModes_sizes mode hmode
  have hcolumns := hp.columns
  have hlines := hp.lines
  unfold maxWidth at hw
  unfold maxHeight at hh
  have hwidth : Word.u32 ov.dst.width = width := by
    rw [hp.dst]
    show Word.u32 ((dx : Int) + width - dx) = width
    rw [add_sub_cancel_left, Word.u32_natCast, Nat.mod_eq_of_lt (by omega)]
  have hheight : Word.u32 ov.dst.height = height := by
    rw [hp.dst]
    show Word.u32 ((dy : Int) + height - dy) = height
    rw [add_sub_cancel_left, Word.u32_natCast, Nat.mod_eq_of_lt (by omega)]
  unfold overlayCopies
  rw [hwidth, hheight, hp.frame, hp.dst, hp.src]
  apply List.flatMap_congr
  intro y hy
  apply List.map_congr_left
  intro x _
  obtain ⟨-, hline⟩ := hp.line (List.mem_range.1 hy)
  dsimp only
  rw [hline, Int.toNat_natCast, Int.toNat_natCast, Nat.mul_comm 4 x]
  rfl

theorem overlayCopies_run (hmode : mode ∈ fpgaVideoModes) (mem : Memory) (bufs : LineBufs) :
    (overlayCopies ov).foldl (LineCopy.run mem) bufs = fun y i =>
      if (dy ≤ y ∧ y < dy + height) ∧ dx * bpp ≤ i ∧ i < dx * bpp + width * bpp then
        mem (base + (sy + (y - dy)) * fb.pitch + sx * bpp + (i - dx * bpp))
      else bufs y i := by
  rw [overlayCopies_eq hp hmode, List.foldl_flatMap]
  have hcells : ∀ (bufs : LineBufs) (y : Nat),
      ((List.range width).map fun x => (⟨dy + y, dx * bpp + x * 4,
        base + (sy + y) * fb.pitch + sx * bpp + x * 4, 4⟩ : LineCopy)).foldl
          (LineCopy.run mem) bufs =
        putLine bufs (dy + y) (dx * bpp) (width * 4) fun i =>
          mem (base + (sy + y) * fb.pitch + sx * bpp + i) := by
    intro bufs y
    rw [← foldl_putLine_cells, List.foldl_map]
    simp only [LineCopy.run, Nat.add_assoc]
  simp only [hcells]
  rw [foldl_putLine bufs dy (dx * bpp) (width * 4) fun y i =>
    mem (base + (sy + y) * fb.pitch + sx * bpp + i)]
  funext y i
  unfold put bpp
  by_cases hy : dy ≤ y ∧ y < dy + height
  · rw [if_pos hy]
    simp only [hy, true_and]
  · rw [if_neg hy, if_neg (by omega)]

theorem overlayCopies_inside (hmode : mode ∈ fpgaVideoModes) :
    ∀ c ∈ overlayCopies ov, c.Inside ov := by
  obtain ⟨-, -, -, hw, -, hh⟩ := fpgaVideoModes_sizes mode hmode
  have hcolumns := hp.columns
  have hlines := hp.lines
  have hright := hp.right
  have hpitch := hp.checked.pitch
  unfold maxWidth at hw
  unfold maxHeight at hh
  unfold bpp at hpitch
  rw [overlayCopies_eq hp hmode]
  intro c hc
  obtain ⟨y, hy, hc⟩ := List.mem_flatMap.1 hc
  obtain ⟨x, hx, rfl⟩ := List.mem_map.1 hc
  have hxlt := List.mem_range.1 hx
  have hylt := List.mem_range.1 hy
  obtain ⟨hend, -⟩ := hp.line hylt
  refine ⟨⟨fb, base, hp.attached, hp.mapped, ?_, ?_⟩, ?_, ?_⟩
  · dsimp only
    omega
  · unfold bpp
    dsimp only
    omega
  · show dy + y < 1080
    omega
  · show dx * 4 + x * 4 + 4 ≤ 7680
    omega

end

/-! ## Top theorem -/

/-- The overlay of a commit that both checks have accepted. -/
theorem commitOverlay_placed {helperCheck : PlaneState → DisplayMode → Bool → Int}
    {enableOverlay : Bool} {state : AtomicState} {mode : VideoMode}
    (haccepted : overlayAtomicCheck helperCheck enableOverlay state = .ok ())
    (hcore : ∀ st, state.overlay = some st → CoreChecked st)
    (hchecked : ∀ st fb, state.overlay = some st → st.fb = some fb → FramebufferChecked fb)
    {old : PlaneSnapshot} {refs : Refs} {ov : PlaneSnapshot}
    (hov : commitOverlayArg old state.overlay refs = some ov)
    (hblend : ov.enabled = true → blendOverlayCheck mode ov = 0) :
    ∃ fb base sx sy dx dy width height,
      ov.enabled = true ∧ Placed mode ov fb base sx sy dx dy width height := by
  unfold commitOverlayArg at hov
  cases hst : state.overlay with
  | none =>
      rw [hst] at hov
      cases hov
  | some st =>
      rw [hst] at hov
      cases hfb : st.fb with
      | none => simp [snapshotOf, hfb, PlaneSnapshot.zero, getSnapshot, overlayArg] at hov
      | some fb =>
          cases hcrtc : state.crtc with
          | none =>
              unfold overlayAtomicCheck at haccepted
              simp only [hst, hfb, hcrtc] at haccepted
              split_ifs at haccepted
          | some crtcMode =>
              obtain ⟨hc, -, -, hx, hy, -, -, hsw, hsh⟩ :=
                overlayAtomicCheck_ok hcrtc hst hfb haccepted
              obtain ⟨hen, hsfb, -⟩ := snapshotOf_attached hfb hc
              have he : snapshotOf st = ov := by
                simpa [overlayArg, getSnapshot, hen, hsfb] using hov
              subst he
              obtain ⟨base, hp⟩ := snapshotOf_placed hfb hc (hcore st hst) (hchecked st fb hst hfb)
                hx hy hsw hsh (hblend hen)
              exact ⟨fb, base, _, _, _, _, _, _, hen, hp⟩

/-- Word `x` of a line of the primary. -/
theorem primary_word {mode : VideoMode} {primary : PlaneSnapshot} {fb : Framebuffer} {base : Nat}
    (hframe : primary.frame = ⟨base, fb.pitch⟩) (mem : Memory) (bufs : LineBufs) {x y : Nat}
    (hline : mode.lineBytes = mode.drm.hdisplay * bpp) (hx : x < mode.drm.hdisplay)
    (hy : y < mode.drm.vdisplay) :
    lineWord (fun y i => if y < mode.drm.vdisplay ∧ i < mode.lineBytes then
        mem (base + y * fb.pitch + i) else bufs y i) x y =
      primary.frame.pixel bpp mem x y := by
  unfold lineWord Raster.pixel Raster.address
  rw [hframe]
  apply List.map_congr_left
  intro b hb
  have hlt := List.mem_range.1 hb
  unfold bpp at hline hlt ⊢
  dsimp only
  rw [if_pos (by omega), Nat.add_assoc (base + y * fb.pitch)]

/-- Word `x` of a line with the overlay on it. -/
theorem overlay_word {mode : VideoMode} {ov : PlaneSnapshot} {fb : Framebuffer}
    {base sx sy dx dy width height : Nat}
    (hp : Placed mode ov fb base sx sy dx dy width height) (mem : Memory) (bufs : LineBufs)
    (x y : Nat) :
    lineWord (fun y i =>
        if (dy ≤ y ∧ y < dy + height) ∧ dx * bpp ≤ i ∧ i < dx * bpp + width * bpp then
          mem (base + (sy + (y - dy)) * fb.pitch + sx * bpp + (i - dx * bpp))
        else bufs y i) x y =
      if ov.dst.contains x y then
        ov.frame.pixel bpp mem (ov.src.x1 + x - ov.dst.x1).toNat (ov.src.y1 + y - ov.dst.y1).toNat
      else lineWord bufs x y := by
  unfold lineWord Raster.pixel Raster.address Rect.contains
  rw [hp.frame, hp.src, hp.dst]
  by_cases hin : (dx ≤ x ∧ x < dx + width) ∧ dy ≤ y ∧ y < dy + height
  · rw [if_pos (by simp only [Bool.and_eq_true, decide_eq_true_iff]; omega)]
    apply List.map_congr_left
    intro b hb
    have hlt := List.mem_range.1 hb
    rw [show ((sx : Int) + x - dx).toNat = sx + (x - dx) by omega,
      show ((sy : Int) + y - dy).toNat = sy + (y - dy) by omega]
    unfold bpp at hlt ⊢
    dsimp only
    rw [if_pos (by omega)]
    congr 1
    omega
  · rw [if_neg (by simp only [Bool.and_eq_true, decide_eq_true_iff]; omega)]
    apply List.map_congr_left
    intro b hb
    have hlt := List.mem_range.1 hb
    unfold bpp at hlt ⊢
    dsimp only
    rw [if_neg (by omega)]

theorem composed_picture {mode : VideoMode} (hmode : mode ∈ fpgaVideoModes)
    {primary : PlaneSnapshot} (hprimary : ∀ fb, primary.fb = some fb → FramebufferChecked fb)
    {overlay : Option PlaneSnapshot} {mem : Memory} {bufs : LineBufs}
    (hret : (composeFrame mode primary overlay mem bufs).ret = 0)
    (hplaced : ∀ ov, overlay = some ov → ∃ fb base sx sy dx dy width height,
      ov.enabled = true ∧ Placed mode ov fb base sx sy dx dy width height) :
    let r := composeFrame mode primary overlay mem bufs
    (∀ x < mode.drm.hdisplay, ∀ y < mode.drm.vdisplay,
      lineWord r.bufs x y = referencePixel primary overlay mem x y) ∧
    (∀ y i, mode.drm.vdisplay ≤ y ∨ mode.lineBytes ≤ i → r.bufs y i = bufs y i) ∧
    ∀ c ∈ composeCopies mode primary overlay,
      c.Inside primary ∨ ∃ ov, overlay = some ov ∧ c.Inside ov := by
  obtain ⟨hcopy, -, hbufs⟩ := composeFrame_run hret
  obtain ⟨fb, base, hfb, hmap, hheight, hpitch, hframe⟩ := copyPrimaryCheck_frame hcopy
  have hfbChecked := hprimary fb hfb
  obtain ⟨hline, -, -, -, -, -⟩ := fpgaVideoModes_sizes mode hmode
  have hrun := primaryCopies_run hframe hfbChecked hheight mem bufs
  have hinside := primaryCopies_inside hframe hfbChecked hheight hmode hfb hmap hpitch
  intro r
  cases overlay with
  | none =>
      have hcopies : composeCopies mode primary none = primaryCopies mode primary :=
        List.append_nil _
      have hr : r.bufs = _ := hbufs
      rw [hcopies, hrun] at hr
      rw [hr, hcopies]
      refine ⟨fun x hx y hy => primary_word hframe mem bufs hline hx hy, ?_,
        fun c hc => .inl (hinside c hc)⟩
      intro y i hout
      dsimp only
      rw [if_neg (by omega)]
  | some ov =>
      obtain ⟨fb', base', sx, sy, dx, dy, width, height, he, hp⟩ := hplaced ov rfl
      have hcopies : composeCopies mode primary (some ov) =
          primaryCopies mode primary ++ overlayCopies ov := by
        unfold composeCopies
        dsimp only
        rw [if_pos he]
      have hr : r.bufs = _ := hbufs
      rw [hcopies, List.foldl_append, hrun, overlayCopies_run hp hmode] at hr
      have hcolumns := hp.columns
      have hlines := hp.lines
      rw [hr, hcopies]
      refine ⟨fun x hx y hy => ?_, fun y i hout => ?_, fun c hc => ?_⟩
      · rw [overlay_word hp, primary_word hframe mem bufs hline hx hy]
        unfold referencePixel
        dsimp only
        rw [he, Bool.true_and]
      · unfold bpp at hline ⊢
        dsimp only
        rw [if_neg (by omega), if_neg (by omega)]
      · rcases List.mem_append.1 hc with hc | hc
        · exact .inl (hinside c hc)
        · exact .inr ⟨ov, rfl, overlayCopies_inside hp hmode c hc⟩

/-- **The line buffers hold the reference picture** and nothing else of them has changed;
every access of the loops stays inside a framebuffer and a line buffer. -/
theorem composeFrame_picture {helperCheck : PlaneState → DisplayMode → Bool → Int}
    {enableOverlay : Bool} {state : AtomicState} {mode : VideoMode}
    (hmode : mode ∈ fpgaVideoModes) {primary : PlaneSnapshot}
    (hprimary : ∀ fb, primary.fb = some fb → FramebufferChecked fb)
    (haccepted : overlayAtomicCheck helperCheck enableOverlay state = .ok ())
    (hcore : ∀ st, state.overlay = some st → CoreChecked st)
    (hchecked : ∀ st fb, state.overlay = some st → st.fb = some fb → FramebufferChecked fb)
    (old : PlaneSnapshot) (refs : Refs) (mem : Memory) (bufs : LineBufs) :
    let overlay := commitOverlayArg old state.overlay refs
    let r := composeFrame mode primary overlay mem bufs
    r.ret = 0 →
      (∀ x < mode.drm.hdisplay, ∀ y < mode.drm.vdisplay,
        lineWord r.bufs x y = referencePixel primary overlay mem x y) ∧
      (∀ y i, mode.drm.vdisplay ≤ y ∨ mode.lineBytes ≤ i → r.bufs y i = bufs y i) ∧
      r.bufs = (composeCopies mode primary overlay).foldl (LineCopy.run mem) bufs ∧
      ∀ c ∈ composeCopies mode primary overlay,
        c.Inside primary ∨ ∃ ov, overlay = some ov ∧ c.Inside ov := by
  intro overlay r hret
  obtain ⟨-, hblend, hbufs⟩ := composeFrame_run hret
  obtain ⟨hpicture, hrest, hinside⟩ := composed_picture hmode hprimary hret fun ov hov =>
    commitOverlay_placed haccepted hcore hchecked hov (hblend ov hov)
  exact ⟨hpicture, hrest, hbufs, hinside⟩

/-- Eight by four pixels from `(2, 1)` of a small framebuffer, shown at `(100, 50)`. -/
def cursorState : PlaneState where
  fb := some ⟨9, formatXrgb8888, modLinear, 64, 64, 256, by decide⟩
  crtc := true
  srcX := 2 * 65536
  srcY := 1 * 65536
  srcW := 8 * 65536
  srcH := 4 * 65536
  crtcX := 100
  crtcY := 50
  crtcW := 8
  crtcH := 4
  data := some 2000000

theorem composeFrame_picture_cursor :
    let state : AtomicState := ⟨some vga.drm, some (vgaState vgaFb), some cursorState⟩
    let mem : Memory := fun i => UInt8.ofNat i
    lineWord (composeFrame vga (snapshotOf (vgaState vgaFb))
        (commitOverlayArg .zero state.overlay ⟨[], []⟩) mem fun _ _ => 0).bufs 103 52 =
      (List.range 4).map fun b => mem (2000000 + (1 + 2) * 256 + (2 + 3) * 4 + b) := by
  intro state mem
  have hpixel : referencePixel (snapshotOf (vgaState vgaFb))
      (commitOverlayArg .zero state.overlay ⟨[], []⟩) mem 103 52 =
      (List.range 4).map fun b => mem (2000000 + (1 + 2) * 256 + (2 + 3) * 4 + b) := by
    decide +kernel
  rw [← hpixel]
  have haccepted : overlayAtomicCheck unscaledCheck true state = .ok () := by decide
  refine (composeFrame_picture (by decide) ?_ haccepted ?_ ?_ .zero ⟨[], []⟩ mem _ ?_).1 103
    (by decide) 52 (by decide)
  · rintro fb ⟨⟩
    exact ⟨by decide, by decide⟩
  · rintro st ⟨⟩
    refine ⟨?_, ?_, by decide, by decide, ?_⟩
    · rintro fb ⟨⟩; decide
    · rintro fb ⟨⟩; decide
    · rintro fb ⟨⟩; decide
  · rintro st fb ⟨⟩ ⟨⟩
    exact ⟨by decide, by decide⟩
  · rw [composeFrame_ret]
    decide

end FpgaDrm
