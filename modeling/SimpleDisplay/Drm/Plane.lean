import SimpleDisplay.Lib.Word
import SimpleDisplay.Drm.Mode

/-!
# Planes: atomic check, snapshots, CPU composition

`primaryAtomicCheck` and `overlayAtomicCheck` decide which plane states a commit may
carry; `replaceSnapshot` turns an accepted state into the snapshot the upload path
keeps; `composeFrame` copies the primary and blends the overlay into the line
buffers, and validates both again.  The two validators do not ask the same questions:

    an accepted commit composes ↔ its primary framebuffer has the mode's size    (composeFrame_accepted_iff)

because the atomic check compares the source and destination rectangles with the
mode and never the framebuffer itself.

`fpga->active_mode` is not an option here: probe sets it to the preferred mode and
the CRTC enable replaces it by a table entry, so the `if (!mode)` fallbacks are dead.
-/

namespace FpgaDrm

open Word

def formatXrgb8888 : Nat := 0x34325258
def modLinear : Nat := 0
def modInvalid : Nat := 0x00ffffffffffffff

/-- What the driver reads of a `struct drm_framebuffer`; `id` is the object's identity. -/
structure Framebuffer where
  id : Nat
  format : Nat
  modifier : Nat
  width : Nat
  height : Nat
  pitch : Nat
  u32 : width < 4294967296 ∧ height < 4294967296 ∧ pitch < 4294967296 := by decide
deriving DecidableEq, Repr

/-- `struct drm_plane_state` with its shadow mapping; the source rectangle is 16.16.
`crtc` says whether the state is attached to the device's one CRTC. -/
structure PlaneState where
  fb : Option Framebuffer
  crtc : Bool
  srcX : Nat
  srcY : Nat
  srcW : Nat
  srcH : Nat
  crtcX : Int
  crtcY : Int
  crtcW : Nat
  crtcH : Nat
  data : Option Nat
  u32 : srcX < 4294967296 ∧ srcY < 4294967296 ∧ srcW < 4294967296 ∧ srcH < 4294967296 ∧
    crtcW < 4294967296 ∧ crtcH < 4294967296 := by decide
  s32 : -2147483648 ≤ crtcX ∧ crtcX < 2147483648 ∧ -2147483648 ≤ crtcY ∧
    crtcY < 2147483648 := by decide
deriving DecidableEq, Repr

/-- The new state of a commit: the CRTC's mode, when the commit carries the CRTC, and
the plane states it carries. -/
structure AtomicState where
  crtc : Option DisplayMode
  primary : Option PlaneState
  overlay : Option PlaneState
deriving DecidableEq, Repr

/-! ## Atomic check -/

/-- What `fpga_drm_reject_atomic_state` logs and returns. -/
structure Reject where
  stage : String
  ret : Int
  reason : String
deriving DecidableEq, Repr

def checkXrgb8888Fb (fb : Framebuffer) (stage : String) : Except Reject Unit :=
  if fb.format ≠ formatXrgb8888 then .error ⟨stage, -EINVAL, "unsupported-format"⟩
  else if fb.modifier ≠ modLinear ∧ fb.modifier ≠ modInvalid then
    .error ⟨stage, -EINVAL, "unsupported-modifier"⟩
  else if fb.pitch < Word.u32 (fb.width * bpp) then .error ⟨stage, -EINVAL, "pitch-too-small"⟩
  else .ok ()

section Check

-- `drm_atomic_helper_check_plane_state` without scaling: the plane state, the CRTC's
-- mode and `can_position` to its return value
variable (helperCheck : PlaneState → DisplayMode → Bool → Int)

def primaryAtomicCheck (state : AtomicState) : Except Reject Unit :=
  match state.primary with
  | none => .ok ()
  | some st =>
    match st.fb with
    | none => .ok ()
    | some fb =>
      if !st.crtc then .error ⟨"primary", -EINVAL, "missing-crtc"⟩
      else match state.crtc with
        | none => .error ⟨"primary", -EINVAL, "missing-crtc-state"⟩
        | some crtcMode =>
          match findVideoMode crtcMode with
          | none => .error ⟨"primary", -EINVAL, "unknown-mode"⟩
          | some mode => do
            checkXrgb8888Fb fb "primary"
            let ret := helperCheck st crtcMode false
            if ret ≠ 0 then .error ⟨"primary", ret, "helper-check"⟩
            else if st.crtcX ≠ 0 ∨ st.crtcY ≠ 0 ∨
                st.crtcW ≠ mode.drm.hdisplay ∨ st.crtcH ≠ mode.drm.vdisplay ∨
                st.srcW >>> 16 ≠ mode.drm.hdisplay ∨ st.srcH >>> 16 ≠ mode.drm.vdisplay then
              .error ⟨"primary", -EINVAL, "not-fullscreen"⟩
            else .ok ()

def overlayAtomicCheck (enableOverlay : Bool) (state : AtomicState) : Except Reject Unit :=
  match state.overlay with
  | none => .ok ()
  | some st =>
    match st.fb with
    | none => .ok ()
    | some fb =>
      if !enableOverlay then .error ⟨"overlay", -EINVAL, "overlay-disabled"⟩
      else if !st.crtc then .error ⟨"overlay", -EINVAL, "missing-crtc"⟩
      else match state.crtc with
        | none => .error ⟨"overlay", -EINVAL, "missing-crtc-state"⟩
        | some crtcMode => do
          checkXrgb8888Fb fb "overlay"
          let ret := helperCheck st crtcMode true
          if ret ≠ 0 then .error ⟨"overlay", ret, "helper-check"⟩
          -- the sums mix `int32_t` and `uint32_t`: they are unsigned
          else if st.crtcX < 0 ∨ st.crtcY < 0 ∨ st.crtcW = 0 ∨ st.crtcH = 0 ∨
              crtcMode.hdisplay < Word.u32 (st.crtcX + st.crtcW) ∨
              crtcMode.vdisplay < Word.u32 (st.crtcY + st.crtcH) then
            .error ⟨"overlay", -EINVAL, "out-of-bounds"⟩
          else if st.srcW >>> 16 ≠ st.crtcW ∨ st.srcH >>> 16 ≠ st.crtcH then
            .error ⟨"overlay", -EINVAL, "scaling-unsupported"⟩
          else .ok ()

end Check

/-! ## Snapshots and framebuffer references -/

structure Rect where
  x1 : Int
  y1 : Int
  x2 : Int
  y2 : Int
deriving DecidableEq, Repr

def Rect.width (r : Rect) : Int := r.x2 - r.x1
def Rect.height (r : Rect) : Int := r.y2 - r.y1

/-- `struct fpga_plane_snapshot`; `map` is `map.vaddr`.  What clears or fills a snapshot
sets `enabled` and `fb` together. -/
structure PlaneSnapshot where
  enabled : Bool
  fb : Option Framebuffer
  src : Rect
  dst : Rect
  map : Option Nat
  attached : enabled = fb.isSome
deriving DecidableEq, Repr

/-- A snapshot after `memset` and `iosys_map_clear`. -/
def PlaneSnapshot.zero : PlaneSnapshot := ⟨false, none, ⟨0, 0, 0, 0⟩, ⟨0, 0, 0, 0⟩, none, rfl⟩

/-- The calls of `drm_framebuffer_get` and `drm_framebuffer_put` the driver has made. -/
structure Refs where
  taken : List Framebuffer
  dropped : List Framebuffer

def Refs.get (r : Refs) (fb : Framebuffer) : Refs := { r with taken := fb :: r.taken }
def Refs.put (r : Refs) (fb : Framebuffer) : Refs := { r with dropped := fb :: r.dropped }

def putSnapshot (snap : PlaneSnapshot) (refs : Refs) : PlaneSnapshot × Refs :=
  (.zero, match snap.fb with
    | some fb => refs.put fb
    | none => refs)

/-- The contents `fpga_drm_replace_snapshot` installs. -/
def snapshotOf (st : PlaneState) : PlaneSnapshot :=
  match st.fb with
  | none => .zero
  | some fb =>
    if !st.crtc then .zero
    else
      let x1 : Int := ↑(st.srcX >>> 16)
      let y1 : Int := ↑(st.srcY >>> 16)
      { enabled := true
        fb := some fb
        map := st.data
        src := ⟨x1, y1, Word.s32 (x1 + ↑(st.srcW >>> 16)), Word.s32 (y1 + ↑(st.srcH >>> 16))⟩
        dst := ⟨st.crtcX, st.crtcY, Word.s32 (st.crtcX + st.crtcW), Word.s32 (st.crtcY + st.crtcH)⟩
        attached := rfl }

def replaceSnapshot (snap : PlaneSnapshot) (st : PlaneState) (refs : Refs) : PlaneSnapshot × Refs :=
  let refs := (putSnapshot snap refs).2
  let new := snapshotOf st
  (new, match new.fb with
    | some fb => refs.get fb
    | none => refs)

/-- The local copy, whether it counts, and the references after it. -/
def getSnapshot (src : PlaneSnapshot) (refs : Refs) : PlaneSnapshot × Bool × Refs :=
  match src.enabled, src.fb with
  | true, some fb => (src, true, refs.get fb)
  | _, _ => (src, false, refs)

@[simp] theorem replaceSnapshot_fst (snap : PlaneSnapshot) (st : PlaneState) (refs : Refs) :
    (replaceSnapshot snap st refs).1 = snapshotOf st := rfl

/-- The composition argument of a captured overlay: `have_overlay ? &overlay : NULL`. -/
def overlayArg (overlay : PlaneSnapshot) (haveOverlay : Bool) : Option PlaneSnapshot :=
  if haveOverlay then some overlay else none

/-! ## CPU composition -/

abbrev Memory := Nat → UInt8

/-- `line_bufs[y]`, byte by byte. -/
abbrev LineBufs := Nat → Nat → UInt8

def memcpyLine (bufs : LineBufs) (y : Nat) (mem : Memory) (src n : Nat) : LineBufs :=
  fun y' x => if y' = y ∧ x < n then mem (src + x) else bufs y' x

/-- The tests `fpga_drm_copy_primary_frame` makes before it copies. -/
def copyPrimaryCheck (mode : VideoMode) (primary : PlaneSnapshot) : Int :=
  match primary.map, primary.enabled, primary.fb with
  | none, _, _ => -EINVAL
  | some _, true, some fb =>
    if fb.format ≠ formatXrgb8888 ∨ fb.width ≠ mode.drm.hdisplay ∨
        fb.height ≠ mode.drm.vdisplay then -EINVAL
    else if fb.pitch < mode.lineBytes then -EINVAL
    else 0
  | some _, _, _ => -EINVAL

def copyPrimaryFrame (mode : VideoMode) (primary : PlaneSnapshot) (mem : Memory) (bufs : LineBufs) :
    Int × LineBufs :=
  let ret := copyPrimaryCheck mode primary
  if ret ≠ 0 then (ret, bufs)
  else
    let src := primary.map.getD 0
    let pitch := (primary.fb.map (·.pitch)).getD 0
    (0, (List.range mode.drm.vdisplay).foldl
      (fun bufs y => memcpyLine bufs y mem (src + Word.u32 (y * pitch)) mode.lineBytes) bufs)

/-- The tests `fpga_drm_blend_overlay_cpu` makes on an enabled overlay. -/
def blendOverlayCheck (mode : VideoMode) (overlay : PlaneSnapshot) : Int :=
  let src := overlay.src
  let dst := overlay.dst
  match overlay.map, overlay.fb with
  | some _, some fb =>
    if fb.format ≠ formatXrgb8888 then -EINVAL
    else if src.x1 < 0 ∨ src.y1 < 0 ∨ dst.x1 < 0 ∨ dst.y1 < 0 then -EINVAL
    else if fb.width < Word.u32 src.x2 ∨ fb.height < Word.u32 src.y2 ∨
        (mode.drm.hdisplay : Int) < dst.x2 ∨ (mode.drm.vdisplay : Int) < dst.y2 then -EINVAL
    else if Word.u32 src.width ≠ Word.u32 dst.width ∨ Word.u32 src.height ≠ Word.u32 dst.height then
      -EINVAL
    else if fb.pitch < Word.u32 (fb.width * bpp) then -EINVAL
    else 0
  | _, _ => -EINVAL

/-- One 32-bit store of the blend loop. -/
def copyWord (bufs : LineBufs) (y x : Nat) (mem : Memory) (src : Nat) : LineBufs :=
  fun y' x' => if y' = y ∧ x ≤ x' ∧ x' < x + 4 then mem (src + (x' - x)) else bufs y' x'

def blendOverlayCpu (mode : VideoMode) (overlay : PlaneSnapshot) (mem : Memory) (bufs : LineBufs) :
    Int × LineBufs :=
  if !overlay.enabled then (0, bufs)
  else
    let ret := blendOverlayCheck mode overlay
    if ret ≠ 0 then (ret, bufs)
    else
      let src := overlay.src
      let dst := overlay.dst
      let base := overlay.map.getD 0
      let pitch := (overlay.fb.map (·.pitch)).getD 0
      (0, (List.range (Word.u32 dst.height)).foldl (fun bufs (y : Nat) =>
        let srcLine := base + Word.u32 ((src.y1 + y) * pitch) + src.x1.toNat * bpp
        let dstLine := (dst.y1 + y).toNat
        (List.range (Word.u32 dst.width)).foldl (fun bufs (x : Nat) =>
          copyWord bufs dstLine (dst.x1.toNat * bpp + 4 * x) mem (srcLine + 4 * x)) bufs) bufs)

/-- The result of `fpga_drm_compose_frame`: its return value, the line buffers and
the number of CPU compositions it counts. -/
structure Composed where
  ret : Int
  bufs : LineBufs
  compositions : Nat

def composeFrame (mode : VideoMode) (primary : PlaneSnapshot) (overlay : Option PlaneSnapshot)
    (mem : Memory) (bufs : LineBufs) : Composed :=
  let (ret, bufs) := copyPrimaryFrame mode primary mem bufs
  if ret ≠ 0 then ⟨ret, bufs, 0⟩
  else match overlay with
    | none => ⟨0, bufs, 0⟩
    | some ov =>
      if !ov.enabled then ⟨0, bufs, 0⟩
      else
        let (ret, bufs) := blendOverlayCpu mode ov mem bufs
        if ret ≠ 0 then ⟨ret, bufs, 0⟩ else ⟨0, bufs, 1⟩

/-- The return value of `composeFrame`, which no pixel decides. -/
def composeRet (mode : VideoMode) (primary : PlaneSnapshot) (overlay : Option PlaneSnapshot) : Int :=
  let ret := copyPrimaryCheck mode primary
  if ret ≠ 0 then ret
  else match overlay with
    | none => 0
    | some ov => if !ov.enabled then 0 else blendOverlayCheck mode ov

/-! ## Lemmas -/

theorem copyPrimaryFrame_ret (mode : VideoMode) (primary : PlaneSnapshot) (mem : Memory)
    (bufs : LineBufs) : (copyPrimaryFrame mode primary mem bufs).1 = copyPrimaryCheck mode primary := by
  by_cases h : copyPrimaryCheck mode primary = 0 <;> simp [copyPrimaryFrame, h]

theorem blendOverlayCpu_ret {overlay : PlaneSnapshot} (he : overlay.enabled = true)
    (mode : VideoMode) (mem : Memory) (bufs : LineBufs) :
    (blendOverlayCpu mode overlay mem bufs).1 = blendOverlayCheck mode overlay := by
  by_cases h : blendOverlayCheck mode overlay = 0 <;> simp [blendOverlayCpu, he, h]

theorem composeFrame_ret (mode : VideoMode) (primary : PlaneSnapshot)
    (overlay : Option PlaneSnapshot) (mem : Memory) (bufs : LineBufs) :
    (composeFrame mode primary overlay mem bufs).ret = composeRet mode primary overlay := by
  simp only [composeFrame, composeRet, copyPrimaryFrame_ret]
  split
  · rfl
  · cases overlay with
    | none => rfl
    | some ov =>
      cases he : ov.enabled with
      | false => simp [he]
      | true => by_cases h : blendOverlayCheck mode ov = 0 <;> simp [he, blendOverlayCpu_ret he, h]

/-! ## What the atomic checks establish -/

theorem checkXrgb8888Fb_ok {fb : Framebuffer} {stage : String}
    (h : checkXrgb8888Fb fb stage = .ok ()) :
    fb.format = formatXrgb8888 ∧ Word.u32 (fb.width * bpp) ≤ fb.pitch := by
  unfold checkXrgb8888Fb at h
  split at h
  · cases h
  · next hf =>
    split at h
    · cases h
    · split at h
      · cases h
      · next hp => exact ⟨not_not.1 hf, Nat.not_lt.1 hp⟩

/-- What a plane state of the DRM core satisfies before the driver's own checks: the
source rectangle lies inside the framebuffer, the destination does not overflow, and
the shadow helpers have mapped the framebuffer. -/
structure CoreChecked (st : PlaneState) : Prop where
  srcX : ∀ fb, st.fb = some fb → st.srcX + st.srcW ≤ fb.width * 65536
  srcY : ∀ fb, st.fb = some fb → st.srcY + st.srcH ≤ fb.height * 65536
  dstX : st.crtcX + st.crtcW < 2147483648
  dstY : st.crtcY + st.crtcH < 2147483648
  mapped : ∀ fb, st.fb = some fb → st.data.isSome

section Accepted

variable {helperCheck : PlaneState → DisplayMode → Bool → Int} {state : AtomicState}
  {crtcMode : DisplayMode} {mode : VideoMode} {st : PlaneState} {fb : Framebuffer}

theorem primaryAtomicCheck_ok (hc : state.crtc = some crtcMode) (hm : findVideoMode crtcMode = some mode)
    (hst : state.primary = some st) (hfb : st.fb = some fb)
    (h : primaryAtomicCheck helperCheck state = .ok ()) :
    st.crtc = true ∧ fb.format = formatXrgb8888 ∧ Word.u32 (fb.width * bpp) ≤ fb.pitch := by
  simp only [primaryAtomicCheck, hst, hfb, hc, hm] at h
  split at h
  · cases h
  · next hcrtc =>
    cases hx : checkXrgb8888Fb fb "primary" with
    | error e => rw [hx] at h; cases h
    | ok u =>
      obtain ⟨hf, hp⟩ := checkXrgb8888Fb_ok hx
      exact ⟨by simpa using hcrtc, hf, hp⟩

theorem overlayAtomicCheck_ok {enableOverlay : Bool} (hc : state.crtc = some crtcMode)
    (hst : state.overlay = some st) (hfb : st.fb = some fb)
    (h : overlayAtomicCheck helperCheck enableOverlay state = .ok ()) :
    st.crtc = true ∧ fb.format = formatXrgb8888 ∧ Word.u32 (fb.width * bpp) ≤ fb.pitch ∧
      0 ≤ st.crtcX ∧ 0 ≤ st.crtcY ∧ Word.u32 (st.crtcX + st.crtcW) ≤ crtcMode.hdisplay ∧
      Word.u32 (st.crtcY + st.crtcH) ≤ crtcMode.vdisplay ∧
      st.srcW >>> 16 = st.crtcW ∧ st.srcH >>> 16 = st.crtcH := by
  simp only [overlayAtomicCheck, hst, hfb, hc] at h
  split at h
  · cases h
  · split at h
    · cases h
    · next hcrtc =>
      cases hx : checkXrgb8888Fb fb "overlay" with
      | error e => rw [hx] at h; cases h
      | ok u =>
        obtain ⟨hf, hp⟩ := checkXrgb8888Fb_ok hx
        rw [hx] at h
        simp only [bind, Except.bind] at h
        split at h
        · cases h
        · split at h
          · cases h
          · next hb =>
            split at h
            · cases h
            · next hs =>
              simp only [not_or, not_lt, not_not] at hb hs
              exact ⟨by simpa using hcrtc, hf, hp, hb.1, hb.2.1, hb.2.2.2.2.1, hb.2.2.2.2.2,
                hs.1, hs.2⟩

end Accepted

/-! ## What the composition accepts -/

/-- The snapshot of an attached state, field by field. -/
theorem snapshotOf_attached {st : PlaneState} {fb : Framebuffer} (hfb : st.fb = some fb)
    (hc : st.crtc = true) :
    (snapshotOf st).enabled = true ∧ (snapshotOf st).fb = some fb ∧ (snapshotOf st).map = st.data ∧
      (snapshotOf st).src = ⟨(st.srcX >>> 16 : Nat), (st.srcY >>> 16 : Nat),
        Word.s32 ((st.srcX >>> 16 : Nat) + (st.srcW >>> 16 : Nat)),
        Word.s32 ((st.srcY >>> 16 : Nat) + (st.srcH >>> 16 : Nat))⟩ ∧
      (snapshotOf st).dst = ⟨st.crtcX, st.crtcY, Word.s32 (st.crtcX + st.crtcW),
        Word.s32 (st.crtcY + st.crtcH)⟩ := by
  simp [snapshotOf, hfb, hc]

/-- The copy's own tests pass exactly when the framebuffer has the mode's size. -/
theorem copyPrimaryCheck_iff {mode : VideoMode} (hmode : mode ∈ fpgaVideoModes) {st : PlaneState}
    {fb : Framebuffer} (hfb : st.fb = some fb) (hc : st.crtc = true) (hmap : st.data.isSome)
    (hf : fb.format = formatXrgb8888) (hp : Word.u32 (fb.width * bpp) ≤ fb.pitch) :
    copyPrimaryCheck mode (snapshotOf st) = 0 ↔
      fb.width = mode.drm.hdisplay ∧ fb.height = mode.drm.vdisplay := by
  obtain ⟨he, hsfb, hsmap, -, -⟩ := snapshotOf_attached hfb hc
  obtain ⟨a, ha⟩ := Option.isSome_iff_exists.1 hmap
  obtain ⟨hline, -, -, hw, -, -⟩ := fpgaVideoModes_sizes mode hmode
  simp only [copyPrimaryCheck, hsmap, ha, he, hsfb, hf, ne_eq, not_true_eq_false, false_or]
  constructor
  · intro h
    split at h
    · simp [EINVAL] at h
    · next hs => exact ⟨by omega, by omega⟩
  · rintro ⟨hwid, hhei⟩
    -- at the mode's width the pitch test of the atomic check does not wrap
    have hpitch : ¬ fb.pitch < mode.lineBytes := by
      simp only [bpp, maxWidth] at hline hw hp
      rw [hwid] at hp
      have : Word.u32 (mode.drm.hdisplay * (4 : Nat)) = mode.drm.hdisplay * 4 := by
        have := Word.u32_natCast (mode.drm.hdisplay * 4)
        push_cast at this ⊢
        rw [this]
        omega
      omega
    simp [hwid, hhei, hpitch]

theorem shiftRight_bounds (n : Nat) : n >>> 16 * 65536 ≤ n ∧ n < (n >>> 16 + 1) * 65536 := by
  rw [Nat.shiftRight_eq_div_pow]; omega

/-- What the overlay check accepts, the blend accepts. -/
theorem blendOverlayCheck_accepted {mode : VideoMode} {st : PlaneState} {fb : Framebuffer}
    (hfb : st.fb = some fb) (hcore : CoreChecked st) (hc : st.crtc = true) (hf : fb.format = formatXrgb8888)
    (hp : Word.u32 (fb.width * bpp) ≤ fb.pitch) (hx : 0 ≤ st.crtcX) (hy : 0 ≤ st.crtcY)
    (hw : Word.u32 (st.crtcX + st.crtcW) ≤ mode.drm.hdisplay)
    (hh : Word.u32 (st.crtcY + st.crtcH) ≤ mode.drm.vdisplay)
    (hsw : st.srcW >>> 16 = st.crtcW) (hsh : st.srcH >>> 16 = st.crtcH) :
    blendOverlayCheck mode (snapshotOf st) = 0 := by
  obtain ⟨he, hsfb, hsmap, hsrc, hdst⟩ := snapshotOf_attached hfb hc
  obtain ⟨a, ha⟩ := Option.isSome_iff_exists.1 (hcore.mapped fb hfb)
  have hX := hcore.srcX fb hfb
  have hY := hcore.srcY fb hfb
  have hdX := hcore.dstX
  have hdY := hcore.dstY
  have hr := st.u32
  have bx := shiftRight_bounds st.srcX
  have bY := shiftRight_bounds st.srcY
  have bw := shiftRight_bounds st.srcW
  have bh := shiftRight_bounds st.srcH
  rw [hsw] at bw hsrc
  rw [hsh] at bh hsrc
  generalize st.srcX >>> 16 = x1 at bx hsrc
  generalize st.srcY >>> 16 = y1 at bY hsrc
  -- no conversion of this snapshot wraps
  rw [Word.s32_of_range _ (by omega) (by omega), Word.s32_of_range _ (by omega) (by omega)] at hsrc hdst
  have hux := Word.u32_of_range (st.crtcX + st.crtcW) (by omega) (by omega)
  have huy := Word.u32_of_range (st.crtcY + st.crtcH) (by omega) (by omega)
  have husx := Word.u32_of_range ((x1 : Int) + st.crtcW) (by omega) (by omega)
  have husy := Word.u32_of_range ((y1 : Int) + st.crtcH) (by omega) (by omega)
  simp only [blendOverlayCheck, hsmap, ha, hsfb, hf, hsrc, hdst, Rect.width, Rect.height, ne_eq,
    not_true_eq_false, if_false, add_sub_cancel_left, or_self]
  rw [if_neg (by omega), if_neg (by omega), if_neg (by omega)]

/-- The overlay argument the upload path makes of a commit's overlay state. -/
def commitOverlayArg (old : PlaneSnapshot) (overlay : Option PlaneState) (refs : Refs) :
    Option PlaneSnapshot :=
  match overlay with
  | none => none
  | some st =>
    let snap := (replaceSnapshot old st refs).1
    overlayArg snap (getSnapshot snap refs).2.1

theorem blend_of_overlay_accepted {helperCheck : PlaneState → DisplayMode → Bool → Int}
    {enableOverlay : Bool} {state : AtomicState} {crtcMode : DisplayMode} {mode : VideoMode}
    (hc : state.crtc = some crtcMode) (hm : findVideoMode crtcMode = some mode)
    (hov : overlayAtomicCheck helperCheck enableOverlay state = .ok ())
    (hcore : ∀ st, state.overlay = some st → CoreChecked st) (old : PlaneSnapshot) (refs : Refs) :
    ∀ ov, commitOverlayArg old state.overlay refs = some ov → blendOverlayCheck mode ov = 0 := by
  intro ov h
  unfold commitOverlayArg at h
  cases hst : state.overlay with
  | none => rw [hst] at h; cases h
  | some st =>
    rw [hst] at h
    cases hfb : st.fb with
    | none => simp [snapshotOf, hfb, PlaneSnapshot.zero, getSnapshot, overlayArg] at h
    | some fb =>
      obtain ⟨hcrtc, hf, hp, hx, hy, hw, hh, hsw, hsh⟩ := overlayAtomicCheck_ok hc hst hfb hov
      obtain ⟨hsx, hsy⟩ := findVideoMode_size hm
      have he : snapshotOf st = ov := by
        obtain ⟨hen, hsfb, -⟩ := snapshotOf_attached hfb hcrtc
        simpa [overlayArg, getSnapshot, hen, hsfb] using h
      rw [← he]
      rw [hsx] at hw
      rw [hsy] at hh
      exact blendOverlayCheck_accepted hfb (hcore st hst) hcrtc hf hp hx hy hw hh hsw hsh

/-- **What the atomic checks accept, the upload path composes exactly when the primary
framebuffer has the size of the mode.** -/
theorem composeFrame_accepted_iff {helperCheck : PlaneState → DisplayMode → Bool → Int}
    {enableOverlay : Bool} {state : AtomicState} {crtcMode : DisplayMode} {mode : VideoMode}
    {st : PlaneState} {fb : Framebuffer} (hc : state.crtc = some crtcMode)
    (hm : findVideoMode crtcMode = some mode) (hst : state.primary = some st)
    (hfb : st.fb = some fb) (hpri : primaryAtomicCheck helperCheck state = .ok ())
    (hov : overlayAtomicCheck helperCheck enableOverlay state = .ok ()) (hcore : CoreChecked st)
    (hcoreOv : ∀ ov, state.overlay = some ov → CoreChecked ov)
    (oldPrimary oldOverlay : PlaneSnapshot) (refs : Refs) (mem : Memory) (bufs : LineBufs) :
    (composeFrame mode (replaceSnapshot oldPrimary st refs).1
      (commitOverlayArg oldOverlay state.overlay refs) mem bufs).ret = 0 ↔
      fb.width = mode.drm.hdisplay ∧ fb.height = mode.drm.vdisplay := by
  obtain ⟨hcrtc, hf, hp⟩ := primaryAtomicCheck_ok hc hm hst hfb hpri
  have hcopy := copyPrimaryCheck_iff (findVideoMode_mem hm) hfb hcrtc (hcore.mapped fb hfb) hf hp
  have hblend := blend_of_overlay_accepted hc hm hov hcoreOv oldOverlay refs
  rw [composeFrame_ret, replaceSnapshot_fst, ← hcopy]
  unfold composeRet
  cases ha : commitOverlayArg oldOverlay state.overlay refs with
  | none => simp
  | some ov => simp [hblend ov ha]

/-! ## A panned primary -/

/-- The helper on unscaled rectangles: 0, else `-ERANGE`. -/
def unscaledCheck (st : PlaneState) (_ : DisplayMode) (_ : Bool) : Int :=
  if st.srcW = st.crtcW * 65536 ∧ st.srcH = st.crtcH * 65536 then 0 else -34

def vga : VideoMode := fpgaVideoModes.head fpgaVideoModes_ne_nil

/-- A 1920x1080 framebuffer of which the top left 640x480 are shown. -/
def pannedFb : Framebuffer where
  id := 7
  format := formatXrgb8888
  modifier := modLinear
  width := 1920
  height := 1080
  pitch := 7680

/-- A framebuffer of the mode's own size. -/
def vgaFb : Framebuffer where
  id := 8
  format := formatXrgb8888
  modifier := modLinear
  width := 640
  height := 480
  pitch := 2560

def vgaState (fb : Framebuffer) : PlaneState where
  fb := some fb
  crtc := true
  srcX := 0
  srcY := 0
  srcW := 640 * 65536
  srcH := 480 * 65536
  crtcX := 0
  crtcY := 0
  crtcW := 640
  crtcH := 480
  data := some 4096

def vgaCommit (fb : Framebuffer) : AtomicState := ⟨some vga.drm, some (vgaState fb), none⟩

/-- The commit of `pannedFb` passes both checks and then fails at upload time. -/
theorem panned_primary_accepted_not_composed :
    findVideoMode vga.drm = some vga ∧
    primaryAtomicCheck unscaledCheck (vgaCommit pannedFb) = .ok () ∧
    overlayAtomicCheck unscaledCheck true (vgaCommit pannedFb) = .ok () ∧
    CoreChecked (vgaState pannedFb) ∧
    (composeFrame vga (replaceSnapshot .zero (vgaState pannedFb) ⟨[], []⟩).1
      (commitOverlayArg .zero (vgaCommit pannedFb).overlay ⟨[], []⟩)
      (fun _ => 0) (fun _ _ => 0)).ret = -EINVAL := by
  refine ⟨by decide, by decide, by decide, ⟨?_, ?_, by decide, by decide, ?_⟩, ?_⟩
  · rintro fb ⟨⟩; decide
  · rintro fb ⟨⟩; decide
  · rintro fb ⟨⟩; decide
  · rw [composeFrame_ret]; decide

theorem composeFrame_accepted_iff_vga :
    (composeFrame vga (replaceSnapshot .zero (vgaState vgaFb) ⟨[], []⟩).1
      (commitOverlayArg .zero (vgaCommit vgaFb).overlay ⟨[], []⟩)
      (fun _ => 0) (fun _ _ => 0)).ret = 0 ↔
      vgaFb.width = vga.drm.hdisplay ∧ vgaFb.height = vga.drm.vdisplay := by
  have hpri : primaryAtomicCheck unscaledCheck (vgaCommit vgaFb) = .ok () := by decide
  have hov : overlayAtomicCheck unscaledCheck true (vgaCommit vgaFb) = .ok () := by decide
  refine composeFrame_accepted_iff rfl (by decide) rfl rfl hpri hov
    ⟨?_, ?_, by decide, by decide, ?_⟩ (by rintro ov ⟨⟩) _ _ _ _ _
  · rintro fb ⟨⟩; decide
  · rintro fb ⟨⟩; decide
  · rintro fb ⟨⟩; decide

end FpgaDrm
