import Mathlib.Tactic.Common

/-!
# The mode whitelist of `fpga_drm_drv.c`

`fpgaVideoModes` is the table of the twelve modes the driver accepts;
`findVideoMode` is the lookup that the mode check, the plane checks and the CRTC
enable share, `preferredMode` the fallback of a device without an active mode.
-/

namespace FpgaDrm

def EINVAL : Int := 22
def EIO : Int := 5
def ENOMEM : Int := 12
def EBUSY : Int := 16
def EIOCBQUEUED : Int := 529
def ETIMEDOUT : Int := 110

def maxWidth : Nat := 1920
def maxHeight : Nat := 1080
def bpp : Nat := 4
def maxLineBytes : Nat := maxWidth * bpp
def maxFrameBytes : Nat := maxLineBytes * maxHeight
def frameSpacing : Nat := maxFrameBytes + 0x1000

def flagPHSync : Nat := 1 <<< 0
def flagNHSync : Nat := 1 <<< 1
def flagPVSync : Nat := 1 <<< 2
def flagNVSync : Nat := 1 <<< 3
def typePreferred : Nat := 1 <<< 3
def typeDriver : Nat := 1 <<< 6

/-- The timing fields of `struct drm_display_mode` that the driver reads. -/
structure DisplayMode where
  clock : Nat
  hdisplay : Nat
  hsyncStart : Nat
  hsyncEnd : Nat
  htotal : Nat
  vdisplay : Nat
  vsyncStart : Nat
  vsyncEnd : Nat
  vtotal : Nat
  flags : Nat
  type : Nat
deriving DecidableEq, Repr

/-- `struct fpga_video_mode`. -/
structure VideoMode where
  drm : DisplayMode
  lineBytes : Nat
  frameBytes : Nat
  frameSpacing : Nat
  clkCfg0 : Nat
  clkCfg2 : Nat
  name : String
deriving DecidableEq, Repr

def clkCfg0 (divclk mult fracMilli : Nat) : Nat := divclk ||| (mult <<< 8) ||| (fracMilli <<< 16)
def clkCfg2 (div fracMilli : Nat) : Nat := div ||| (fracMilli <<< 8)

/-- The `FPGA_MODE` macro. -/
def fpgaMode (name : String) (clock hd hss hse ht vd vss vse vt flags type cfg0 cfg2 : Nat) :
    VideoMode where
  drm := ⟨clock, hd, hss, hse, ht, vd, vss, vse, vt, flags, typeDriver ||| type⟩
  lineBytes := hd * bpp
  frameBytes := hd * vd * bpp
  frameSpacing := FpgaDrm.frameSpacing
  clkCfg0 := cfg0
  clkCfg2 := cfg2
  name := name

def fpgaVideoModes : List VideoMode := [
  fpgaMode "640x480@60" 25175 640 656 752 800 480 490 492 525
    (flagNHSync ||| flagNVSync) 0 (clkCfg0 11 36 0) (clkCfg2 26 0),
  fpgaMode "640x480@30" 12587 640 656 752 800 480 490 492 525
    (flagNHSync ||| flagNVSync) 0 (clkCfg0 11 36 0) (clkCfg2 52 0),
  fpgaMode "800x600@60" 40000 800 840 968 1056 600 601 605 628
    (flagPHSync ||| flagPVSync) 0 (clkCfg0 1 3 0) (clkCfg2 15 0),
  fpgaMode "800x600@30" 20000 800 840 968 1056 600 601 605 628
    (flagPHSync ||| flagPVSync) 0 (clkCfg0 1 3 0) (clkCfg2 30 0),
  fpgaMode "1024x768@60" 65000 1024 1048 1184 1344 768 771 777 806
    (flagNHSync ||| flagNVSync) 0 (clkCfg0 4 13 0) (clkCfg2 10 0),
  fpgaMode "1024x768@30" 32500 1024 1048 1184 1344 768 771 777 806
    (flagNHSync ||| flagNVSync) 0 (clkCfg0 4 13 0) (clkCfg2 20 0),
  fpgaMode "1280x720@60" 74250 1280 1390 1430 1650 720 725 730 750
    (flagPHSync ||| flagPVSync) 0 (clkCfg0 10 37 125) (clkCfg2 10 0),
  fpgaMode "1280x720@30" 37125 1280 1390 1430 1650 720 725 730 750
    (flagPHSync ||| flagPVSync) 0 (clkCfg0 10 37 125) (clkCfg2 20 0),
  fpgaMode "1280x1024@60" 108000 1280 1328 1440 1688 1024 1025 1028 1066
    (flagPHSync ||| flagPVSync) 0 (clkCfg0 5 27 0) (clkCfg2 10 0),
  fpgaMode "1280x1024@30" 54000 1280 1328 1440 1688 1024 1025 1028 1066
    (flagPHSync ||| flagPVSync) 0 (clkCfg0 5 27 0) (clkCfg2 20 0),
  fpgaMode "1920x1080@60" 148500 1920 2008 2052 2200 1080 1084 1089 1125
    (flagPHSync ||| flagPVSync) typePreferred (clkCfg0 10 37 125) (clkCfg2 5 0),
  fpgaMode "1920x1080@30" 74250 1920 2008 2052 2200 1080 1084 1089 1125
    (flagPHSync ||| flagPVSync) 0 (clkCfg0 10 37 125) (clkCfg2 10 0)]

def modesEqual (a b : DisplayMode) : Bool :=
  a.clock == b.clock &&
  a.hdisplay == b.hdisplay &&
  a.hsyncStart == b.hsyncStart &&
  a.hsyncEnd == b.hsyncEnd &&
  a.htotal == b.htotal &&
  a.vdisplay == b.vdisplay &&
  a.vsyncStart == b.vsyncStart &&
  a.vsyncEnd == b.vsyncEnd &&
  a.vtotal == b.vtotal &&
  (a.flags &&& flagPHSync) == (b.flags &&& flagPHSync) &&
  (a.flags &&& flagNHSync) == (b.flags &&& flagNHSync) &&
  (a.flags &&& flagPVSync) == (b.flags &&& flagPVSync) &&
  (a.flags &&& flagNVSync) == (b.flags &&& flagNVSync)

def findVideoMode (mode : DisplayMode) : Option VideoMode :=
  fpgaVideoModes.find? fun m => modesEqual mode m.drm

theorem fpgaVideoModes_ne_nil : fpgaVideoModes ≠ [] := by decide

/-- The first preferred entry of the table, else its first entry. -/
def preferredMode : VideoMode :=
  (fpgaVideoModes.find? fun m => m.drm.type &&& typePreferred != 0).getD
    (fpgaVideoModes.head fpgaVideoModes_ne_nil)

theorem findVideoMode_mem {mode : DisplayMode} {m : VideoMode} (h : findVideoMode mode = some m) :
    m ∈ fpgaVideoModes :=
  List.mem_of_find?_eq_some h

/-- The found entry has the asked-for size. -/
theorem findVideoMode_size {mode : DisplayMode} {m : VideoMode} (h : findVideoMode mode = some m) :
    mode.hdisplay = m.drm.hdisplay ∧ mode.vdisplay = m.drm.vdisplay := by
  have he := List.find?_some h
  simp only [modesEqual, Bool.and_eq_true, beq_iff_eq] at he
  exact ⟨he.1.1.1.1.1.1.1.1.1.1.1.2, he.1.1.1.1.1.1.1.2⟩

/-- Every entry's byte sizes follow from its active size, and its line fits a line buffer. -/
theorem fpgaVideoModes_sizes : ∀ m ∈ fpgaVideoModes,
    m.lineBytes = m.drm.hdisplay * bpp ∧ m.frameBytes = m.lineBytes * m.drm.vdisplay ∧
    0 < m.drm.hdisplay ∧ m.drm.hdisplay ≤ maxWidth ∧ 0 < m.drm.vdisplay ∧
    m.drm.vdisplay ≤ maxHeight := by
  decide

theorem preferredMode_mem : preferredMode ∈ fpgaVideoModes := by decide

end FpgaDrm
