import Mathlib.Data.List.GetD
import SimpleDisplay.Gop.BltSafety
import SimpleDisplay.Lib.Blocks

/-!
# The frame buffer under a row loop

`FrameBufferMemory` says what `PciIo` does to the frame buffer: a call that succeeds moves
exactly the bytes asked for, and one that fails may have moved some of them and nothing
else.  A row of a request then is a block put into one memory, the frame buffer or
`BltBuffer` (`Puts`), and the loop is a sequence of blocks up to the row that fails
(`forRows_puts`).
-/

namespace SimpleDisplay

open Word Blocks

/-- The frame buffer and `BltBuffer` as lines of pixels. -/
def video (info : GopInfo) : Raster :=
  ⟨framebufferOffset, info.pixelsPerScanLine * bytesPerPixel⟩

def buffer (delta : Nat) : Raster := ⟨0, delta⟩

structure FrameBufferMemory {σ : Type} (pci : PciIo σ) (bar : Nat) (mem : σ → Nat → UInt8) :
    Prop where
  read : ∀ offset count s, framebufferOffset ≤ offset →
    offset + count * 4 ≤ framebufferOffset + maxFrameBytes →
    let r := pci.memRead bar offset count s
    mem r.2 = mem s ∧
      (r.1.1 = .success → r.1.2.take (count * 4) = loadBytes (mem s) offset (count * 4))
  write : ∀ offset count bytes s, framebufferOffset ≤ offset →
    offset + count * 4 ≤ framebufferOffset + maxFrameBytes → bytes.length = count * 4 →
    let r := pci.memWrite bar offset count bytes s
    (r.1 = .success → mem r.2 = storeBytes (mem s) offset bytes) ∧
      ∀ i, i < offset ∨ offset + count * 4 ≤ i → mem r.2 i = mem s i

/-- What a row does to the memory that `see` shows: it puts a block there, or fails and
changes nothing outside the block.  `I` is what it keeps. -/
structure Puts {σ : Type} (see : World σ → Nat → UInt8) (I : World σ → Prop) (lo n : Nat)
    (f : (Nat → UInt8) → Nat → UInt8) (w : World σ) (r : Status × World σ) : Prop where
  keeps : I r.2
  done : r.1 = .success → see r.2 = put (see w) lo n (f (see w))
  failed : ∀ i, i < lo ∨ lo + n ≤ i → see r.2 i = see w i

/-- The state when the first `k` rows have succeeded. -/
def afterRows {ω : Type} (body : Nat → ω → Status × ω) : Nat → ω → ω
  | 0, w => w
  | k + 1, w => (body k (afterRows body k w)).2

/-- Every call of `PciIo` that brought `w` to `w'` has succeeded. -/
def World.Succeeds {σ : Type} (w w' : World σ) : Prop :=
  ∀ calls, w'.rows = w.rows ++ calls → ∀ c ∈ calls, c.pci = some .success

/-! ## The loop -/

theorem Status.isError_iff {status : Status} : status.isError = true ↔ status ≠ .success := by
  cases status <;> simp [Status.isError]

/-- The loop ends after the last row, or with the first row that fails. -/
theorem forRows_ends {ω : Type} (body : Nat → ω → Status × ω) (w : ω) (n : Nat) :
    ∀ row, (∀ j < row, (body j (afterRows body j w)).1 = .success) →
      ∃ k ≤ row + n, (∀ j < k, (body j (afterRows body j w)).1 = .success) ∧
        let r := forRows body n row (afterRows body row w)
        (k = row + n ∧ r = (.success, afterRows body k w)) ∨
          (k < row + n ∧ r.1 ≠ .success ∧ r = body k (afterRows body k w)) := by
  induction n with
  | zero =>
      intro row hdone
      exact ⟨row, by omega, hdone, .inl ⟨rfl, rfl⟩⟩
  | succ n ih =>
      intro row hdone
      unfold forRows
      dsimp only
      by_cases herr : (body row (afterRows body row w)).1.isError = true
      · rw [if_pos herr]
        exact ⟨row, by omega, hdone, .inr ⟨by omega, Status.isError_iff.1 herr, rfl⟩⟩
      · rw [if_neg herr]
        have hok : (body row (afterRows body row w)).1 = .success := by
          by_contra hne
          exact herr (Status.isError_iff.2 hne)
        have hnext : ∀ j < row + 1, (body j (afterRows body j w)).1 = .success := by
          intro j hj
          by_cases hlast : j = row
          · rw [hlast, hok]
          · exact hdone j (by omega)
        obtain ⟨k, hk, hks, hr⟩ := ih (row + 1) hnext
        rw [show row + (n + 1) = row + 1 + n by omega]
        exact ⟨k, hk, hks, hr⟩

section

variable {σ : Type} {see : World σ → Nat → UInt8} {I : Nat → World σ → Prop} {start : Nat → Nat}
  {n height : Nat} {f : Nat → (Nat → UInt8) → Nat → UInt8} {body : Nat → World σ → Status × World σ}
  (hbody : ∀ row w, row < height → I row w →
    Puts see (I (row + 1)) (start row) n (f row) w (body row w))
  {w : World σ} (hw : I 0 w)
include hbody hw

theorem afterRows_puts {k : Nat} (hk : k ≤ height)
    (hdone : ∀ j < k, (body j (afterRows body j w)).1 = .success) :
    I k (afterRows body k w) ∧ see (afterRows body k w) = puts start n f k (see w) := by
  induction k with
  | zero => exact ⟨hw, rfl⟩
  | succ k ih =>
      obtain ⟨hkeeps, hsee⟩ := ih (by omega) fun j hj => hdone j (by omega)
      have hrow := hbody k _ (by omega) hkeeps
      refine ⟨hrow.keeps, ?_⟩
      show see (body k (afterRows body k w)).2 = _
      rw [hrow.done (hdone k (by omega)), hsee, puts]

/-- Every row before the one that fails is complete, and every one after it untouched. -/
theorem forRows_puts :
    let r := forRows body height 0 w
    ∃ k ≤ height, (r.1 = .success ↔ k = height) ∧ I (min (k + 1) height) r.2 ∧
      ∀ i, (k < height → i < start k ∨ start k + n ≤ i) →
        see r.2 i = puts start n f k (see w) i := by
  obtain ⟨k, hk, hdone, hr⟩ := forRows_ends body w height 0 fun j hj => by omega
  rw [Nat.zero_add] at hk hr
  obtain ⟨hkeeps, hsee⟩ := afterRows_puts hbody hw hk hdone
  intro r
  rcases hr with ⟨hlast, hr⟩ | ⟨hlt, hfail, hr⟩
  · have hr : r = (.success, afterRows body k w) := hr
    rw [hr]
    refine ⟨k, hk, by simp [hlast], ?_, ?_⟩
    · rw [show min (k + 1) height = k by omega]
      exact hkeeps
    · intro i _
      rw [hsee]
  · have hrow := hbody k _ hlt hkeeps
    have hr : r = body k (afterRows body k w) := hr
    have hfail : r.1 ≠ .success := hfail
    rw [← hr] at hrow
    refine ⟨k, hk, ?_, ?_, ?_⟩
    · constructor
      · intro hok
        exact absurd hok hfail
      · omega
    · rw [show min (k + 1) height = k + 1 by omega]
      exact hrow.keeps
    · intro i hi
      rw [hrow.failed i (hi hlt), hsee]

end

/-! ## Rows as blocks -/

theorem loadBytes_length (host : Nat → UInt8) (offset n : Nat) :
    (loadBytes host offset n).length = n := by
  simp [loadBytes]

/-- Bytes that are stored are a block. -/
theorem storeBytes_map (host : Nat → UInt8) (lo n : Nat) (f : Nat → UInt8) :
    storeBytes host lo ((List.range n).map f) = put host lo n f := by
  funext i
  unfold storeBytes put
  by_cases hlo : lo ≤ i
  · rw [if_pos hlo]
    by_cases hi : i < lo + n
    · rw [if_pos ⟨hlo, hi⟩, List.getD_eq_getElem _ _ (by simp; omega)]
      simp
    · rw [if_neg (by omega), List.getD_eq_default _ _ (by simp; omega)]
  · rw [if_neg hlo, if_neg (by omega)]

theorem storeBytes_outside (host : Nat → UInt8) {lo i n : Nat} {bytes : List UInt8}
    (hlen : bytes.length ≤ n) (hi : i < lo ∨ lo + n ≤ i) : storeBytes host lo bytes i = host i := by
  unfold storeBytes
  by_cases hlo : lo ≤ i
  · rw [if_pos hlo, List.getD_eq_default _ _ (by omega)]
  · rw [if_neg hlo]

section

variable {σ : Type} {pci : PciIo σ} {priv : Private} {mem : σ → Nat → UInt8}
  (hinfo : priv.gopInfo = makeModeInfo 0) (hbar : barMinSize ≤ priv.hardware.barLength)
  (hmem : FrameBufferMemory pci (priv.hardware.barIndex % 256) mem)
include hinfo

/-- The lines of the screen fill its raster, and the raster its frame buffer. -/
theorem screen_inside {x y width : Nat} (hx : x + width ≤ priv.gopInfo.horizontalResolution)
    (hy : y < priv.gopInfo.verticalResolution) :
    x * 4 + width * 4 ≤ (video priv.gopInfo).stride ∧
    framebufferOffset ≤ (video priv.gopInfo).address 4 x y ∧
    (video priv.gopInfo).address 4 x y + width * 4 ≤ framebufferOffset + maxFrameBytes := by
  have hmode : makeModeInfo 0 = ⟨1920, 1080, 1920⟩ := by decide
  have hframe : maxFrameBytes = 8294400 := rfl
  unfold video Raster.address bytesPerPixel
  rw [hinfo, hmode] at hx hy ⊢
  dsimp only at hx hy ⊢
  omega

include hbar

theorem rowOffset_video {x y width : Nat} (hwidth : 0 < width)
    (hx : x + width ≤ priv.gopInfo.horizontalResolution)
    (hy : y < priv.gopInfo.verticalResolution) :
    rowOffset priv x y = (video priv.gopInfo).address 4 x y ∧ rowFits priv x y width = true := by
  obtain ⟨hoffset, -, hfits⟩ := rowFits_of_screen hinfo hbar hwidth hx hy
  refine ⟨?_, hfits⟩
  rw [hoffset, Nat.add_mul, Nat.mul_assoc, ← Nat.add_assoc]
  rfl

include hmem

theorem readFrameBufferRow_memory (host : Option Nat) {x y width : Nat} (hwidth : 0 < width)
    (hx : x + width ≤ priv.gopInfo.horizontalResolution)
    (hy : y < priv.gopInfo.verticalResolution) (w : World σ) :
    let r := readFrameBufferRow pci priv host x y width w
    r.2.host = w.host ∧ r.2.rows.length = w.rows.length + 1 ∧ mem r.2.dev = mem w.dev ∧
      r.1.2.length ≤ width * 4 ∧
      (r.1.1 = .success →
        r.1.2 = loadBytes (mem w.dev) ((video priv.gopInfo).address 4 x y) (width * 4)) := by
  obtain ⟨hoffset, hfits⟩ := rowOffset_video hinfo hbar hwidth hx hy
  obtain ⟨-, hlow, hhigh⟩ := screen_inside hinfo hx hy
  obtain ⟨hsame, hbytes⟩ := hmem.read _ width w.dev hlow hhigh
  unfold readFrameBufferRow
  rw [hfits, hoffset]
  refine ⟨rfl, List.length_append, hsame, ?_, hbytes⟩
  exact List.length_take_le _ _

theorem writeFrameBufferRow_memory (host : Option Nat) {x y width : Nat} (hwidth : 0 < width)
    (hx : x + width ≤ priv.gopInfo.horizontalResolution)
    (hy : y < priv.gopInfo.verticalResolution) {bytes : List UInt8}
    (hlen : bytes.length = width * 4) (w : World σ) :
    let r := writeFrameBufferRow pci priv host x y width bytes w
    let lo := (video priv.gopInfo).address 4 x y
    r.2.host = w.host ∧ r.2.rows.length = w.rows.length + 1 ∧
      (r.1 = .success → mem r.2.dev = storeBytes (mem w.dev) lo bytes) ∧
      ∀ i, i < lo ∨ lo + width * 4 ≤ i → mem r.2.dev i = mem w.dev i := by
  obtain ⟨hoffset, hfits⟩ := rowOffset_video hinfo hbar hwidth hx hy
  obtain ⟨-, hlow, hhigh⟩ := screen_inside hinfo hx hy
  obtain ⟨hdone, hfailed⟩ := hmem.write _ width bytes w.dev hlow hhigh hlen
  unfold writeFrameBufferRow
  rw [hfits, hoffset]
  exact ⟨rfl, List.length_append, hdone, hfailed⟩

end

/-- An accepted request succeeds if every call of `PciIo` does. -/
theorem blt_success {σ : Type} {pci : PciIo σ} {priv : Private}
    (hinfo : priv.gopInfo = makeModeInfo 0) (hbar : barMinSize ≤ priv.hardware.barLength)
    {bltBuffer poolOk : Bool} {a : BltArgs} {delta : Nat}
    (hcheck : bltCheck priv bltBuffer poolOk a = .ok delta) (w : World σ)
    (hcalls : w.Succeeds (blt pci priv a bltBuffer poolOk w).2) :
    (blt pci priv a bltBuffer poolOk w).1 = .success ∧
    blt pci priv a bltBuffer poolOk w = forRows (bltRow pci priv a delta w.host) a.height 0 w := by
  have hacc := bltCheck_ok hcheck
  have hr : blt pci priv a bltBuffer poolOk w =
      forRows (bltRow pci priv a delta w.host) a.height 0 w := by
    unfold blt
    rw [hcheck]
  have hissued : Issued priv a delta w (blt pci priv a bltBuffer poolOk w) := by
    rw [hr]
    exact forRows_issued (fun _ _ hrow => bltRow_issued hinfo hbar hacc pci w.host _ hrow)
      a.height 0 w hacc.height (by omega)
  refine ⟨?_, hr⟩
  obtain ⟨calls, hrows, -, -, hlast⟩ := hissued
  by_contra hne
  obtain ⟨c, hc, hpci⟩ := hlast (Status.isError_iff.2 hne)
  have hok := hcalls calls hrows c (List.mem_of_getLast? hc)
  rw [hpci] at hok
  exact hne (Option.some.inj hok)

theorem memoryPci_memory (bar : Nat) : FrameBufferMemory memoryPci bar fun s => s := by
  constructor
  · intro offset count s _ _
    refine ⟨rfl, fun _ => ?_⟩
    exact List.take_of_length_le (loadBytes_length s offset (count * 4)).le
  · intro offset count bytes s _ _ hlen
    refine ⟨fun _ => ?_, fun i hi => ?_⟩
    · show storeBytes s offset (bytes.take (count * 4)) = _
      rw [List.take_of_length_le (by omega)]
    · exact storeBytes_outside s (by simp) hi

end SimpleDisplay
