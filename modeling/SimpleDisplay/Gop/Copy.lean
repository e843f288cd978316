import SimpleDisplay.Gop.Pixels

/-!
# `EfiBltVideoToVideo` moves a rectangle

The rows of a copy go through the one-row buffer, from the bottom up when the destination
is below the source.  In that order no row of the source is overwritten before it is read
(`copy_order`), so every pixel arrives as it was before the call, whatever the overlap.
-/

namespace SimpleDisplay

open Word Blocks

variable {σ : Type} {pci : PciIo σ} {priv : Private} {mem : σ → Nat → UInt8} {a : BltArgs}
  {delta : Nat}

/-- Where row `row` of the loop reads and writes. -/
def copySource (info : GopInfo) (a : BltArgs) (row : Nat) : Nat :=
  (video info).address 4 a.sourceX (a.sourceY + copyRow a row)

def copyTarget (info : GopInfo) (a : BltArgs) (row : Nat) : Nat :=
  (video info).address 4 a.destinationX (a.destinationY + copyRow a row)

theorem copyRow_lt {row : Nat} (hrow : row < a.height.val) : copyRow a row < a.height.val := by
  unfold copyRow
  split <;> omega

/-- The rows are all there, in one order or the other. -/
theorem copyRow_copyRow {row : Nat} (hrow : row < a.height.val) :
    copyRow a (copyRow a row) = row := by
  unfold copyRow
  split <;> omega

section

variable (hinfo : priv.gopInfo = makeModeInfo 0) (hacc : Accepted priv.gopInfo a delta)
  (hop : a.operation = bltVideoToVideo)
include hinfo hacc hop

/-- What a copy may rely on: both rectangles are on the screen. -/
theorem copy_inside :
    a.sourceX.val * 4 + a.width.val * 4 ≤ (video priv.gopInfo).stride ∧
    a.destinationX.val * 4 + a.width.val * 4 ≤ (video priv.gopInfo).stride := by
  obtain ⟨hx, hy⟩ := hacc.source (.inr hop)
  obtain ⟨hx', hy'⟩ := hacc.destination (by rw [hop]; decide)
  have hheight := hacc.height
  exact ⟨(screen_inside hinfo hx (y := a.sourceY.val) (by omega)).1,
    (screen_inside hinfo hx' (y := a.destinationY.val) (by omega)).1⟩

/-- No row is written twice, and none before the loop has read it. -/
theorem copy_order {row row' : Nat} (hrow : row < a.height.val) (hlt : row' < row) :
    Apart (a.width * 4) (copyTarget priv.gopInfo a row) (copyTarget priv.gopInfo a row') ∧
    Apart (a.width * 4) (copyTarget priv.gopInfo a row') (copySource priv.gopInfo a row) := by
  obtain ⟨hsource, htarget⟩ := copy_inside hinfo hacc hop
  unfold copyTarget copySource copyRow
  by_cases hdown : a.destinationY.val > a.sourceY.val
  · rw [if_pos hdown, if_pos hdown]
    exact ⟨Raster.apart htarget htarget (by omega), Raster.apart htarget hsource (by omega)⟩
  · rw [if_neg hdown, if_neg hdown]
    exact ⟨Raster.apart htarget htarget (by omega), Raster.apart htarget hsource (by omega)⟩

variable (hbar : barMinSize ≤ priv.hardware.barLength)
  (hmem : FrameBufferMemory pci (priv.hardware.barIndex % 256) mem)
include hbar hmem

/-- A row of the loop is a block copied within the frame buffer. -/
theorem videoToVideoRow_puts {host : Nat → UInt8} {row : Nat} (hrow : row < a.height.val)
    {w : World σ} (hhost : w.host = host) :
    Puts (fun w => mem w.dev) (fun w => w.host = host) (copyTarget priv.gopInfo a row)
      (a.width * 4) (fun m i => m (copySource priv.gopInfo a row + i)) w
      (videoToVideoRow pci priv a row w) := by
  obtain ⟨hx, hy⟩ := hacc.source (.inr hop)
  obtain ⟨hx', hy'⟩ := hacc.destination (by rw [hop]; decide)
  have hmode : priv.gopInfo.verticalResolution = 1080 := by rw [hinfo]; rfl
  have hcopy := copyRow_lt hrow
  have hline : u64 (a.sourceY.val + copyRow a row) = a.sourceY.val + copyRow a row :=
    u64_of_lt (by omega)
  have hline' : u64 (a.destinationY.val + copyRow a row) = a.destinationY.val + copyRow a row :=
    u64_of_lt (by omega)
  obtain ⟨hread, -, hsame, -, hbytes⟩ := readFrameBufferRow_memory hinfo hbar hmem none hacc.width hx
    (show a.sourceY.val + copyRow a row < _ by omega) w
  unfold videoToVideoRow
  rw [hline, hline']
  rcases hr : readFrameBufferRow pci priv none a.sourceX (a.sourceY.val + copyRow a row) a.width w
    with ⟨⟨status, bytes⟩, w'⟩
  rw [hr] at hread hsame hbytes
  dsimp only at hread hsame hbytes ⊢
  by_cases herr : status.isError = true
  · rw [if_pos herr]
    have hfail := Status.isError_iff.1 herr
    refine ⟨hread.trans hhost, fun hok => absurd hok hfail, ?_⟩
    intro i _
    exact congrFun hsame i
  · rw [if_neg herr]
    have hok : status = .success := by
      by_contra hne
      exact herr (Status.isError_iff.2 hne)
    have hbytes := hbytes hok
    obtain ⟨hwrite, -, hdone, hfailed⟩ := writeFrameBufferRow_memory hinfo hbar hmem none hacc.width
      hx' (show a.destinationY.val + copyRow a row < _ by omega)
      (show bytes.length = a.width.val * 4 by rw [hbytes, loadBytes_length]) w'
    refine ⟨hwrite.trans (hread.trans hhost), fun hok => ?_, fun i hi => ?_⟩
    · show mem _ = _
      rw [hdone hok, hsame, hbytes]
      exact storeBytes_map _ _ _ _
    · show mem _ i = mem _ i
      rw [hfailed i hi, hsame]

/-- The whole loop, when it succeeds. -/
theorem videoToVideo_rows (w : World σ) :
    let r := forRows (videoToVideoRow pci priv a) a.height 0 w
    r.1 = .success → r.2.host = w.host ∧
      mem r.2.dev = puts (copyTarget priv.gopInfo a) (a.width * 4)
        (fun row m i => m (copySource priv.gopInfo a row + i)) a.height (mem w.dev) := by
  have hbody : ∀ row w', row < a.height.val → w'.host = w.host →
      Puts (fun w => mem w.dev) (fun w' => w'.host = w.host) (copyTarget priv.gopInfo a row)
        (a.width * 4) (fun m i => m (copySource priv.gopInfo a row + i)) w'
        (videoToVideoRow pci priv a row w') :=
    fun row w' hrow hhost => videoToVideoRow_puts hinfo hacc hop hbar hmem hrow hhost
  intro r hok
  obtain ⟨k, -, hiff, hhost, hsee⟩ := forRows_puts (I := fun _ w' => w'.host = w.host) hbody rfl
  refine ⟨hhost, ?_⟩
  obtain rfl : k = a.height.val := hiff.1 hok
  funext i
  exact hsee i fun hlt => absurd hlt (Nat.lt_irrefl _)

end

/-! ## Top theorem -/

/-- **A copy is a two-dimensional `memmove`.**  When every call of `PciIo` succeeds, the
destination holds what the source held before the call, however the two rectangles
overlap, and every other pixel is unchanged. -/
theorem videoToVideo_moves {s₀ s₁ : σ}
    (hinit : hwInitializeContext pci s₀ = (.ok priv.hardware, s₁))
    (hinfo : priv.gopInfo = makeModeInfo 0)
    (hmem : FrameBufferMemory pci (priv.hardware.barIndex % 256) mem)
    {bltBuffer poolOk : Bool} (hop : a.operation = bltVideoToVideo)
    (hcheck : bltCheck priv bltBuffer poolOk a = .ok delta) (w : World σ)
    (hcalls : w.Succeeds (blt pci priv a bltBuffer poolOk w).2) :
    let r := blt pci priv a bltBuffer poolOk w
    let before := (video priv.gopInfo).pixel 4 (mem w.dev)
    let after := (video priv.gopInfo).pixel 4 (mem r.2.dev)
    r.1 = .success ∧
    (∀ i < a.width.val, ∀ j < a.height.val,
      after (a.destinationX + i) (a.destinationY + j) = before (a.sourceX + i) (a.sourceY + j)) ∧
    (∀ x < priv.gopInfo.horizontalResolution, ∀ y < priv.gopInfo.verticalResolution,
      ¬ ((a.destinationX.val ≤ x ∧ x < a.destinationX + a.width) ∧
        a.destinationY.val ≤ y ∧ y < a.destinationY + a.height) → after x y = before x y) ∧
    r.2.host = w.host := by
  obtain ⟨hbar, -⟩ := barMinSize_le hinit
  have hacc := bltCheck_ok hcheck
  obtain ⟨hok, hr⟩ := blt_success hinfo hbar hcheck w hcalls
  have hrow : bltRow pci priv a delta w.host = videoToVideoRow pci priv a := by
    unfold bltRow
    rw [if_neg (by rw [hop]; decide), if_pos hop]
  rw [hrow] at hr
  intro r before after
  obtain ⟨hhost, hsee⟩ := videoToVideo_rows hinfo hacc hop hbar hmem w (by rw [← hr]; exact hok)
  rw [← hr] at hhost hsee
  refine ⟨hok, fun i hi j hj => ?_, fun x hx y hy hout => ?_, hhost⟩
  · -- Line `j` of the rectangle is row `copyRow a j` of the loop.
    apply Raster.pixel_congr
    intro b hb
    have hcell := puts_copy (m := mem w.dev)
      (fun _ hrow _ hlt => (copy_order hinfo hacc hop hrow hlt).1)
      (fun _ hrow _ hlt => (copy_order hinfo hacc hop hrow hlt).2) (copyRow_lt hj)
      (show i * 4 + b < a.width.val * 4 by omega)
    rw [← hsee] at hcell
    unfold copyTarget copySource at hcell
    rw [copyRow_copyRow hj] at hcell
    rw [Raster.address_add, Raster.address_add, Nat.add_assoc, Nat.add_assoc]
    exact hcell
  · apply Raster.pixel_congr
    intro b hb
    show mem r.2.dev _ = _
    rw [hsee]
    apply puts_outside
    intro row hrow
    obtain ⟨-, htarget⟩ := copy_inside hinfo hacc hop
    have hpixel := (screen_inside hinfo (show x + 1 ≤ _ by omega) hy).1
    have hcopy := copyRow_lt hrow
    exact Raster.address_outside (by omega) (by omega) (by omega) hb

/-- A rectangle moved one pixel down and to the right, over itself. -/
theorem videoToVideo_moves_diagonal :
    let priv : Private := ⟨⟨2, 0, barMinSize, abiVersion, 3, 4096⟩, ⟨1, 0⟩, makeModeInfo 0⟩
    let a : BltArgs := ⟨bltVideoToVideo, 10, 20, 11, 21, 3, 2, 0⟩
    let w : World (Nat → UInt8) := ⟨identityMemory, fun _ => 0, []⟩
    let before := (video priv.gopInfo).pixel 4 w.dev
    let after := (video priv.gopInfo).pixel 4 (blt memoryPci priv a false true w).2.dev
    (blt memoryPci priv a false true w).1 = .success ∧
      after 12 22 = before 11 21 ∧ after 10 20 = before 10 20 := by
  intro priv a w before after
  have hinit : hwInitializeContext memoryPci identityMemory = (.ok priv.hardware, identityMemory) :=
    rfl
  have hcalls : w.Succeeds (blt memoryPci priv a false true w).2 := by
    have hall : ∀ c ∈ (blt memoryPci priv a false true w).2.rows, c.pci = some .success := by
      decide +kernel
    intro calls hrows
    rwa [hrows] at hall
  have hcheck : bltCheck priv false true a = .ok 0 := by decide +kernel
  obtain ⟨hok, hinside, houtside, -⟩ :=
    videoToVideo_moves hinit rfl (memoryPci_memory _) rfl hcheck w hcalls
  have hpixel := hinside 1 (by decide) 1 (by decide)
  rw [show a.destinationX.val + 1 = 12 by decide, show a.destinationY.val + 1 = 22 by decide,
    show a.sourceX.val + 1 = 11 by decide, show a.sourceY.val + 1 = 21 by decide] at hpixel
  exact ⟨hok, hpixel, houtside 10 (by decide) 20 (by decide) (by decide)⟩

end SimpleDisplay
