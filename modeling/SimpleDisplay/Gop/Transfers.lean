import SimpleDisplay.Gop.Pixels

/-!
# Fills and buffer transfers

Each row of these requests is one block, put into the frame buffer or into `BltBuffer`.
Both are rasters with strides of their own, and the rows of a request are lines of one
rectangle in each (`Transferred`).  A request that fails at row `k` has drawn the rows
before it and has not touched the rows after it.
-/

namespace SimpleDisplay

open Word Blocks

variable {σ : Type} {pci : PciIo σ} {priv : Private} {mem : σ → Nat → UInt8} {a : BltArgs}
  {delta : Nat}

/-- What the request has done when it ends after `k` complete rows. -/
def Transferred (info : GopInfo) (mem : σ → Nat → UInt8) (a : BltArgs) (delta k : Nat)
    (w w' : World σ) : Prop :=
  if a.operation = bltVideoToBltBuffer then
    mem w'.dev = mem w.dev ∧
    (buffer delta).Drawn 4 a.destinationX a.destinationY a.width a.height k
      (fun i j => (video info).pixel 4 (mem w.dev) (a.sourceX + i) (a.sourceY + j)) w.host w'.host
  else
    w'.host = w.host ∧
    (video info).Drawn 4 a.destinationX a.destinationY a.width a.height k
      (fun i j =>
        if a.operation = bltVideoFill then loadBytes w.host 0 4
        else (buffer delta).pixel 4 w.host (a.sourceX + i) (a.sourceY + j))
      (mem w.dev) (mem w'.dev)

/-! ## Rows -/

theorem fillBytes_eq (host : Nat → UInt8) (width : Nat) :
    fillBytes host width = (List.range (width * 4)).map fun i => host (i % 4) := by
  induction width with
  | zero => rfl
  | succ width ih =>
      unfold fillBytes at ih ⊢
      rw [List.replicate_succ', List.flatten_append, ih, Nat.succ_mul, List.range_add,
        List.map_append, List.map_map]
      congr 1
      simp [loadBytes, bytesPerPixel, List.range_succ]

theorem bufferOffset_buffer (a : BltArgs) (delta row : Nat) :
    bufferOffset a delta row = (buffer delta).address 4 a.bufferX (a.bufferY + row) := by
  unfold bufferOffset buffer Raster.address
  rw [Nat.zero_add]

section

variable (hinfo : priv.gopInfo = makeModeInfo 0) (hbar : barMinSize ≤ priv.hardware.barLength)
  (hmem : FrameBufferMemory pci (priv.hardware.barIndex % 256) mem)
  (hacc : Accepted priv.gopInfo a delta)
include hinfo hbar hmem hacc

/-- A row that writes the destination: `bytes` is its line. -/
theorem writeRow_puts (hop : a.operation ≠ bltVideoToBltBuffer) (slot : Option Nat)
    (f : Nat → UInt8) {host : Nat → UInt8} {n row : Nat} (hrow : row < a.height.val)
    {w : World σ} (hw : w.host = host ∧ w.rows.length = n + row) :
    Puts (fun w => mem w.dev) (fun w => w.host = host ∧ w.rows.length = n + (row + 1))
      ((video priv.gopInfo).address 4 a.destinationX (a.destinationY + row)) (a.width * 4)
      (fun _ => f) w
      (writeFrameBufferRow pci priv slot a.destinationX (u64 (a.destinationY + row)) a.width
        ((List.range (a.width * 4)).map f) w) := by
  obtain ⟨hx, hy⟩ := hacc.destination hop
  have hmode : priv.gopInfo.verticalResolution = 1080 := by rw [hinfo]; rfl
  have hline : u64 (a.destinationY.val + row) = a.destinationY.val + row := u64_of_lt (by omega)
  rw [hline]
  obtain ⟨hhost, hrows, hdone, hfailed⟩ := writeFrameBufferRow_memory hinfo hbar hmem slot
    hacc.width hx (show a.destinationY.val + row < _ by omega)
    (show ((List.range (a.width * 4)).map f).length = a.width.val * 4 by simp) w
  refine ⟨⟨hhost.trans hw.1, by omega⟩, fun hok => ?_, hfailed⟩
  show mem _ = _
  rw [hdone hok]
  exact storeBytes_map _ _ _ _

theorem videoToBltBufferRow_puts (hop : a.operation = bltVideoToBltBuffer)
    {screen : Nat → UInt8} {n row : Nat} (hrow : row < a.height.val) {w : World σ}
    (hw : mem w.dev = screen ∧ w.rows.length = n + row) :
    Puts World.host (fun w => mem w.dev = screen ∧ w.rows.length = n + (row + 1))
      ((buffer delta).address 4 a.destinationX (a.destinationY + row)) (a.width * 4)
      (fun _ i => screen ((video priv.gopInfo).address 4 a.sourceX (a.sourceY + row) + i)) w
      (videoToBltBufferRow pci priv a delta row w) := by
  obtain ⟨hx, hy⟩ := hacc.source (.inl hop)
  have hmode : priv.gopInfo.verticalResolution = 1080 := by rw [hinfo]; rfl
  have hline : u64 (a.sourceY.val + row) = a.sourceY.val + row := u64_of_lt (by omega)
  have hoffset : hostOffset a delta row =
      (buffer delta).address 4 a.destinationX (a.destinationY + row) := by
    rw [(hostOffset_exact hacc (usesBuffer_iff.2 (.inl hop)) hrow).2, bufferOffset_buffer]
    unfold BltArgs.bufferX BltArgs.bufferY
    rw [if_pos hop, if_pos hop]
  obtain ⟨hhost, hrows, hsame, hlen, hbytes⟩ := readFrameBufferRow_memory hinfo hbar hmem
    (some (hostOffset a delta row)) hacc.width hx (show a.sourceY.val + row < _ by omega) w
  unfold videoToBltBufferRow
  rw [hoffset] at hhost hrows hsame hlen hbytes
  rw [hline, hoffset]
  refine ⟨⟨hsame.trans hw.1, hrows.trans (by omega)⟩, fun hok => ?_, fun i hi => ?_⟩
  · show storeBytes _ _ _ = _
    rw [hbytes hok, hhost, hw.1]
    exact storeBytes_map _ _ _ _
  · show storeBytes _ _ _ i = _
    rw [storeBytes_outside _ hlen hi, hhost]

/-! ## The loop -/

/-- The rows of a fill or of a transfer to the video. -/
theorem writeRows_drawn (hop : a.operation ≠ bltVideoToBltBuffer)
    (body : Nat → World σ → Status × World σ) (f : Nat → Nat → UInt8) (w : World σ)
    (hbody : ∀ row w', row < a.height.val → w'.host = w.host → ∃ slot, body row w' =
      writeFrameBufferRow pci priv slot a.destinationX (u64 (a.destinationY + row)) a.width
        ((List.range (a.width * 4)).map (f row)) w') :
    let r := forRows body a.height 0 w
    ∃ k ≤ a.height.val, (r.1 = .success ↔ k = a.height.val) ∧
      r.2.rows.length = w.rows.length + min (k + 1) a.height ∧ r.2.host = w.host ∧
      (video priv.gopInfo).Drawn 4 a.destinationX a.destinationY a.width a.height k
        (fun i j => (List.range 4).map fun b => f j (i * 4 + b)) (mem w.dev) (mem r.2.dev) := by
  intro r
  have hputs : ∀ row w', row < a.height.val →
      w'.host = w.host ∧ w'.rows.length = w.rows.length + row →
      Puts (fun w => mem w.dev)
        (fun w' => w'.host = w.host ∧ w'.rows.length = w.rows.length + (row + 1))
        ((video priv.gopInfo).address 4 a.destinationX (a.destinationY + row)) (a.width * 4)
        (fun _ => f row) w' (body row w') := by
    intro row w' hrow hw
    obtain ⟨slot, hslot⟩ := hbody row w' hrow hw.1
    rw [hslot]
    exact writeRow_puts hinfo hbar hmem hacc hop slot (f row) hrow hw
  obtain ⟨k, hk, hiff, ⟨hhost, hrows⟩, hsee⟩ := forRows_puts
    (I := fun row w' => w'.host = w.host ∧ w'.rows.length = w.rows.length + row) hputs ⟨rfl, rfl⟩
  obtain ⟨hx, hy⟩ := hacc.destination hop
  have hheight := hacc.height
  have hline := (screen_inside hinfo hx (y := a.destinationY.val) (by omega)).1
  rw [← Nat.add_mul] at hline
  exact ⟨k, hk, hiff, hrows, hhost, Raster.drawn_of_puts f hline hk hsee⟩

theorem videoToBltBufferRows_drawn (hop : a.operation = bltVideoToBltBuffer) (w : World σ) :
    let r := forRows (videoToBltBufferRow pci priv a delta) a.height 0 w
    ∃ k ≤ a.height.val, (r.1 = .success ↔ k = a.height.val) ∧
      r.2.rows.length = w.rows.length + min (k + 1) a.height ∧ mem r.2.dev = mem w.dev ∧
      (buffer delta).Drawn 4 a.destinationX a.destinationY a.width a.height k
        (fun i j => (video priv.gopInfo).pixel 4 (mem w.dev) (a.sourceX + i) (a.sourceY + j))
        w.host r.2.host := by
  intro r
  obtain ⟨k, hk, hiff, ⟨hdev, hrows⟩, hsee⟩ := forRows_puts
    (I := fun row w' => mem w'.dev = mem w.dev ∧ w'.rows.length = w.rows.length + row)
    (fun row w' hrow hw => videoToBltBufferRow_puts hinfo hbar hmem hacc hop hrow hw)
    (show mem w.dev = mem w.dev ∧ w.rows.length = w.rows.length + 0 from ⟨rfl, rfl⟩)
  have hline : (a.destinationX.val + a.width.val) * 4 ≤ (buffer delta).stride := by
    have hstride := hacc.stride (usesBuffer_iff.2 (.inl hop))
    unfold BltArgs.bufferX at hstride
    rwa [if_pos hop] at hstride
  have hdrawn := Raster.drawn_of_puts
    (fun j i => mem w.dev ((video priv.gopInfo).address 4 a.sourceX (a.sourceY + j) + i))
    hline hk hsee
  refine ⟨k, hk, hiff, hrows, hdev, hdrawn.congr fun i j => ?_⟩
  unfold Raster.pixel
  rw [Raster.address_add]
  simp only [Nat.add_assoc]

theorem fillRows_transferred (hfill : a.operation = bltVideoFill) (w : World σ) :
    let r := forRows (fillRow pci priv a (fillBytes w.host a.width)) a.height 0 w
    ∃ k ≤ a.height.val, (r.1 = .success ↔ k = a.height.val) ∧
      r.2.rows.length = w.rows.length + min (k + 1) a.height ∧
      Transferred priv.gopInfo mem a delta k w r.2 := by
  have hread : a.operation ≠ bltVideoToBltBuffer := by
    rw [hfill]
    decide
  obtain ⟨k, hk, hiff, hrows, hhost, hdrawn⟩ :=
    writeRows_drawn hinfo hbar hmem hacc hread (fillRow pci priv a (fillBytes w.host a.width))
      (fun _ i => w.host (i % 4)) w fun row w' _ _ => ⟨none, by
        unfold fillRow
        rw [fillBytes_eq]⟩
  refine ⟨k, hk, hiff, hrows, ?_⟩
  unfold Transferred
  rw [if_neg hread]
  refine ⟨hhost, hdrawn.congr fun i j => ?_⟩
  rw [if_pos hfill]
  unfold loadBytes
  apply List.map_congr_left
  intro b hb
  have hlt := List.mem_range.1 hb
  rw [show (i * 4 + b) % 4 = 0 + b by omega]

theorem bufferToVideoRows_transferred (hwrite : a.operation = bltBufferToVideo) (w : World σ) :
    let r := forRows (bufferToVideoRow pci priv a delta) a.height 0 w
    ∃ k ≤ a.height.val, (r.1 = .success ↔ k = a.height.val) ∧
      r.2.rows.length = w.rows.length + min (k + 1) a.height ∧
      Transferred priv.gopInfo mem a delta k w r.2 := by
  have hread : a.operation ≠ bltVideoToBltBuffer := by
    rw [hwrite]
    decide
  have hfill : a.operation ≠ bltVideoFill := by
    rw [hwrite]
    decide
  have hbuf : a.usesBuffer = true := usesBuffer_iff.2 (.inr hwrite)
  obtain ⟨k, hk, hiff, hrows, hhost, hdrawn⟩ := writeRows_drawn hinfo hbar hmem hacc hread
    (bufferToVideoRow pci priv a delta) (fun row i => w.host (bufferOffset a delta row + i)) w
    fun row w' hrow hhost =>
      ⟨some (hostOffset a delta row), by
        unfold bufferToVideoRow loadBytes
        rw [hhost, (hostOffset_exact hacc hbuf hrow).2]
        rfl⟩
  refine ⟨k, hk, hiff, hrows, ?_⟩
  unfold Transferred
  rw [if_neg hread]
  refine ⟨hhost, hdrawn.congr fun i j => ?_⟩
  rw [if_neg hfill, bufferOffset_buffer]
  unfold Raster.pixel BltArgs.bufferX BltArgs.bufferY
  rw [if_neg hread, if_neg hread, Raster.address_add]
  simp only [Nat.add_assoc]

theorem videoToBltBufferRows_transferred (hread : a.operation = bltVideoToBltBuffer)
    (w : World σ) :
    let r := forRows (videoToBltBufferRow pci priv a delta) a.height 0 w
    ∃ k ≤ a.height.val, (r.1 = .success ↔ k = a.height.val) ∧
      r.2.rows.length = w.rows.length + min (k + 1) a.height ∧
      Transferred priv.gopInfo mem a delta k w r.2 := by
  obtain ⟨k, hk, hiff, hrows, hdrawn⟩ := videoToBltBufferRows_drawn hinfo hbar hmem hacc hread w
  refine ⟨k, hk, hiff, hrows, ?_⟩
  unfold Transferred
  rw [if_pos hread]
  exact hdrawn

/-- One loop per operation. -/
theorem bltRows_transferred (hmove : a.operation ≠ bltVideoToVideo) (w : World σ) :
    let r := forRows (bltRow pci priv a delta w.host) a.height 0 w
    ∃ k ≤ a.height.val, (r.1 = .success ↔ k = a.height.val) ∧
      r.2.rows.length = w.rows.length + min (k + 1) a.height ∧
      Transferred priv.gopInfo mem a delta k w r.2 := by
  unfold bltRow
  by_cases hfill : a.operation = bltVideoFill
  · rw [if_pos hfill]
    exact fillRows_transferred hinfo hbar hmem hacc hfill w
  rw [if_neg hfill, if_neg hmove]
  by_cases hread : a.operation = bltVideoToBltBuffer
  · rw [if_pos hread]
    exact videoToBltBufferRows_transferred hinfo hbar hmem hacc hread w
  · rw [if_neg hread]
    have hwrite : a.operation = bltBufferToVideo := by
      rcases hacc.operation with h | h | h | h
      · exact absurd h hfill
      · exact absurd h hread
      · exact h
      · exact absurd h hmove
    exact bufferToVideoRows_transferred hinfo hbar hmem hacc hwrite w

theorem blt_transferred (hmove : a.operation ≠ bltVideoToVideo) {bltBuffer poolOk : Bool}
    (hcheck : bltCheck priv bltBuffer poolOk a = .ok delta) (w : World σ) :
    let r := blt pci priv a bltBuffer poolOk w
    ∃ k ≤ a.height.val, (r.1 = .success ↔ k = a.height.val) ∧
      r.2.rows.length = w.rows.length + min (k + 1) a.height ∧
      Transferred priv.gopInfo mem a delta k w r.2 := by
  have hr : blt pci priv a bltBuffer poolOk w =
      forRows (bltRow pci priv a delta w.host) a.height 0 w := by
    unfold blt
    rw [hcheck]
  rw [hr]
  exact bltRows_transferred hinfo hbar hmem hacc hmove w

end

/-! ## Top theorem -/

/-- **Fills and buffer transfers.**  A request draws its rows in order, the whole rectangle
if every call of `PciIo` succeeds, and nothing besides.  What was sent to the video is what
comes back from there, whatever the strides and origins of the two buffers. -/
theorem blt_transfers {s₀ s₁ : σ}
    (hinit : hwInitializeContext pci s₀ = (.ok priv.hardware, s₁))
    (hinfo : priv.gopInfo = makeModeInfo 0)
    (hmem : FrameBufferMemory pci (priv.hardware.barIndex % 256) mem) (bltBuffer poolOk : Bool) :
    (∀ (a : BltArgs) (delta : Nat) (w : World σ),
      a.operation ≠ bltVideoToVideo → bltCheck priv bltBuffer poolOk a = .ok delta →
      let r := blt pci priv a bltBuffer poolOk w
      (w.Succeeds r.2 → r.1 = .success) ∧
      (a.usesBuffer = true →
        delta = if a.delta.val = 0 then (a.bufferX + a.width.val) * 4 else a.delta.val) ∧
      ∃ k ≤ a.height.val, (r.1 = .success ↔ k = a.height.val) ∧
        r.2.rows.length = w.rows.length + min (k + 1) a.height ∧
        Transferred priv.gopInfo mem a delta k w r.2) ∧
    ∀ (a a' : BltArgs) (delta delta' : Nat) (w w' : World σ),
      a.operation = bltBufferToVideo → bltCheck priv bltBuffer poolOk a = .ok delta →
      a'.operation = bltVideoToBltBuffer → bltCheck priv bltBuffer poolOk a' = .ok delta' →
      a'.sourceX = a.destinationX → a'.sourceY = a.destinationY →
      a'.width = a.width → a'.height = a.height →
      let r := blt pci priv a bltBuffer poolOk w
      let r' := blt pci priv a' bltBuffer poolOk w'
      r.1 = .success → mem w'.dev = mem r.2.dev → r'.1 = .success →
      ∀ i < a.width.val, ∀ j < a.height.val,
        (buffer delta').pixel 4 r'.2.host (a'.destinationX + i) (a'.destinationY + j) =
          (buffer delta).pixel 4 w.host (a.sourceX + i) (a.sourceY + j) := by
  obtain ⟨hbar, -⟩ := barMinSize_le hinit
  constructor
  · intro a delta w hmove hcheck r
    have hacc := bltCheck_ok hcheck
    refine ⟨fun hcalls => ?_, hacc.stride_eq, ?_⟩
    · exact (blt_success hinfo hbar hcheck w hcalls).1
    · exact blt_transferred hinfo hbar hmem hacc hmove hcheck w
  · intro a a' delta delta' w w' hop hcheck hop' hcheck' hx hy hwidth hheight r r' hok hdev hok'
      i hi j hj
    obtain ⟨k, -, hiff, -, htransferred⟩ := blt_transferred hinfo hbar hmem (bltCheck_ok hcheck)
      (by rw [hop]; decide) hcheck w
    obtain ⟨k', -, hiff', -, htransferred'⟩ := blt_transferred hinfo hbar hmem
      (bltCheck_ok hcheck') (by rw [hop']; decide) hcheck' w'
    obtain rfl : k = a.height.val := hiff.1 hok
    obtain rfl : k' = a'.height.val := hiff'.1 hok'
    unfold Transferred at htransferred htransferred'
    rw [if_neg (by rw [hop]; decide)] at htransferred
    rw [if_pos hop'] at htransferred'
    -- What the second call reads is what the first has drawn.
    have hback := htransferred'.2.complete i (by rw [hwidth]; exact hi) j
      (by rw [hheight]; exact hj)
    have hsent := htransferred.2.complete i hi j hj
    rw [if_neg (by rw [hop]; decide)] at hsent
    rw [hback, hdev, hx, hy]
    exact hsent

/-- Two by two pixels from a buffer with lines of 13 bytes, and back to one of 22. -/
theorem blt_transfers_odd_stride :
    let priv : Private := ⟨⟨2, 0, barMinSize, abiVersion, 3, 4096⟩, ⟨1, 0⟩, makeModeInfo 0⟩
    let a : BltArgs := ⟨bltBufferToVideo, 1, 2, 100, 200, 2, 2, 13⟩
    let a' : BltArgs := ⟨bltVideoToBltBuffer, 100, 200, 3, 0, 2, 2, 22⟩
    let w : World (Nat → UInt8) := ⟨identityMemory, fun i => UInt8.ofNat i, []⟩
    let w' : World (Nat → UInt8) := ⟨(blt memoryPci priv a true true w).2.dev, fun _ => 0, []⟩
    (buffer 22).pixel 4 (blt memoryPci priv a' true true w').2.host 4 1 =
      (buffer 13).pixel 4 w.host 2 3 := by
  intro priv a a' w w'
  have hinit : hwInitializeContext memoryPci identityMemory = (.ok priv.hardware, identityMemory) :=
    rfl
  have hcheck : bltCheck priv true true a = .ok 13 := by decide +kernel
  have hcheck' : bltCheck priv true true a' = .ok 22 := by decide +kernel
  have hok : (blt memoryPci priv a true true w).1 = .success := by decide +kernel
  have hok' : (blt memoryPci priv a' true true w').1 = .success := by decide +kernel
  have hdev : w'.dev = (blt memoryPci priv a true true w).2.dev := by simp only [w']
  have hback := (blt_transfers hinit rfl (memoryPci_memory _) true true).2 a a' 13 22 w w' rfl hcheck
    rfl hcheck' rfl rfl rfl rfl hok hdev hok' 1 (by decide) 1 (by decide)
  rwa [show a'.destinationX.val + 1 = 4 by decide, show a'.destinationY.val + 1 = 1 by decide,
    show a.sourceX.val + 1 = 2 by decide, show a.sourceY.val + 1 = 3 by decide] at hback

end SimpleDisplay
