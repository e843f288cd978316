import SimpleDisplay.Gop.Blt

/-!
# The checks of `SimpleDisplayBlt` are complete

`Accepted` is what an accepted request satisfies, in plain arithmetic.  It is enough for
every row: the pixels are on the screen, the bytes are in BAR2, and no offset wraps
around.  `Issued` follows the row functions through a call: they are called as planned, in
order, up to the first one for which `PciIo` returns an error.
-/

namespace SimpleDisplay

open Word

/-! ## Accepted requests -/

structure Accepted (info : GopInfo) (a : BltArgs) (delta : Nat) : Prop where
  width : 0 < a.width.val
  height : 0 < a.height.val
  operation : a.operation = bltVideoFill ∨ a.operation = bltVideoToBltBuffer ∨
    a.operation = bltBufferToVideo ∨ a.operation = bltVideoToVideo
  source : a.operation = bltVideoToBltBuffer ∨ a.operation = bltVideoToVideo →
    a.sourceX.val + a.width.val ≤ info.horizontalResolution ∧
    a.sourceY.val + a.height.val ≤ info.verticalResolution
  destination : a.operation ≠ bltVideoToBltBuffer →
    a.destinationX.val + a.width.val ≤ info.horizontalResolution ∧
    a.destinationY.val + a.height.val ≤ info.verticalResolution
  stride_eq : a.usesBuffer = true →
    delta = if a.delta.val = 0 then (a.bufferX + a.width.val) * 4 else a.delta.val
  stride : a.usesBuffer = true → (a.bufferX + a.width.val) * 4 ≤ delta
  last : a.usesBuffer = true →
    (a.bufferY + a.height.val - 1) * delta + (a.bufferX + a.width.val) * 4 < 2 ^ 64

/-! ### Lemmas -/

theorem usesBuffer_iff {a : BltArgs} : a.usesBuffer = true ↔
    a.operation = bltVideoToBltBuffer ∨ a.operation = bltBufferToVideo := by
  unfold BltArgs.usesBuffer
  rw [Bool.or_eq_true, decide_eq_true_iff, decide_eq_true_iff]

theorem rectFits_iff {start length limit : Nat} :
    rectFits start length limit = true ↔ 0 < length ∧ start + length ≤ limit := by
  unfold rectFits
  simp only [Bool.and_eq_true, decide_eq_true_iff]
  omega

/-- What the layout check lets through. -/
theorem layoutCheck_ok {a : BltArgs} {delta : Nat} (hw : 0 < a.width.val) (hh : 0 < a.height.val)
    (h : layoutCheck a = .ok delta) :
    delta = (if a.delta.val = 0 then (a.bufferX + a.width.val) * 4 else a.delta.val) ∧
    (a.bufferX + a.width.val) * 4 ≤ delta ∧
    (a.bufferY + a.height.val - 1) * delta + (a.bufferX + a.width.val) * 4 < 2 ^ 64 := by
  unfold layoutCheck at h
  obtain ⟨hwidth, h⟩ := check_ok h
  obtain ⟨horigin, h⟩ := check_ok h
  obtain ⟨hshort, h⟩ := check_ok h
  obtain ⟨hrows, h⟩ := check_ok h
  obtain ⟨hlast, h⟩ := check_ok h
  have hpixels : u64 (a.bufferX + a.width.val) = a.bufferX + a.width.val := by
    apply u64_of_lt
    unfold maxUintn at hwidth
    omega
  have hfit : (a.bufferX + a.width.val) * 4 ≤ 2 ^ 64 - 1 := by
    rw [hpixels] at hwidth
    unfold maxUintn bytesPerPixel at hwidth
    omega
  have hbytes : u64 ((a.bufferX + a.width.val) * bytesPerPixel) = (a.bufferX + a.width.val) * 4 :=
    u64_of_lt (show (a.bufferX + a.width.val) * 4 < 2 ^ 64 by omega)
  rw [hpixels, hbytes] at hshort hrows hlast h
  have hdelta := Except.ok.inj h
  rw [hdelta] at hrows hlast
  have hstride : (a.bufferX + a.width.val) * 4 ≤ delta := by
    rw [← hdelta]
    split <;> omega
  have hsum : u64 (a.bufferY + a.height.val - 1) = a.bufferY + a.height.val - 1 := by
    apply u64_of_lt
    unfold maxUintn at hrows
    omega
  rw [hsum] at hrows hlast
  have hmul : (a.bufferY + a.height.val - 1) * delta ≤ maxUintn := by
    apply (Nat.le_div_iff_mul_le (by omega)).1
    omega
  rw [u64_of_lt (by unfold maxUintn at hmul; omega)] at hlast
  refine ⟨hdelta.symm, hstride, ?_⟩
  unfold maxUintn at hlast
  omega

theorem sourceFits_iff {info : GopInfo} {a : BltArgs} :
    sourceFits info a = true ↔
      (0 < a.width.val ∧ a.sourceX.val + a.width.val ≤ info.horizontalResolution) ∧
      (0 < a.height.val ∧ a.sourceY.val + a.height.val ≤ info.verticalResolution) := by
  unfold sourceFits
  rw [Bool.and_eq_true, rectFits_iff, rectFits_iff]

theorem destinationFits_iff {info : GopInfo} {a : BltArgs} :
    destinationFits info a = true ↔
      (0 < a.width.val ∧ a.destinationX.val + a.width.val ≤ info.horizontalResolution) ∧
      (0 < a.height.val ∧ a.destinationY.val + a.height.val ≤ info.verticalResolution) := by
  unfold destinationFits
  rw [Bool.and_eq_true, rectFits_iff, rectFits_iff]

theorem rectCheck_ok {info : GopInfo} {bltBuffer : Bool} {a : BltArgs}
    (h : rectCheck info bltBuffer a = true) :
    (a.operation = bltVideoFill ∨ a.operation = bltVideoToBltBuffer ∨
      a.operation = bltBufferToVideo ∨ a.operation = bltVideoToVideo) ∧
    (a.operation = bltVideoToBltBuffer ∨ a.operation = bltVideoToVideo →
      a.sourceX.val + a.width.val ≤ info.horizontalResolution ∧
      a.sourceY.val + a.height.val ≤ info.verticalResolution) ∧
    (a.operation ≠ bltVideoToBltBuffer →
      a.destinationX.val + a.width.val ≤ info.horizontalResolution ∧
      a.destinationY.val + a.height.val ≤ info.verticalResolution) := by
  have hdiff : bltVideoFill ≠ bltVideoToBltBuffer ∧ bltVideoFill ≠ bltVideoToVideo ∧
      bltBufferToVideo ≠ bltVideoToBltBuffer ∧ bltBufferToVideo ≠ bltVideoToVideo := by
    decide
  unfold rectCheck at h
  split at h
  · next hop =>
    rw [Bool.and_eq_true, destinationFits_iff] at h
    rw [hop]
    refine ⟨.inl rfl, ?_, fun _ => ⟨h.2.1.2, h.2.2.2⟩⟩
    rintro (h | h)
    · exact absurd h hdiff.1
    · exact absurd h hdiff.2.1
  split at h
  · next hop =>
    rw [Bool.and_eq_true, sourceFits_iff] at h
    exact ⟨.inr (.inl hop), fun _ => ⟨h.2.1.2, h.2.2.2⟩, fun hne => absurd hop hne⟩
  split at h
  · next hop =>
    rw [Bool.and_eq_true, destinationFits_iff] at h
    rw [hop]
    refine ⟨.inr (.inr (.inl rfl)), ?_, fun _ => ⟨h.2.1.2, h.2.2.2⟩⟩
    rintro (h | h)
    · exact absurd h hdiff.2.2.1
    · exact absurd h hdiff.2.2.2
  split at h
  · next hop =>
    rw [Bool.and_eq_true, sourceFits_iff, destinationFits_iff] at h
    exact ⟨.inr (.inr (.inr hop)), fun _ => ⟨h.1.1.2, h.1.2.2⟩, fun _ => ⟨h.2.1.2, h.2.2.2⟩⟩
  · cases h

theorem bltCheck_ok {priv : Private} {bltBuffer poolOk : Bool} {a : BltArgs} {delta : Nat}
    (h : bltCheck priv bltBuffer poolOk a = .ok delta) : Accepted priv.gopInfo a delta := by
  unfold bltCheck at h
  obtain ⟨hready, h⟩ := check_ok h
  obtain ⟨hop, h⟩ := check_ok h
  obtain ⟨hsize, h⟩ := check_ok h
  obtain ⟨hrect, h⟩ := check_ok h
  obtain ⟨hw, hh⟩ : 0 < a.width.val ∧ 0 < a.height.val := by omega
  have hlayout : a.usesBuffer = true → layoutCheck a = .ok delta := by
    intro huse
    obtain ⟨delta', hl, h⟩ := bind_ok h
    obtain ⟨-, -, h⟩ := bind_ok h
    cases h
    unfold strideCheck at hl
    rwa [if_pos huse] at hl
  obtain ⟨hoperation, hsource, hdestination⟩ := rectCheck_ok (by simpa using hrect)
  have hbuffer := fun hu => layoutCheck_ok hw hh (hlayout hu)
  exact ⟨hw, hh, hoperation, hsource, hdestination, fun hu => (hbuffer hu).1,
    fun hu => (hbuffer hu).2.1, fun hu => (hbuffer hu).2.2⟩

theorem layoutCheck_error {a : BltArgs} {status : Status} (h : layoutCheck a = .error status) :
    status = .invalidParameter := by
  unfold layoutCheck at h
  dsimp only at h
  split_ifs at h <;> cases h <;> rfl

theorem rowBufferCheck_error {a : BltArgs} {poolOk : Bool} {status : Status}
    (h : rowBufferCheck poolOk a = .error status) :
    status = .invalidParameter ∨ status = .outOfResources := by
  unfold rowBufferCheck at h
  split_ifs at h <;> cases h
  · exact .inl rfl
  · exact .inr rfl

/-- The driver's own refusals. -/
theorem bltCheck_error {priv : Private} {bltBuffer poolOk : Bool} {a : BltArgs} {status : Status}
    (h : bltCheck priv bltBuffer poolOk a = .error status) :
    status = .invalidParameter ∨ status = .notReady ∨ status = .outOfResources := by
  unfold bltCheck at h
  split at h
  · cases h; exact .inr (.inl rfl)
  split at h
  · cases h; exact .inl rfl
  split at h
  · cases h; exact .inl rfl
  split at h
  · cases h; exact .inl rfl
  rcases bind_error h with h | ⟨delta, -, h⟩
  · unfold strideCheck at h
    split at h
    · exact .inl (layoutCheck_error h)
    · cases h
  · rcases bind_error h with h | ⟨-, -, h⟩
    · rcases rowBufferCheck_error h with h | h
      · exact .inl h
      · exact .inr (.inr h)
    · cases h

/-! ## Rows -/

/-- Where a row of the rectangle starts in `BltBuffer`, in exact arithmetic. -/
def bufferOffset (a : BltArgs) (delta row : Nat) : Nat :=
  (a.bufferY + row) * delta + a.bufferX * 4

/-- A call that stays on the screen, in BAR2 and, for a buffer transfer, in its row of
`BltBuffer`, and that reaches `PciIo`. -/
structure RowCall.Inside (priv : Private) (a : BltArgs) (delta : Nat) (c : RowCall) : Prop where
  width : 0 < c.width
  column : c.x + c.width ≤ priv.gopInfo.horizontalResolution
  line : c.y < priv.gopInfo.verticalResolution
  offset : c.offset = framebufferOffset + (c.y * priv.gopInfo.pixelsPerScanLine + c.x) * 4
  bytes : c.offset + c.width * 4 ≤ priv.hardware.barLength
  host : a.usesBuffer = true → c.width = a.width ∧
    ∃ row < a.height.val, c.host = some (bufferOffset a delta row)
  issued : c.pci.isSome = true

/-- What a part of the call has added to the record: calls that stay inside, the last of
which has brought the error, if there is one. -/
def Issued {σ : Type} (priv : Private) (a : BltArgs) (delta : Nat) (w : World σ)
    (r : Status × World σ) : Prop :=
  ∃ calls, r.2.rows = w.rows ++ calls ∧ calls ≠ [] ∧ (∀ c ∈ calls, c.Inside priv a delta) ∧
    (r.1.isError = true → ∃ c, calls.getLast? = some c ∧ c.pci = some r.1)

/-! ### Lemmas -/

theorem Issued.single {σ : Type} {priv : Private} {a : BltArgs} {delta : Nat} {w : World σ}
    {r : Status × World σ} {c : RowCall} (hrows : r.2.rows = w.rows ++ [c])
    (hc : c.Inside priv a delta) (hpci : c.pci = some r.1) : Issued priv a delta w r := by
  refine ⟨[c], hrows, List.cons_ne_nil _ _, ?_, fun _ => ⟨c, rfl, hpci⟩⟩
  intro c' hc'
  rcases List.mem_singleton.1 hc' with rfl
  exact hc

/-- The two calls of a copied row, or two parts of the loop. -/
theorem Issued.append {σ : Type} {priv : Private} {a : BltArgs} {delta : Nat} {w : World σ}
    {r r' : Status × World σ} (h : Issued priv a delta w r) (h' : Issued priv a delta r.2 r') :
    Issued priv a delta w r' := by
  obtain ⟨calls, hrows, -, hin, -⟩ := h
  obtain ⟨calls', hrows', hne', hin', hlast'⟩ := h'
  refine ⟨calls ++ calls', ?_, ?_, ?_, ?_⟩
  · rw [hrows', hrows, List.append_assoc]
  · intro hnil
    exact hne' (List.append_eq_nil_iff.1 hnil).2
  · intro c hc
    rcases List.mem_append.1 hc with hc | hc
    · exact hin c hc
    · exact hin' c hc
  · intro herr
    obtain ⟨c, hc, hpci⟩ := hlast' herr
    refine ⟨c, ?_, hpci⟩
    rw [List.getLast?_append, hc]
    rfl

/-- The loop over at least one row. -/
theorem forRows_issued {σ : Type} {priv : Private} {a : BltArgs} {delta : Nat}
    {body : Nat → World σ → Status × World σ} {height : Nat}
    (hbody : ∀ row w, row < height → Issued priv a delta w (body row w)) :
    ∀ n row w, 0 < n → row + n ≤ height → Issued priv a delta w (forRows body n row w) := by
  intro n
  induction n with
  | zero =>
    intro row w hn
    exact absurd hn (Nat.lt_irrefl 0)
  | succ n ih =>
    intro row w _ hle
    have hrow := hbody row w (by omega)
    unfold forRows
    dsimp only
    by_cases herr : (body row w).1.isError = true
    · rw [if_pos herr]
      exact hrow
    rw [if_neg herr]
    by_cases hn : n = 0
    · subst hn
      obtain ⟨calls, hrows, hne, hin, -⟩ := hrow
      exact ⟨calls, hrows, hne, hin, fun h => nomatch h⟩
    · exact hrow.append (ih (row + 1) _ (by omega) (by omega))

/-- The offset that the row loop computes does not wrap around. -/
theorem hostOffset_exact {info : GopInfo} {a : BltArgs} {delta row : Nat}
    (hacc : Accepted info a delta) (hbuf : a.usesBuffer = true) (hrow : row < a.height.val) :
    bufferOffset a delta row + a.width.val * 4 < 2 ^ 64 ∧
    hostOffset a delta row = bufferOffset a delta row := by
  have hwidth := hacc.width
  have hstride := hacc.stride hbuf
  have hlast := hacc.last hbuf
  have hrows : (a.bufferY + row) * delta ≤ (a.bufferY + a.height.val - 1) * delta :=
    Nat.mul_le_mul_right delta (by omega)
  -- The stride is not zero, so the line itself is no larger than its offset.
  have hline : a.bufferY + row ≤ (a.bufferY + row) * delta := Nat.le_mul_of_pos_right _ (by omega)
  refine ⟨by unfold bufferOffset; omega, ?_⟩
  have h1 : u64 (a.bufferY + row) = a.bufferY + row := u64_of_lt (by omega)
  have h2 : u64 ((a.bufferY + row) * delta) = (a.bufferY + row) * delta := u64_of_lt (by omega)
  have h3 : u64 (a.bufferX * bytesPerPixel) = a.bufferX * 4 :=
    u64_of_lt (show a.bufferX * 4 < 18446744073709551616 by omega)
  unfold hostOffset bufferOffset
  rw [h1, h2, h3]
  exact u64_of_lt (by omega)

section

variable {priv : Private} (hinfo : priv.gopInfo = makeModeInfo 0)
  (hbar : barMinSize ≤ priv.hardware.barLength)
include hinfo hbar

/-- Pixels on the screen of mode 0 are in BAR2: the range checks let them through. -/
theorem rowFits_of_screen {x y width : Nat} (hwidth : 0 < width)
    (hx : x + width ≤ priv.gopInfo.horizontalResolution)
    (hy : y < priv.gopInfo.verticalResolution) :
    rowOffset priv x y = framebufferOffset + (y * priv.gopInfo.pixelsPerScanLine + x) * 4 ∧
    framebufferOffset + (y * priv.gopInfo.pixelsPerScanLine + x) * 4 + width * 4 ≤
      priv.hardware.barLength ∧
    rowFits priv x y width = true := by
  have hmode : makeModeInfo 0 = ⟨1920, 1080, 1920⟩ := by decide
  have hfb : framebufferOffset = 33554432 := rfl
  have hmin : barMinSize = 67108864 := rfl
  have hoffset : rowOffset priv x y =
      framebufferOffset + (y * priv.gopInfo.pixelsPerScanLine + x) * 4 := by
    unfold rowOffset bytesPerPixel
    rw [hinfo, hmode] at hx hy ⊢
    dsimp only at hx hy ⊢
    rw [u64_of_lt (x := y * 1920) (by omega), u64_of_lt (x := y * 1920 + x) (by omega),
      u64_of_lt (x := (y * 1920 + x) * 4) (by omega), u64_of_lt (by omega)]
  have hbytes : framebufferOffset + (y * priv.gopInfo.pixelsPerScanLine + x) * 4 + width * 4 ≤
      priv.hardware.barLength := by
    rw [hinfo, hmode] at hx hy ⊢
    dsimp only at hx hy ⊢
    omega
  refine ⟨hoffset, hbytes, ?_⟩
  have hrow : u64 (width * bytesPerPixel) = width * 4 := by
    apply u64_of_lt
    rw [hinfo, hmode] at hx
    dsimp only at hx
    unfold bytesPerPixel
    omega
  unfold rowFits
  dsimp only
  rw [hrow, hoffset]
  simp only [Bool.and_eq_true, decide_eq_true_iff]
  omega

/-- The record of a call for pixels on the screen. -/
theorem inside_of_screen {a : BltArgs} {delta : Nat} {host : Option Nat} {x y : Nat}
    (hwidth : 0 < a.width.val) (hx : x + a.width.val ≤ priv.gopInfo.horizontalResolution)
    (hy : y < priv.gopInfo.verticalResolution)
    (hhost : a.usesBuffer = true →
      ∃ row < a.height.val, host = some (bufferOffset a delta row))
    (write : Bool) (status : Status) :
    RowCall.Inside priv a delta ⟨write, x, y, a.width, rowOffset priv x y, host, some status⟩ := by
  obtain ⟨hoffset, hbytes, -⟩ := rowFits_of_screen hinfo hbar hwidth hx hy
  refine ⟨hwidth, hx, hy, hoffset, ?_, fun h => ⟨rfl, hhost h⟩, rfl⟩
  dsimp only
  rw [hoffset]
  exact hbytes

/-- A read of pixels on the screen goes to `PciIo`. -/
theorem readFrameBufferRow_issued {σ : Type} (pci : PciIo σ) {a : BltArgs} {delta : Nat}
    {host : Option Nat} {x y : Nat} (w : World σ) (hwidth : 0 < a.width.val)
    (hx : x + a.width.val ≤ priv.gopInfo.horizontalResolution)
    (hy : y < priv.gopInfo.verticalResolution)
    (hhost : a.usesBuffer = true →
      ∃ row < a.height.val, host = some (bufferOffset a delta row)) :
    let r := readFrameBufferRow pci priv host x y a.width w
    Issued priv a delta w (r.1.1, r.2) := by
  obtain ⟨-, -, hfits⟩ := rowFits_of_screen hinfo hbar hwidth hx hy
  unfold readFrameBufferRow
  rw [hfits]
  exact .single rfl (inside_of_screen hinfo hbar hwidth hx hy hhost false _) rfl

theorem writeFrameBufferRow_issued {σ : Type} (pci : PciIo σ) {a : BltArgs} {delta : Nat}
    {host : Option Nat} {x y : Nat} (bytes : List UInt8) (w : World σ) (hwidth : 0 < a.width.val)
    (hx : x + a.width.val ≤ priv.gopInfo.horizontalResolution)
    (hy : y < priv.gopInfo.verticalResolution)
    (hhost : a.usesBuffer = true →
      ∃ row < a.height.val, host = some (bufferOffset a delta row)) :
    Issued priv a delta w (writeFrameBufferRow pci priv host x y a.width bytes w) := by
  obtain ⟨-, -, hfits⟩ := rowFits_of_screen hinfo hbar hwidth hx hy
  unfold writeFrameBufferRow
  rw [hfits]
  exact .single rfl (inside_of_screen hinfo hbar hwidth hx hy hhost true _) rfl

/-! ### Every row of an accepted request -/

variable {a : BltArgs} {delta : Nat} (hacc : Accepted priv.gopInfo a delta)
include hacc

theorem fillRow_issued {σ : Type} (pci : PciIo σ) (hop : a.operation = bltVideoFill)
    (bytes : List UInt8) {row : Nat} (w : World σ) (hrow : row < a.height.val) :
    Issued priv a delta w (fillRow pci priv a bytes row w) := by
  obtain ⟨hx, hy⟩ := hacc.destination (by rw [hop]; decide)
  have hmode : priv.gopInfo.verticalResolution = 1080 := by rw [hinfo]; rfl
  have hline : u64 (a.destinationY.val + row) = a.destinationY.val + row := u64_of_lt (by omega)
  unfold fillRow
  rw [hline]
  refine writeFrameBufferRow_issued hinfo hbar pci bytes w hacc.width hx (by omega) ?_
  intro hbuf
  rw [usesBuffer_iff, hop] at hbuf
  exact absurd hbuf (by decide)

/-- The lines of a copy are those of its rectangle, in either order. -/
theorem videoToVideoRow_issued {σ : Type} (pci : PciIo σ) (hop : a.operation = bltVideoToVideo)
    {row : Nat} (w : World σ) (hrow : row < a.height.val) :
    Issued priv a delta w (videoToVideoRow pci priv a row w) := by
  obtain ⟨hx, hy⟩ := hacc.source (.inr hop)
  obtain ⟨hx', hy'⟩ := hacc.destination (by rw [hop]; decide)
  have hmode : priv.gopInfo.verticalResolution = 1080 := by rw [hinfo]; rfl
  have hcopy : copyRow a row < a.height.val := by
    unfold copyRow
    split <;> omega
  have hline : u64 (a.sourceY.val + copyRow a row) = a.sourceY.val + copyRow a row :=
    u64_of_lt (by omega)
  have hline' : u64 (a.destinationY.val + copyRow a row) = a.destinationY.val + copyRow a row :=
    u64_of_lt (by omega)
  have hbuf : a.usesBuffer = true →
      ∃ row < a.height.val, none = some (bufferOffset a delta row) := by
    intro hbuf
    rw [usesBuffer_iff, hop] at hbuf
    exact absurd hbuf (by decide)
  have hread := readFrameBufferRow_issued hinfo hbar pci w hacc.width hx (by omega) hbuf
    (y := a.sourceY.val + copyRow a row)
  unfold videoToVideoRow
  rw [hline, hline']
  rcases hr : readFrameBufferRow pci priv none a.sourceX (a.sourceY.val + copyRow a row) a.width w
    with ⟨⟨status, bytes⟩, w'⟩
  rw [hr] at hread
  dsimp only at hread ⊢
  split
  · exact hread
  · exact hread.append
      (writeFrameBufferRow_issued hinfo hbar pci bytes w' hacc.width hx' (by omega) hbuf)

theorem videoToBltBufferRow_issued {σ : Type} (pci : PciIo σ)
    (hop : a.operation = bltVideoToBltBuffer) {row : Nat} (w : World σ)
    (hrow : row < a.height.val) :
    Issued priv a delta w (videoToBltBufferRow pci priv a delta row w) := by
  obtain ⟨hx, hy⟩ := hacc.source (.inl hop)
  have hmode : priv.gopInfo.verticalResolution = 1080 := by rw [hinfo]; rfl
  have hline : u64 (a.sourceY.val + row) = a.sourceY.val + row := u64_of_lt (by omega)
  have hbuf : a.usesBuffer = true := usesBuffer_iff.2 (.inl hop)
  have hread := readFrameBufferRow_issued hinfo hbar pci w hacc.width hx (by omega)
    (fun _ => ⟨row, hrow, congrArg some (hostOffset_exact hacc hbuf hrow).2⟩)
    (y := a.sourceY.val + row)
  unfold videoToBltBufferRow
  rw [hline]
  obtain ⟨calls, hrows, hrest⟩ := hread
  exact ⟨calls, hrows, hrest⟩

theorem bufferToVideoRow_issued {σ : Type} (pci : PciIo σ)
    (hop : a.operation = bltBufferToVideo) {row : Nat} (w : World σ) (hrow : row < a.height.val) :
    Issued priv a delta w (bufferToVideoRow pci priv a delta row w) := by
  obtain ⟨hx, hy⟩ := hacc.destination (by rw [hop]; decide)
  have hmode : priv.gopInfo.verticalResolution = 1080 := by rw [hinfo]; rfl
  have hline : u64 (a.destinationY.val + row) = a.destinationY.val + row := u64_of_lt (by omega)
  have hbuf : a.usesBuffer = true := usesBuffer_iff.2 (.inr hop)
  unfold bufferToVideoRow
  rw [hline]
  exact writeFrameBufferRow_issued hinfo hbar pci _ w hacc.width hx (by omega)
    (fun _ => ⟨row, hrow, congrArg some (hostOffset_exact hacc hbuf hrow).2⟩)

theorem bltRow_issued {σ : Type} (pci : PciIo σ) (host : Nat → UInt8) {row : Nat} (w : World σ)
    (hrow : row < a.height.val) : Issued priv a delta w (bltRow pci priv a delta host row w) := by
  unfold bltRow
  by_cases hfill : a.operation = bltVideoFill
  · rw [if_pos hfill]
    exact fillRow_issued hinfo hbar hacc pci hfill _ w hrow
  rw [if_neg hfill]
  by_cases hcopy : a.operation = bltVideoToVideo
  · rw [if_pos hcopy]
    exact videoToVideoRow_issued hinfo hbar hacc pci hcopy w hrow
  rw [if_neg hcopy]
  by_cases hread : a.operation = bltVideoToBltBuffer
  · rw [if_pos hread]
    exact videoToBltBufferRow_issued hinfo hbar hacc pci hread w hrow
  rw [if_neg hread]
  have hwrite : a.operation = bltBufferToVideo := by
    rcases hacc.operation with h | h | h | h
    · exact absurd h hfill
    · exact absurd h hread
    · exact h
    · exact absurd h hcopy
  exact bufferToVideoRow_issued hinfo hbar hacc pci hwrite w hrow

end

/-! ## Top theorem -/

/-- Two rows of a buffer transfer have no byte in common. -/
theorem bufferOffset_disjoint {info : GopInfo} {a : BltArgs} {delta row row' : Nat}
    (hacc : Accepted info a delta) (hbuf : a.usesBuffer = true) (hlt : row < row') :
    bufferOffset a delta row + a.width.val * 4 ≤ bufferOffset a delta row' := by
  have hstride := hacc.stride hbuf
  have hnext : (a.bufferY + row + 1) * delta ≤ (a.bufferY + row') * delta :=
    Nat.mul_le_mul_right delta (by omega)
  rw [Nat.succ_mul] at hnext
  unfold bufferOffset
  omega

/-- A call either is refused by a check of the driver and changes nothing, or was right to
be let through: each row call stays on the screen and in BAR2 and reaches `PciIo`, only
`PciIo` brings an error, and the rows of `BltBuffer` do not wrap around or overlap. -/
theorem blt_validation_complete {σ : Type} {pci : PciIo σ} {priv : Private} {s₀ s₁ : σ}
    (hinit : hwInitializeContext pci s₀ = (.ok priv.hardware, s₁))
    (hinfo : priv.gopInfo = makeModeInfo 0) (bltBuffer poolOk : Bool) (a : BltArgs)
    (w : World σ) :
    let r := blt pci priv a bltBuffer poolOk w
    ((r.1 = .invalidParameter ∨ r.1 = .notReady ∨ r.1 = .outOfResources) ∧ r.2 = w) ∨
    ∃ delta calls, r.2.rows = w.rows ++ calls ∧ calls ≠ [] ∧
      (∀ c ∈ calls, c.Inside priv a delta) ∧
      (r.1.isError = true → ∃ c, calls.getLast? = some c ∧ c.pci = some r.1) ∧
      (a.usesBuffer = true →
        delta = (if a.delta.val = 0 then (a.bufferX + a.width.val) * 4 else a.delta.val) ∧
        ∀ row < a.height.val,
          hostOffset a delta row = bufferOffset a delta row ∧
          bufferOffset a delta row + a.width.val * 4 < 2 ^ 64 ∧
          ∀ row' < row, bufferOffset a delta row' + a.width.val * 4 ≤ bufferOffset a delta row) := by
  obtain ⟨hbar, -⟩ := barMinSize_le hinit
  intro r
  cases hcheck : bltCheck priv bltBuffer poolOk a with
  | error status =>
    have hr : r = (status, w) := by
      show blt pci priv a bltBuffer poolOk w = _
      unfold blt
      rw [hcheck]
    left
    rw [hr]
    exact ⟨bltCheck_error hcheck, rfl⟩
  | ok delta =>
    have hacc := bltCheck_ok hcheck
    have hr : r = forRows (bltRow pci priv a delta w.host) a.height 0 w := by
      show blt pci priv a bltBuffer poolOk w = _
      unfold blt
      rw [hcheck]
    have hissued : Issued priv a delta w r := by
      rw [hr]
      exact forRows_issued (fun _ _ hrow => bltRow_issued hinfo hbar hacc pci w.host _ hrow)
        a.height 0 w hacc.height (by omega)
    obtain ⟨calls, hrows, hne, hin, hlast⟩ := hissued
    refine .inr ⟨delta, calls, hrows, hne, hin, hlast, fun hbuf => ⟨hacc.stride_eq hbuf, ?_⟩⟩
    intro row hrow
    obtain ⟨hfit, hexact⟩ := hostOffset_exact hacc hbuf hrow
    exact ⟨hexact, hfit, fun row' hlt => bufferOffset_disjoint hacc hbuf hlt⟩

/-- A BAR of 64 MiB that behaves like memory. -/
def memoryPci : PciIo (Nat → UInt8) where
  attributes _ _ mem := ((.success, 0), mem)
  pciRead8 _ count mem := ((.success, List.replicate count 0), mem)
  pciRead16 _ mem := ((.success, 0), mem)
  pciWrite16 _ _ mem := (.success, mem)
  getBarAttributes _ mem := ((.success, some ⟨0x8A, 0, 0, barMinSize, barMinSize_lt⟩), mem)
  memRead _ offset count mem := ((.success, loadBytes mem offset (count * 4)), mem)
  memWrite _ offset count bytes mem := (.success, storeBytes mem offset (bytes.take (count * 4)))

/-- The identity registers over an otherwise empty memory. -/
def identityMemory : Nat → UInt8 :=
  storeBytes (fun _ => 0) identityOffset identityBytes

/-- A rectangle of two by two pixels from a buffer of three by four. -/
theorem blt_validation_complete_transfer :
    let priv : Private := ⟨⟨2, 0, barMinSize, abiVersion, 3, 4096⟩, ⟨1, 0⟩, makeModeInfo 0⟩
    let a : BltArgs := ⟨bltBufferToVideo, 1, 2, 1918, 1078, 2, 2, 12⟩
    ∃ calls, (blt memoryPci priv a true true ⟨identityMemory, fun _ => 0, []⟩).2.rows = calls ∧
      calls ≠ [] ∧ (∀ c ∈ calls, c.Inside priv a 12) ∧
      hostOffset a 12 1 = 40 ∧ bufferOffset a 12 0 + 2 * 4 ≤ bufferOffset a 12 1 := by
  intro priv a
  have hinit : hwInitializeContext memoryPci identityMemory = (.ok priv.hardware, identityMemory) :=
    rfl
  rcases blt_validation_complete hinit rfl true true a ⟨identityMemory, fun _ => 0, []⟩ with
    ⟨h, -⟩ | ⟨delta, calls, hrows, hne, hin, -, hbuf⟩
  · exact absurd h (by decide)
  · obtain ⟨rfl, hlines⟩ := hbuf rfl
    obtain ⟨hexact, -, hdisjoint⟩ := hlines 1 (by decide)
    exact ⟨calls, hrows, hne, hin, hexact, hdisjoint 0 (by decide)⟩

end SimpleDisplay
