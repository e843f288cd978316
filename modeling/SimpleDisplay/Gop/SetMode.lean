import SimpleDisplay.Lib.Run
import SimpleDisplay.Gop.BltSafety
import SimpleDisplay.Gop.Program

/-!
# `SimpleDisplaySetMode` and the gate of `Blt`

A started child is called in any order.  `setMode` publishes the mode before it clears the
screen, and a later `setMode` programs the pipeline with the old mode still published:
`blt_gated_iff` says on which runs `Blt` is nevertheless closed after every failure.
-/

namespace SimpleDisplay

open Word StateMachine

/-- What a consumer passes to `Blt`; `poolOk` is whether `AllocatePool` succeeds. -/
structure BltRequest where
  args : BltArgs
  bltBuffer : Bool
  poolOk : Bool
  host : Nat → UInt8

inductive GopCall
  | setMode (modeNumber : Nat) (poolOk : Bool)
  | blt (request : BltRequest)

/-- A child after some calls.  `selected` is a record that no step reads: what the last
`SetMode` with a valid mode number returned. -/
structure GopChild (σ : Type) where
  priv : Private
  world : World σ
  selected : Option Status

/-- The child that `Start` publishes. -/
def GopChild.fresh {σ : Type} (hardware : HwContext) (world : World σ) : GopChild σ where
  priv := ⟨hardware, ⟨gopModeCount, maxUint32⟩, makeModeInfo 0⟩
  world := world
  selected := none

/-- The black fill of the whole screen. -/
def clearArgs (info : GopInfo) : BltArgs where
  operation := bltVideoFill
  sourceX := 0
  sourceY := 0
  destinationX := 0
  destinationY := 0
  width := Fin.ofNat (2 ^ 64) info.horizontalResolution
  height := Fin.ofNat (2 ^ 64) info.verticalResolution
  delta := 0

section

variable {σ : Type} (pci : PciIo σ)

/-- `SimpleDisplaySetMode`. -/
def setMode (modeNumber : Nat) (poolOk : Bool) (priv : Private) (w : World σ) :
    Status × Private × World σ :=
  if modeNumber ≥ gopModeCount then (.unsupported, priv, w)
  else if (hwValidateModeBounds priv.hardware modes[modeNumber]!).isError then
    (.deviceError, priv, w)
  else
    let newInfo := makeModeInfo modeNumber
    match hwProgramMode pci priv.hardware modes[modeNumber]! w.dev with
    | (.error _, dev) => (.deviceError, priv, { w with dev := dev })
    | (.ok _, dev) =>
      let priv := { priv with gopInfo := newInfo, gopMode := ⟨priv.gopMode.maxMode, modeNumber⟩ }
      let (status, w') := blt pci priv (clearArgs newInfo) true poolOk ⟨dev, fun _ => 0, w.rows⟩
      (if status.isError then .deviceError else .success, priv, { w' with host := w.host })

def GopChild.blt (c : GopChild σ) (r : BltRequest) : Status × World σ :=
  SimpleDisplay.blt pci c.priv r.args r.bltBuffer r.poolOk { c.world with host := r.host }

/-- One call by the consumer. -/
def gopStep : GopCall → GopChild σ → Option (GopChild σ)
  | .setMode modeNumber poolOk, c =>
    let (status, priv, w) := setMode pci modeNumber poolOk c.priv c.world
    some ⟨priv, w, if modeNumber < gopModeCount then some status else c.selected⟩
  | .blt request, c => some { c with world := (c.blt pci request).2 }

/-- A request that a child in mode 0 lets through. -/
def BltRequest.WellFormed (r : BltRequest) : Prop :=
  ∃ delta, bltCheck ⟨.zero, ⟨gopModeCount, 0⟩, makeModeInfo 0⟩ r.bltBuffer true r.args = .ok delta

/-- `Blt` goes on to the framebuffer, or at least does not say that it is not ready. -/
def GopChild.Proceeds (c : GopChild σ) (r : BltRequest) : Prop :=
  (c.blt pci r).1 ≠ .notReady ∨ (c.blt pci r).2.rows ≠ c.world.rows

def GopChild.Gated (c : GopChild σ) : Prop :=
  ∀ r : BltRequest, r.WellFormed → c.Proceeds pci r → c.selected = some .success

/-- Whether `n` rows of a fill can be written, from `row` on. -/
def rowsWritten (hardware : HwContext) (bytes : List UInt8) : (n row : Nat) → σ → Bool
  | 0, _, _ => true
  | n + 1, row, dev =>
    let (status, dev) := pci.memWrite (hardware.barIndex % 256)
      (framebufferOffset + row * (maxWidth * bytesPerPixel)) maxWidth bytes dev
    !status.isError && rowsWritten hardware bytes n (row + 1) dev

/-- The screen can be made black. -/
def screenClears (hardware : HwContext) (dev : σ) : Bool :=
  rowsWritten pci hardware (fillBytes (fun _ => 0) maxWidth) maxHeight 0 dev

/-- A `SetMode` that does not fail once a mode is, or gets, published: the pipeline can be
programmed, or no mode is published yet, and a pipeline that is programmed can be cleared. -/
def FailsClosed : GopCall → GopChild σ → Prop
  | .setMode modeNumber poolOk, c =>
    modeNumber < gopModeCount →
      match hwProgramMode pci c.priv.hardware modes[modeNumber]! c.world.dev with
      | (.error _, _) => c.priv.gopMode.mode = maxUint32
      | (.ok _, dev) => poolOk = true ∧ screenClears pci c.priv.hardware dev = true
  | .blt _, _ => True

end

/-! ## The black clear -/

section

variable {σ : Type} {pci : PciIo σ} {priv : Private}

variable (pci) in
theorem clear_row (hinfo : priv.gopInfo = makeModeInfo 0)
    (hbar : barMinSize ≤ priv.hardware.barLength) (bytes : List UInt8) (row : Nat)
    (hrow : row < maxHeight) (w : World σ) :
    let r := pci.memWrite (priv.hardware.barIndex % 256)
      (framebufferOffset + row * (maxWidth * bytesPerPixel)) maxWidth bytes w.dev
    let q := fillRow pci priv (clearArgs (makeModeInfo 0)) bytes row w
    q.1 = r.1 ∧ q.2.dev = r.2 := by
  have hmode : makeModeInfo 0 = ⟨1920, 1080, 1920⟩ := by decide
  have hline : u64 (0 + row) = row := by
    rw [Nat.zero_add]
    unfold maxHeight at hrow
    exact u64_of_lt (by omega)
  obtain ⟨hoffset, -, hfits⟩ := rowFits_of_screen hinfo hbar (x := 0) (y := row)
    (show 0 < 1920 by decide) (by rw [hinfo, hmode]) (by rw [hinfo, hmode]; exact hrow)
  have haddr : rowOffset priv 0 row = framebufferOffset + row * (maxWidth * bytesPerPixel) := by
    rw [hoffset, hinfo, hmode]
    unfold maxWidth bytesPerPixel
    dsimp only
    omega
  have hfill : fillRow pci priv (clearArgs (makeModeInfo 0)) bytes row w =
      writeFrameBufferRow pci priv none 0 row 1920 bytes w := by
    show writeFrameBufferRow pci priv none 0 (u64 (0 + row)) 1920 bytes w = _
    rw [hline]
  intro r q
  show (fillRow pci priv _ bytes row w).1 = _ ∧ (fillRow pci priv _ bytes row w).2.dev = _
  rw [hfill]
  unfold writeFrameBufferRow
  rw [hfits, haddr]
  exact ⟨rfl, rfl⟩

/-- The clear ends with an error just when one of its rows cannot be written. -/
theorem clear_rows (hinfo : priv.gopInfo = makeModeInfo 0)
    (hbar : barMinSize ≤ priv.hardware.barLength) (bytes : List UInt8) (n : Nat) :
    ∀ (row : Nat) (w : World σ), row + n ≤ maxHeight →
      (forRows (fillRow pci priv (clearArgs (makeModeInfo 0)) bytes) n row w).1.isError =
        !rowsWritten pci priv.hardware bytes n row w.dev := by
  induction n with
  | zero =>
    intro row w _
    rfl
  | succ n ih =>
    intro row w hle
    obtain ⟨hstatus, hdev⟩ := clear_row pci hinfo hbar bytes row (by omega) w
    unfold forRows rowsWritten
    dsimp only
    rw [← hstatus, ← hdev]
    by_cases herr : (fillRow pci priv (clearArgs (makeModeInfo 0)) bytes row w).1.isError = true
    · rw [if_pos herr, herr]
      rfl
    · rw [if_neg herr, ih (row + 1) _ (by omega)]
      simp [herr]

variable (pci priv) in
theorem clear_isError (hinfo : priv.gopInfo = makeModeInfo 0)
    (hbar : barMinSize ≤ priv.hardware.barLength) (hmode : priv.gopMode = ⟨gopModeCount, 0⟩)
    (poolOk : Bool) (dev : σ) (rows : List RowCall) :
    (blt pci priv (clearArgs (makeModeInfo 0)) true poolOk ⟨dev, fun _ => 0, rows⟩).1.isError =
      !(poolOk && screenClears pci priv.hardware dev) := by
  have hcheck : bltCheck priv true poolOk (clearArgs (makeModeInfo 0)) =
      if poolOk then .ok 0 else .error .outOfResources := by
    show bltCheck ⟨.zero, priv.gopMode, priv.gopInfo⟩ true poolOk _ = _
    rw [hmode, hinfo]
    cases poolOk <;> decide
  unfold blt
  rw [hcheck]
  by_cases hpool : poolOk = true
  · rw [if_pos hpool, hpool, Bool.true_and]
    exact clear_rows hinfo hbar _ maxHeight 0 ⟨dev, fun _ => 0, rows⟩ (by decide)
  · rw [if_neg hpool]
    simp [hpool, Status.isError]

end

/-! ## The gate -/

/-- What holds of a child after any calls. -/
structure Private.Started (hardware : HwContext) (priv : Private) : Prop where
  hardware : priv.hardware = hardware
  info : priv.gopInfo = makeModeInfo 0
  maxMode : priv.gopMode.maxMode = gopModeCount
  mode : priv.gopMode.mode = maxUint32 ∨ priv.gopMode.mode = 0

/-- Fill one pixel. -/
def onePixel : BltRequest := ⟨⟨bltVideoFill, 0, 0, 0, 0, 1, 1, 0⟩, true, true, fun _ => 0⟩

section

variable {σ : Type} {pci : PciIo σ} {hardware : HwContext} {c t : GopChild σ}

/-- With no mode published `Blt` does nothing. -/
theorem blt_closed (h : c.priv.gopMode.mode = maxUint32) (r : BltRequest) :
    c.blt pci r = (.notReady, { c.world with host := r.host }) := by
  have hcheck : bltCheck c.priv r.bltBuffer r.poolOk r.args = .error .notReady := by
    unfold bltCheck
    rw [if_pos (.inl h)]
  unfold GopChild.blt blt
  rw [hcheck]

/-- With a mode published a request that is let through gets as far as a row. -/
theorem blt_open (hstarted : c.priv.Started hardware) (hbar : barMinSize ≤ hardware.barLength)
    (h : c.priv.gopMode.mode = 0) : onePixel.WellFormed ∧ c.Proceeds pci onePixel := by
  have hmode : c.priv.gopMode = ⟨gopModeCount, 0⟩ := by
    rw [← h, ← hstarted.maxMode]
  have hcheck : bltCheck c.priv onePixel.bltBuffer onePixel.poolOk onePixel.args = .ok 0 := by
    show bltCheck ⟨.zero, c.priv.gopMode, c.priv.gopInfo⟩ true true onePixel.args = _
    rw [hmode, hstarted.info]
    decide
  have hacc := bltCheck_ok hcheck
  have hbar : barMinSize ≤ c.priv.hardware.barLength := by
    rw [hstarted.hardware]
    exact hbar
  obtain ⟨calls, hrows, hne, -, -⟩ := forRows_issued
    (fun _ w hrow => bltRow_issued hstarted.info hbar hacc pci onePixel.host w hrow)
    1 0 { c.world with host := onePixel.host } (by decide) (by decide)
  refine ⟨⟨0, by decide⟩, .inr ?_⟩
  show (c.blt pci onePixel).2.rows ≠ _
  unfold GopChild.blt blt
  rw [hcheck]
  intro hsame
  exact hne (List.append_right_eq_self.1 (hrows.symm.trans hsame))

theorem gated_iff (hstarted : c.priv.Started hardware) (hbar : barMinSize ≤ hardware.barLength) :
    c.Gated pci ↔ c.priv.gopMode.mode = maxUint32 ∨ c.selected = some .success := by
  constructor
  · intro hgated
    rcases hstarted.mode with hmode | hmode
    · exact .inl hmode
    · obtain ⟨hformed, hproceeds⟩ := blt_open hstarted hbar hmode
      exact .inr (hgated onePixel hformed hproceeds)
  · rintro (hmode | hselected) r _ hproceeds
    · unfold GopChild.Proceeds at hproceeds
      rw [blt_closed hmode] at hproceeds
      rcases hproceeds with hproceeds | hproceeds <;> exact absurd rfl hproceeds
    · exact hselected

variable (pci) in
/-- A `SetMode` of the one mode, by how far it gets. -/
theorem setMode_cases (hstarted : c.priv.Started hardware) (hbar : barMinSize ≤ hardware.barLength)
    (poolOk : Bool) (w : World σ) :
    let r := setMode pci 0 poolOk c.priv w
    match hwProgramMode pci hardware modes[0]! w.dev with
    | (.error _, _) => r.1 = .deviceError ∧ r.2.1 = c.priv
    | (.ok _, dev) =>
      r.2.1 = { c.priv with gopMode := ⟨gopModeCount, 0⟩ } ∧
      (r.1 = .success ↔ poolOk = true ∧ screenClears pci hardware dev = true) := by
  have hvalid : ¬ (hwValidateModeBounds hardware modes[0]!).isError = true := by
    rw [modes_validate hbar _ (by decide)]
    decide
  intro r
  show match hwProgramMode pci hardware modes[0]! w.dev with
    | (.error _, _) => (setMode pci 0 poolOk c.priv w).1 = .deviceError ∧
        (setMode pci 0 poolOk c.priv w).2.1 = c.priv
    | (.ok _, dev) => (setMode pci 0 poolOk c.priv w).2.1 = _ ∧
        ((setMode pci 0 poolOk c.priv w).1 = .success ↔ _)
  unfold setMode
  rw [if_neg (by decide), hstarted.hardware, if_neg hvalid]
  rcases hwProgramMode pci hardware modes[0]! w.dev with ⟨_ | _, dev⟩
  · exact ⟨rfl, rfl⟩
  · dsimp only
    have hclear := clear_isError pci
      ⟨hardware, ⟨gopModeCount, 0⟩, makeModeInfo 0⟩ rfl hbar rfl poolOk dev w.rows
    rw [hstarted.maxMode, hstarted.info, hstarted.hardware]
    refine ⟨rfl, ?_⟩
    rw [hclear]
    cases poolOk <;> cases screenClears pci hardware dev <;> decide

theorem setMode_started (hstarted : c.priv.Started hardware)
    (hbar : barMinSize ≤ hardware.barLength) (modeNumber : Nat) (poolOk : Bool) (w : World σ) :
    (setMode pci modeNumber poolOk c.priv w).2.1.Started hardware := by
  by_cases hvalid : modeNumber < gopModeCount
  · obtain rfl : modeNumber = 0 := by
      unfold gopModeCount at hvalid
      omega
    have hcases := setMode_cases pci hstarted hbar poolOk w
    rcases hprog : hwProgramMode pci hardware modes[0]! w.dev with ⟨_ | _, dev⟩
    · rw [hprog] at hcases
      rw [hcases.2]
      exact hstarted
    · rw [hprog] at hcases
      rw [hcases.1]
      exact ⟨hstarted.hardware, hstarted.info, rfl, .inr rfl⟩
  · unfold setMode
    rw [if_pos (Nat.not_lt.1 hvalid)]
    exact hstarted

theorem gopStep_started (hbar : barMinSize ≤ hardware.barLength) (call : GopCall)
    (hstarted : c.priv.Started hardware) (h : gopStep pci call c = some t) :
    t.priv.Started hardware := by
  rcases call with ⟨modeNumber, poolOk⟩ | request
  · obtain rfl := Option.some.inj h
    exact setMode_started hstarted hbar modeNumber poolOk c.world
  · obtain rfl := Option.some.inj h
    exact hstarted

/-- A gated child stays gated just when the call fails closed. -/
theorem gopStep_gated (hbar : barMinSize ≤ hardware.barLength) (call : GopCall)
    (hstarted : c.priv.Started hardware) (hgated : c.Gated pci) (h : gopStep pci call c = some t) :
    t.Gated pci ↔ FailsClosed pci call c := by
  rw [gated_iff (gopStep_started hbar call hstarted h) hbar]
  rw [gated_iff hstarted hbar] at hgated
  rcases call with ⟨modeNumber, poolOk⟩ | request
  · have ht : t = ⟨(setMode pci modeNumber poolOk c.priv c.world).2.1,
        (setMode pci modeNumber poolOk c.priv c.world).2.2,
        if modeNumber < gopModeCount then some (setMode pci modeNumber poolOk c.priv c.world).1
        else c.selected⟩ := (Option.some.inj h).symm
    subst ht
    dsimp only
    by_cases hvalid : modeNumber < gopModeCount
    · obtain rfl : modeNumber = 0 := by
        unfold gopModeCount at hvalid
        omega
      have hcases := setMode_cases pci hstarted hbar poolOk c.world
      unfold FailsClosed
      dsimp only
      rw [hstarted.hardware, if_pos hvalid]
      rcases hprog : hwProgramMode pci hardware modes[0]! c.world.dev with ⟨_ | _, dev⟩
      · rw [hprog] at hcases
        rw [hcases.1, hcases.2]
        simp [hvalid]
      · rw [hprog] at hcases
        rw [hcases.1, Option.some.injEq, hcases.2]
        simp [hvalid, maxUint32]
    · have hsame : setMode pci modeNumber poolOk c.priv c.world =
          (.unsupported, c.priv, c.world) := by
        unfold setMode
        rw [if_pos (Nat.not_lt.1 hvalid)]
      rw [hsame, if_neg hvalid]
      exact ⟨fun _ hlt => absurd hlt hvalid, fun _ => hgated⟩
  · obtain rfl := Option.some.inj h
    exact ⟨fun _ => trivial, fun _ => hgated⟩

/-- A `SetMode` that cannot program the pipeline while no mode is published, and then a `Blt`. -/
theorem meets_of_error {poolOk : Bool} {request : BltRequest}
    (hmode : c.priv.gopMode.mode = maxUint32)
    (hprog : (hwProgramMode pci c.priv.hardware modes[0]! c.world.dev).1.isOk = false) :
    Meets (gopStep pci) (FailsClosed pci) [.setMode 0 poolOk, .blt request] c := by
  refine ⟨fun _ => ?_, fun _ _ => ⟨trivial, fun _ _ => trivial⟩⟩
  rcases h : hwProgramMode pci c.priv.hardware modes[0]! c.world.dev with ⟨_ | _, dev⟩
  · exact hmode
  · rw [h] at hprog
    cases hprog

end

/-! ## Top theorem -/

/-- `Blt` is closed to the consumer unless the last `SetMode` succeeded, in every state of a
run, just when every `SetMode` of the run fails, if at all, before a mode is published. -/
theorem blt_gated_iff {σ : Type} {pci : PciIo σ} {hardware : HwContext} {s₀ s₁ : σ}
    (hinit : hwInitializeContext pci s₀ = (.ok hardware, s₁)) (w : World σ)
    {calls : List GopCall} {c : GopChild σ}
    (hrun : run (gopStep pci) calls (.fresh hardware w) = some c) :
    (∀ before after d, calls = before ++ after →
      run (gopStep pci) before (.fresh hardware w) = some d → d.Gated pci) ↔
    Meets (gopStep pci) (FailsClosed pci) calls (.fresh hardware w) := by
  obtain ⟨hbar, -⟩ := barMinSize_le hinit
  have hfresh : (GopChild.fresh hardware w).priv.Started hardware := ⟨rfl, rfl, rfl, .inl rfl⟩
  apply meets_iff (I := fun d => d.priv.Started hardware) _ _ hfresh _ hrun
  · intro call d t hstarted hstep
    exact gopStep_started hbar call hstarted hstep
  · intro call d t hstarted hgated hstep
    exact gopStep_gated hbar call hstarted hgated hstep
  · exact (gated_iff hfresh hbar).2 (.inl rfl)

/-- The bytes that the registers of a pipeline in good order read; the others are zero. -/
def steadyRegisters : List (Nat × List UInt8) := [
  (identityOffset, [0x53, 0x44, 0x43, 0x31]), (identityOffset + 4, [0, 0, 1, 0]),
  (identityOffset + 8, [3, 0, 0, 0]), (identityOffset + 12, [0, 0x10, 0, 0]),
  (pixelUnpackOffset + pixelUnpackMode, [1, 0, 0, 0]), (colorOffset + colorC1C1, [0, 1, 0, 0]),
  (colorOffset + colorC2C2, [0, 1, 0, 0]), (colorOffset + colorC3C3, [0, 1, 0, 0]),
  (iicOffset + iicStatus, [0x80, 0, 0, 0]), (clockOffset + clockStatus, [1, 0, 0, 0])]

/-- A device in good order behind a bus that cannot write to the `broken` offsets. -/
def steadyPci (broken : Nat → Bool) : PciIo Unit where
  attributes _ _ dev := ((.success, 0), dev)
  pciRead8 _ count dev := ((.success, List.replicate count 0), dev)
  pciRead16 _ dev := ((.success, 0), dev)
  pciWrite16 _ _ dev := (.success, dev)
  getBarAttributes _ dev := ((.success, some ⟨0x8A, 0, 0, barMinSize, barMinSize_lt⟩), dev)
  memRead _ offset _ dev := ((.success, (steadyRegisters.lookup offset).getD [0, 0, 0, 0]), dev)
  memWrite _ offset _ _ dev := (if broken offset then .deviceError else .success, dev)

def steadyContext : HwContext := ⟨2, 0, barMinSize, abiVersion, 3, 4096⟩

theorem steady_read32 (broken : Nat → Bool) {offset : Nat} (h : offset ≤ barMinSize - 4)
    {base version features romBytes : Nat} :
    read32 (steadyPci broken) ⟨barIndex, base, barMinSize, version, features, romBytes⟩ offset () =
      (.ok (leWord ((steadyRegisters.lookup offset).getD [0, 0, 0, 0])), ()) := by
  have hfit : u64 (barMinSize + 2 ^ 64 - 4) = barMinSize - 4 := by decide
  unfold read32
  rw [if_neg (by dsimp only; omega)]
  rfl

/-- Whatever the bus cannot write, the device is recognized. -/
theorem steady_init (broken : Nat → Bool) :
    hwInitializeContext (steadyPci broken) () = (.ok steadyContext, ()) := by
  have hresource : Efi.get ((steadyPci broken).getBarAttributes barIndex) () =
    (.ok (some ⟨0x8A, 0, 0, barMinSize, barMinSize_lt⟩), ()) := rfl
  unfold hwInitializeContext
  rw [Efi.bind_of_ok hresource]
  dsimp only
  rw [if_neg (by decide), Efi.bind_of_ok (steady_read32 broken (by decide)),
    Efi.bind_of_ok (steady_read32 broken (by decide)),
    Efi.bind_of_ok (steady_read32 broken (by decide)),
    Efi.bind_of_ok (steady_read32 broken (by decide)), if_neg (by decide)]
  rfl

/-- No register can be written: the mode is never published, and `Blt` stays closed. -/
theorem blt_gated_iff_unwritable :
    let pci := steadyPci fun _ => true
    let start := GopChild.fresh steadyContext ⟨(), fun _ => 0, []⟩
    ∀ before after d, [.setMode 0 true, .blt onePixel] = before ++ after →
      run (gopStep pci) before start = some d → d.Gated pci := by
  intro pci start
  exact (blt_gated_iff (steady_init _) ⟨(), fun _ => 0, []⟩ rfl).2
    (meets_of_error rfl (by decide +kernel))

/-- Only the framebuffer cannot be written: `SetMode` fails in the black clear, and the next
`Blt` writes to the framebuffer. -/
theorem failed_clear_leaves_open :
    let pci := steadyPci fun offset => framebufferOffset ≤ offset
    hwInitializeContext pci () = (.ok steadyContext, ()) ∧
    ∃ c, run (gopStep pci) [.setMode 0 true] (.fresh steadyContext ⟨(), fun _ => 0, []⟩) = some c ∧
      c.selected = some .deviceError ∧ onePixel.WellFormed ∧
      (c.blt pci onePixel).1 = .deviceError ∧
      (c.blt pci onePixel).2.rows.length = c.world.rows.length + 1 ∧ ¬ c.Gated pci := by
  intro pci
  refine ⟨steady_init _, _, rfl, by decide +kernel, ⟨0, by decide⟩, by decide +kernel,
    by decide +kernel, ?_⟩
  intro hgated
  have hselected := hgated onePixel ⟨0, by decide⟩ (.inl (by decide +kernel))
  exact absurd hselected (by decide +kernel)

end SimpleDisplay
