import SimpleDisplay.Gop.EntryState

/-!
# The driver's books

What the driver holds on a controller (`Books`): the opens, the marker, the child's
protocols, and what the private structure says of them.  Each boot service either fails and
leaves the books or changes them in one place (`Serves`); the start of the child ends with
the child's protocols or with none (`startChildProtocols_ends`).
-/

namespace SimpleDisplay

open StateMachine

/-! ## Books -/

/-- What a private structure says of the child; `valid` when it passes the checks. -/
structure Holding where
  valid : Bool
  childHandle : Option Handle
  childPciIoOpened : Bool
  devicePath : Bool
deriving DecidableEq

structure Books where
  pciIoByDriver : Bool
  devicePathByDriver : Bool
  marker : Bool
  children : List Handle
  pciIoByChild : List Handle
  holding : Option Holding
deriving DecidableEq

namespace Books

/-- No marker: the opens may be left over. -/
def bare (pciIo devicePath : Bool) : Books := ⟨pciIo, devicePath, false, [], [], none⟩

/-- The marker on a private structure without a child. -/
def parent (path : Bool) : Books := ⟨true, true, true, [], [], some ⟨true, none, false, path⟩⟩

/-- The private structure is there and its marker is not. -/
def unmarked : Books := { bare true true with holding := some ⟨true, none, false, false⟩ }

/-- The marker and the child's protocols, with or without the child's open. -/
def withChild (child : Handle) (opened : Bool) : Books :=
  ⟨true, true, true, [child], if opened then [child] else [], some ⟨true, some child, opened, true⟩⟩

/-- The books between two calls. -/
inductive Kept : Books → Prop
  | bare (pciIo devicePath : Bool) : Kept (bare pciIo devicePath)
  | parent : Kept (parent false)
  | child (child : Handle) (opened : Bool) : Kept (withChild child opened)

/-- What a start is to leave of a controller it did not find managed: the books as they
were, or a managed parent. -/
def Unwound (before after : Books) : Prop := after = before ∨ after.marker = true

end Books

section

variable {σ : Type} (p : Platform σ)

def Platform.holding (q : DriverPrivate) : Holding where
  valid := q.signature = privateSignature && q.controllerHandle = p.controllerHandle
  childHandle := q.childHandle
  childPciIoOpened := q.childPciIoOpened
  devicePath := q.devicePath

def Controller.books (c : Controller σ) : Books where
  pciIoByDriver := c.pciIoByDriver
  devicePathByDriver := c.devicePathByDriver
  marker := c.marker
  children := c.children
  pciIoByChild := c.pciIoByChild
  holding := c.priv.map p.holding

/-- The boot service `x` fails and leaves the books, or is allowed and leaves `b`. -/
def Serves (x : Controller σ → Status × Controller σ) (c : Controller σ) (allowed : Prop)
    (b : Books) : Prop :=
  ((x c).1.isError = true ∧ (x c).2.books p = c.books p) ∨
    ((x c).1 = .success ∧ allowed ∧ (x c).2.books p = b)

end

section

variable {σ : Type} {p : Platform σ}

/-! ## Boot services -/

theorem bootService_serves (allowed : Controller σ → Bool) (refusal : Status)
    (update : Controller σ → Controller σ) {c : Controller σ} {b : Books}
    (hr : refusal.isError = true ∨ allowed = fun _ => true)
    (ha : ∀ dev, allowed { c with dev := dev } = allowed c)
    (hu : ∀ dev, (update { c with dev := dev }).books p = b) :
    Serves p (bootService p allowed refusal update) c (allowed c = true) b := by
  unfold Serves bootService
  dsimp only
  split
  · next herr => exact .inl ⟨herr, rfl⟩
  rw [ha]
  split
  · next hok => exact .inr ⟨rfl, hok, hu _⟩
  · next hno =>
    rcases hr with hr | hr
    · exact .inl ⟨hr, rfl⟩
    · rw [hr] at hno
      exact absurd rfl hno

theorem openPciIo_serves (c : Controller σ) : Serves p (openPciIo p) c
    ((!c.pciIoByDriver) = true) { c.books p with pciIoByDriver := true } :=
  bootService_serves _ _ _ (.inl rfl) (fun _ => rfl) fun _ => rfl

theorem openDevicePath_serves (c : Controller σ) : Serves p (openDevicePath p) c
    ((!c.devicePathByDriver) = true) { c.books p with devicePathByDriver := true } :=
  bootService_serves _ _ _ (.inl rfl) (fun _ => rfl) fun _ => rfl

theorem closePciIo_serves (c : Controller σ) : Serves p (closePciIo p) c
    (c.pciIoByDriver = true) { c.books p with pciIoByDriver := false } :=
  bootService_serves _ _ _ (.inl rfl) (fun _ => rfl) fun _ => rfl

theorem closeDevicePath_serves (c : Controller σ) : Serves p (closeDevicePath p) c
    (c.devicePathByDriver = true) { c.books p with devicePathByDriver := false } :=
  bootService_serves _ _ _ (.inl rfl) (fun _ => rfl) fun _ => rfl

theorem openChildPciIo_serves (child : Handle) (c : Controller σ) :
    Serves p (openChildPciIo p child) c True
      { c.books p with pciIoByChild := child :: c.pciIoByChild } := by
  have h : Serves p (openChildPciIo p child) c (true = true)
      { c.books p with pciIoByChild := child :: c.pciIoByChild } :=
    bootService_serves (fun _ => true) _ _ (.inr rfl) (fun _ => rfl) fun _ => rfl
  rcases h with h | ⟨h1, -, h2⟩
  · exact .inl h
  · exact .inr ⟨h1, trivial, h2⟩

theorem closeChildPciIo_serves (child : Handle) (c : Controller σ) :
    Serves p (closeChildPciIo p child) c (decide (child ∈ c.pciIoByChild) = true)
      { c.books p with pciIoByChild := c.pciIoByChild.erase child } :=
  bootService_serves _ _ _ (.inl rfl) (fun _ => rfl) fun _ => rfl

theorem installMarker_serves (c : Controller σ) : Serves p (installMarker p) c
    ((!c.marker) = true) { c.books p with marker := true } :=
  bootService_serves _ _ _ (.inl rfl) (fun _ => rfl) fun _ => rfl

theorem uninstallMarker_serves (c : Controller σ) : Serves p (uninstallMarker p) c
    (c.marker = true) { c.books p with marker := false } :=
  bootService_serves _ _ _ (.inl rfl) (fun _ => rfl) fun _ => rfl

theorem uninstallChild_serves (child : Handle) (c : Controller σ) :
    Serves p (uninstallChild p child) c (decide (child ∈ c.children) = true)
      { c.books p with children := c.children.erase child } :=
  bootService_serves _ _ _ (.inl rfl) (fun _ => rfl) fun _ => rfl

theorem allocatePrivate_serves (c : Controller σ) : Serves p (allocatePrivate p) c True
    { c.books p with holding := some ⟨true, none, false, false⟩ } := by
  have hnew : p.holding (.new p.controllerHandle) = ⟨true, none, false, false⟩ := by
    simp [Platform.holding, DriverPrivate.new]
  have h : Serves p (allocatePrivate p) c (true = true)
      { c.books p with holding := some ⟨true, none, false, false⟩ } :=
    bootService_serves (fun _ => true) _ _ (.inr rfl) (fun _ => rfl)
      fun _ => by simp [Controller.books, hnew]
  rcases h with h | ⟨h1, -, h2⟩
  · exact .inl h
  · exact .inr ⟨h1, trivial, h2⟩

/-! ## Errors are errors -/

/-- What a PCI function guarantees of its end. -/
abbrev Honest {τ α : Type} (x : Efi τ α) : Prop :=
  Ends (fun _ => True) x (fun _ _ => True) (fun e _ => e.isError = true)

theorem get_honest {τ α : Type} (call : τ → (Status × α) × τ) : Honest (Efi.get call) := by
  intro s _
  refine ⟨fun _ _ _ => trivial, fun e t h => ?_⟩
  unfold Efi.get at h
  rw [Prod.mk.injEq] at h
  exact andReturn_error h.1

theorem call_honest {τ : Type} (call : τ → Status × τ) : Honest (Efi.call call) := by
  intro s _
  refine ⟨fun _ _ _ => trivial, fun e t h => ?_⟩
  unfold Efi.call at h
  rw [Prod.mk.injEq] at h
  exact andReturn_error h.1

theorem throw_honest {τ α : Type} {e : Status} (h : e.isError = true) :
    Honest (throw e : Efi τ α) :=
  Ends.throw fun _ _ => h

theorem pure_honest {τ α : Type} (a : α) : Honest (pure a : Efi τ α) := Ends.pure fun _ _ => trivial

theorem read32_honest (pci : PciIo σ) (context : HwContext) (offset : Nat) :
    Honest (read32 pci context offset) := by
  intro s _
  refine ⟨fun _ _ _ => trivial, fun e t h => ?_⟩
  unfold read32 at h
  split at h
  · cases h
    rfl
  · rw [Prod.mk.injEq] at h
    exact andReturn_error h.1

theorem hwMatchPci_honest (pci : PciIo σ) : Honest (hwMatchPci pci) :=
  (get_honest _).bind fun _ => (throw_honest rfl).ite (pure_honest _)

theorem hwInitializeContext_honest (pci : PciIo σ) : Honest (hwInitializeContext pci) := by
  refine (get_honest _).bind fun resource => ?_
  cases resource with
  | none => exact throw_honest rfl
  | some resource =>
    refine (throw_honest rfl).ite ?_
    refine (read32_honest pci _ _).bind fun _ => (read32_honest pci _ _).bind fun _ => ?_
    refine (read32_honest pci _ _).bind fun _ => (read32_honest pci _ _).bind fun _ => ?_
    exact (throw_honest rfl).ite (pure_honest _)

theorem readPciState_honest (p : Platform σ) : Honest (readPciState p) :=
  (get_honest _).bind fun _ => (get_honest _).bind fun _ => pure_honest _

theorem memoryDecoded_honest (command : BitVec 16) : Honest (memoryDecoded (σ := σ) command) :=
  (pure_honest _).ite (throw_honest rfl)

theorem enablePciMemoryDecode_honest (p : Platform σ) : Honest (enablePciMemoryDecode p) := by
  refine (get_honest _).bind fun _ => (get_honest _).bind fun command => ?_
  refine Ends.ite ?_ (memoryDecoded_honest command)
  exact (call_honest _).bind fun _ => (get_honest _).bind fun _ => memoryDecoded_honest _

/-! ## Calls outside the books -/

theorem onDevice_ends {α : Type} {x : Efi σ α} (hx : Honest x) (b : Books) :
    Ends (fun c : Controller σ => c.books p = b) (onDevice x) (fun _ c => c.books p = b)
      (fun e c => e.isError = true ∧ c.books p = b) := by
  intro c hc
  unfold onDevice
  refine ⟨?_, ?_⟩
  · intro a t h
    rw [Prod.mk.injEq] at h
    rw [← h.2]
    exact hc
  · intro e t h
    rw [Prod.mk.injEq] at h
    refine ⟨(hx c.dev trivial).2 e _ (Prod.ext h.1 rfl), ?_⟩
    rw [← h.2]
    exact hc

/-- A change of the private structure that the books do not show. -/
theorem setPriv_books {f : DriverPrivate → DriverPrivate} (hf : ∀ q, p.holding (f q) = p.holding q)
    (c : Controller σ) : (c.setPriv f).books p = c.books p := by
  unfold Controller.setPriv Controller.books
  rcases c.priv with _ | q
  · rfl
  · dsimp only [Option.map_some]
    rw [hf]

theorem update_ends {f : Controller σ → Controller σ} (hf : ∀ c, (f c).books p = c.books p)
    (b : Books) {E : Status → Controller σ → Prop} :
    Ends (fun c : Controller σ => c.books p = b) (Efi.update f) (fun _ c => c.books p = b) E := by
  intro c hc
  unfold Efi.update
  refine ⟨?_, ?_⟩
  · rintro _ _ ⟨⟩
    exact (hf c).trans hc
  · rintro _ _ ⟨⟩

theorem savePciState_books (command : BitVec 16) (attributes : BitVec 64) (c : Controller σ) :
    (savePciState p command attributes c).books p = c.books p := by
  unfold savePciState
  dsimp only
  rw [setPriv_books]
  · rfl
  · exact fun _ => rfl

theorem restorePciAttributes_books (c : Controller σ) :
    (restorePciAttributes p c).2.books p = c.books p := by
  unfold restorePciAttributes
  rcases hq : c.priv with _ | q
  · rfl
  dsimp only
  split
  · rfl
  rcases hrun : (do restoreAttributes p q; restoreCommand p q : Efi σ Unit) c.dev
    with ⟨status | u, dev⟩
  · unfold onDevice
    rw [hrun]
    rfl
  · unfold onDevice
    rw [hrun]
    simp [Controller.books, hq, Platform.holding]

theorem managedPrivate_books (c : Controller σ) :
    (managedPrivate p c).2.books p = c.books p := by
  have hget : (getMarker p c).2.books p = c.books p := by
    unfold getMarker bootService
    dsimp only
    split
    · rfl
    split <;> rfl
  unfold managedPrivate
  dsimp only
  split <;> exact hget

/-- The private structure it finds is the one behind the marker. -/
theorem managedPrivate_some {c c' : Controller σ} {q : DriverPrivate}
    (h : managedPrivate p c = (some q, c')) :
    c'.books p = c.books p ∧ c'.priv = some q ∧ c.marker = true ∧ (p.holding q).valid = true := by
  have hbooks := managedPrivate_books (p := p) c
  rw [h] at hbooks
  refine ⟨hbooks, ?_⟩
  unfold managedPrivate at h
  dsimp only at h
  split at h
  · cases h
  next hok =>
    rw [Prod.mk.injEq] at h
    obtain ⟨hfilter, rfl⟩ := h
    obtain ⟨hpriv, hvalid⟩ := Option.filter_eq_some_iff.1 hfilter
    refine ⟨hpriv, ?_, hvalid⟩
    by_contra hno
    refine hok ?_
    unfold getMarker bootService
    dsimp only
    split
    · next herr => exact herr
    · rfl

theorem childPrivate_books (child : Handle) (c : Controller σ) :
    (childPrivate p child c).2.books p = c.books p := by
  unfold childPrivate getChildGop bootService
  dsimp only
  split
  · rfl
  split <;> rfl

/-! ## The start of the child -/

theorem setPriv_holding {f : DriverPrivate → DriverPrivate} {g : Holding → Holding}
    (hf : ∀ q, p.holding (f q) = g (p.holding q)) (c : Controller σ) :
    (c.setPriv f).books p = { c.books p with holding := (c.books p).holding.map g } := by
  unfold Controller.setPriv Controller.books
  rcases c.priv with _ | q
  · rfl
  · dsimp only [Option.map_some]
    rw [hf]

theorem initializeHardware_ends (b : Books) :
    Ends (fun c : Controller σ => c.books p = b) (initializeHardware p) (fun _ c => c.books p = b)
      (fun e c => e.isError = true ∧ c.books p = b) := by
  intro c hc
  obtain ⟨hok, herr⟩ := onDevice_ends (p := p) (hwInitializeContext_honest p.pci) b c hc
  unfold initializeHardware
  rcases hrun : onDevice (hwInitializeContext p.pci) c with ⟨e | context, t⟩
  · obtain ⟨he, hb⟩ := herr e t hrun
    refine ⟨?_, ?_⟩
    · rintro _ _ ⟨⟩
    · rintro _ _ ⟨⟩
      refine ⟨he, ?_⟩
      rw [setPriv_books]
      · exact hb
      · exact fun _ => rfl
  · refine ⟨?_, ?_⟩
    · rintro _ _ ⟨⟩
      rw [setPriv_books]
      · exact hok context t hrun
      · exact fun _ => rfl
    · rintro _ _ ⟨⟩

/-- A boot service in sequence. -/
theorem call_ends {x : Controller σ → Status × Controller σ} {b t : Books}
    {E : Status → Controller σ → Prop}
    (hok : ∀ c, c.books p = b → (x c).1.isError = false → (x c).2.books p = t)
    (herr : ∀ c, c.books p = b → (x c).1.isError = true → E (x c).1 (x c).2) :
    Ends (fun c => c.books p = b) (Efi.call x) (fun _ c => c.books p = t) E := by
  intro c hc
  unfold Efi.call Status.andReturn
  by_cases he : (x c).1.isError = true
  · rw [if_pos he]
    refine ⟨?_, ?_⟩
    · rintro _ _ ⟨⟩
    · rintro _ _ ⟨⟩
      exact herr c hc he
  · rw [if_neg he]
    refine ⟨?_, ?_⟩
    · rintro _ _ ⟨⟩
      exact hok c hc (by simpa using he)
    · rintro _ _ ⟨⟩

theorem appendDevicePath_cases {c : Controller σ} {path : Bool} (hc : c.books p = .parent path) :
    ((appendDevicePath p c).1.isError = true ∧ (appendDevicePath p c).2.books p = .parent path) ∨
      ((appendDevicePath p c).1 = .success ∧ (appendDevicePath p c).2.books p = .parent true) := by
  have hset : (c.setPriv ({ · with devicePath := true })).books p = .parent true := by
    rw [setPriv_holding (g := ({ · with devicePath := true }))]
    · rw [hc]
      rfl
    · exact fun _ => rfl
  have hserves := bootService_serves (p := p) (fun _ => true) .success
    (Controller.setPriv ({ · with devicePath := true })) (.inr rfl) (fun _ => rfl) fun _ => hset
  unfold appendDevicePath
  dsimp only
  rcases hserves with ⟨he, hb⟩ | ⟨hs, -, hb⟩
  · rw [if_pos he]
    exact .inl ⟨rfl, hb.trans hc⟩
  · rw [if_neg (by rw [hs]; simp [Status.isError])]
    exact .inr ⟨rfl, hb⟩

theorem installChildProtocols_cases {c : Controller σ} (hc : c.books p = .parent true) :
    ((installChildProtocols p c).1.isError = true ∧
        (installChildProtocols p c).2.books p = .parent true) ∨
      ((installChildProtocols p c).1 = .success ∧
        ∃ child, (installChildProtocols p c).2.books p = .withChild child false) := by
  have hserves : Serves p (installChild p) c (decide (c.childOrNew ∉ c.children) = true)
      { c.books p with
        children := c.childOrNew :: c.children
        holding := (c.books p).holding.map ({ · with childHandle := some c.childOrNew }) } := by
    refine bootService_serves _ _ _ (.inl rfl) (fun _ => rfl) fun dev => ?_
    rw [setPriv_holding (g := ({ · with childHandle := some c.childOrNew }))]
    · rfl
    · exact fun _ => rfl
  have hchildren : c.children = [] := congrArg Books.children hc
  unfold installChildProtocols
  dsimp only
  rcases hserves with ⟨he, hb⟩ | ⟨hs, -, hb⟩
  · rw [if_pos he]
    refine .inl ⟨he, ?_⟩
    rw [setPriv_holding (g := ({ · with childHandle := none }))]
    · rw [hb, hc]
      rfl
    · exact fun _ => rfl
  · rw [if_neg (by rw [hs]; simp [Status.isError])]
    refine .inr ⟨hs, c.childOrNew, ?_⟩
    rw [hb, hc, hchildren]
    rfl

/-- It ends with the child's protocols, or fails with none and goes to
`ChildStartFailed`. -/
theorem startChildProtocols_ends (path : Bool) :
    Ends (fun c : Controller σ => c.books p = .parent path) (startChildProtocols p)
      (fun _ c => ∃ child, c.books p = .withChild child false)
      (fun e c => e.isError = true ∧ ∃ path, c.books p = .parent path) := by
  have hback : ∀ (path : Bool) (e : Status) (c : Controller σ),
      e.isError = true ∧ c.books p = .parent path →
        e.isError = true ∧ ∃ path, c.books p = .parent path :=
    fun path _ _ h => ⟨h.1, path, h.2⟩
  refine Ends.bind ((onDevice_ends (readPciState_honest p) (.parent path)).imp (fun _ => id)
    (fun _ _ => id) (hback path)) fun state => ?_
  refine Ends.bind (update_ends (savePciState_books state.1 state.2) _) fun _ => ?_
  refine Ends.bind ((onDevice_ends (enablePciMemoryDecode_honest p) (.parent path)).imp
    (fun _ => id) (fun _ _ => id) (hback path)) fun _ => ?_
  refine Ends.bind (update_ends ?_ _) fun _ => ?_
  · intro c
    apply setPriv_books
    exact fun _ => rfl
  refine Ends.bind ((initializeHardware_ends (.parent path)).imp (fun _ => id)
    (fun _ _ => id) (hback path)) fun _ => ?_
  refine Ends.bind (call_ends (t := .parent true) ?_ ?_) fun _ => ?_
  · intro c hc he
    rcases appendDevicePath_cases hc with ⟨he', -⟩ | ⟨-, hb⟩
    · rw [he'] at he
      cases he
    · exact hb
  · intro c hc he
    rcases appendDevicePath_cases hc with ⟨-, hb⟩ | ⟨hs, -⟩
    · exact ⟨he, path, hb⟩
    · rw [hs] at he
      cases he
  refine Ends.bind (update_ends ?_ _) fun _ => ?_
  · intro c
    apply setPriv_books
    exact fun _ => rfl
  intro c hc
  have hcases := installChildProtocols_cases hc
  unfold Efi.call Status.andReturn
  rcases hcases with ⟨he, hb⟩ | ⟨hs, hb⟩
  · rw [if_pos he]
    refine ⟨?_, ?_⟩
    · rintro _ _ ⟨⟩
    · rintro _ _ ⟨⟩
      exact ⟨he, true, hb⟩
  · rw [if_neg (by rw [hs]; simp [Status.isError])]
    refine ⟨?_, ?_⟩
    · rintro _ _ ⟨⟩
      exact hb
    · rintro _ _ ⟨⟩

end

end SimpleDisplay
