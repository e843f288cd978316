import SimpleDisplay.Gop.Exits

/-!
# The ownership ledger

Between calls the books are in one of three shapes (`Books.Kept`), whatever fails.  They say
the truth, nothing is freed under an installed protocol, and what they show can be given
back by a stop.  A failing start and `Supported` leave no open behind if and only if every
`CloseProtocol` of their cleanups succeeds (`ledger_truthful_iff`).
-/

namespace SimpleDisplay

open StateMachine

section

variable {σ : Type} {p : Platform σ}

/-! ## Stop -/

theorem Books.Backed.refl (b : Books) : b.Backed b := fun h hh => ⟨h, hh, id⟩

theorem withChild_backed (child : Handle) (opened opened' : Bool) :
    (Books.withChild child opened).Backed (.withChild child opened') := by
  rintro _ ⟨⟩
  exact ⟨_, rfl, fun _ => rfl⟩

theorem stopParent_kept {q : DriverPrivate} {c : Controller σ} (hk : (c.books p).Kept)
    (hq : c.priv = some q) (hmarker : c.marker = true) :
    ((stopParent p q c).2.books p).Kept ∧
      FreesSafely (c.books p) ((stopParent p q c).2.books p) (stopParentFrees p q c) := by
  unfold stopParent stopParentFrees
  dsimp only
  by_cases hchild : q.childHandle ≠ none
  · rw [if_pos hchild, if_pos hchild]
    exact ⟨hk, .refl _⟩
  rw [if_neg hchild, if_neg hchild]
  have hparent : c.books p = .parent false := by
    have hbind : (c.books p).holding.bind (·.childHandle) = none := by
      show (c.priv.map p.holding).bind (·.childHandle) = none
      rw [hq]
      show q.childHandle = none
      simpa using hchild
    have hmark : (c.books p).marker = true := hmarker
    generalize c.books p = b at hk hbind hmark
    cases hk with
    | bare pciIo devicePath => cases hmark
    | parent => rfl
    | child child opened => cases hbind
  have hrestored := (restorePciAttributes_books (p := p) c).trans hparent
  by_cases hr : (restorePciAttributes p c).1.isError = true
  · rw [if_pos hr, if_pos hr, hrestored, hparent]
    exact ⟨.parent, .refl _⟩
  rw [if_neg hr, if_neg hr]
  rcases uninstallMarker_serves (p := p) (restorePciAttributes p c).2
    with ⟨he, hb⟩ | ⟨hs, -, hb⟩
  · rw [if_pos he, if_pos he, hb, hrestored, hparent]
    exact ⟨.parent, .refl _⟩
  · rw [if_neg (not_error_of_success hs), if_neg (not_error_of_success hs)]
    have hclosed := closeParent_books (p := p) (c := (uninstallMarker p (restorePciAttributes p c).2).2)
      (by rw [hb, hrestored]; rfl) (by rw [hb, hrestored]; rfl)
    rw [hb, hrestored] at hclosed
    refine ⟨?_, congrArg Books.children hclosed⟩
    show ((freePrivate (closeParent p (uninstallMarker p (restorePciAttributes p c).2).2)).books
      p).Kept
    rw [freePrivate_books, hclosed]
    exact .bare _ _

theorem removeChild_books {child : Handle} {opened : Bool} {c : Controller σ}
    (hc : c.books p = .withChild child opened) (hs : (uninstallChild p child c).1 = .success)
    (hclosed : opened = false) : (removeChild p child c).2.books p = .parent false := by
  have hchildren : c.children = [child] := congrArg Books.children hc
  have hb := (uninstallChild_serves child c).of_success hs
  unfold removeChild
  dsimp only
  rw [if_neg (not_error_of_success hs), restorePciAttributes_books]
  unfold freeChildResources
  rw [setPriv_holding (g := fun h => { h with
    devicePath := false, childHandle := none, childPciIoOpened := false }) fun _ => rfl, hb, hc,
    hchildren, List.erase_cons_head, hclosed]
  rfl

/-- The child goes or stays as a whole. -/
theorem removeChild_kept {child : Handle} {opened : Bool} {c : Controller σ}
    (hc : c.books p = .withChild child false) : ((removeChild p child c).2.books p).Kept ∧
      FreesSafely (.withChild child opened) ((removeChild p child c).2.books p)
        (removeFrees p child c) := by
  unfold removeFrees
  dsimp only
  rcases uninstallChild_serves (p := p) child c with ⟨he, hb⟩ | ⟨hs, -, hb⟩
  · unfold removeChild
    dsimp only
    rw [if_pos he, if_pos he]
    have hopen : (uninstallChild p child c).2.pciIoByChild = [] :=
      congrArg Books.pciIoByChild (hb.trans hc)
    dsimp only
    rcases openChildPciIo_serves (p := p) child (uninstallChild p child c).2
      with ⟨he', hb'⟩ | ⟨hs', -, hb'⟩
    · rw [he', setPriv_holding (g := ({ · with childPciIoOpened := false })) fun _ => rfl, hb', hb, hc]
      exact ⟨.child child false, withChild_backed child opened false⟩
    · rw [hs', setPriv_holding (g := ({ · with childPciIoOpened := true })) fun _ => rfl, hb', hb,
        hc, hopen]
      exact ⟨.child child true, withChild_backed child opened true⟩
  · rw [if_neg (not_error_of_success hs), removeChild_books hc hs rfl]
    refine ⟨.parent, ?_⟩
    have hchildren : c.children = [child] := congrArg Books.children hc
    have hgone : (uninstallChild p child c).2.children = c.children.erase child :=
      congrArg Books.children hb
    show (uninstallChild p child c).2.children = []
    rw [hgone, hchildren, List.erase_cons_head]

theorem closeChild_cases {child : Handle} {c : Controller σ}
    (hc : c.books p = .withChild child true) :
    ((closeChild p child c).1.isError = true ∧
        (closeChild p child c).2.books p = .withChild child true) ∨
      ((closeChild p child c).1 = .success ∧
        (closeChild p child c).2.books p = .withChild child false) := by
  unfold closeChild
  dsimp only
  have hopen : c.pciIoByChild = [child] := congrArg Books.pciIoByChild hc
  rcases closeChildPciIo_serves (p := p) child c with ⟨he, hb⟩ | ⟨hs, -, hb⟩
  · rw [if_pos he]
    exact .inl ⟨he, hb.trans hc⟩
  · rw [if_neg (not_error_of_success hs)]
    refine .inr ⟨hs, ?_⟩
    rw [setPriv_holding (g := ({ · with childPciIoOpened := false })) fun _ => rfl, hb, hc, hopen,
      List.erase_cons_head]
    rfl

/-- The child a stop goes on with is the one in the books. -/
theorem childPrivate_found {child : Handle} {c t : Controller σ} {q : DriverPrivate}
    (hk : (c.books p).Kept) (h : childPrivate p child c = (.ok (some q), t))
    (hchild : q.childHandle = some child) :
    t.books p = .withChild child q.childPciIoOpened := by
  have hbooks := childPrivate_books (p := p) child c
  rw [h] at hbooks
  have hpriv : t.priv = some q := by
    unfold childPrivate Status.andReturn at h
    dsimp only at h
    split at h
    · cases h
    · rw [Prod.mk.injEq] at h
      obtain ⟨h1, h2⟩ := h
      rw [← h2]
      exact Except.ok.inj h1
  have hholding : (t.books p).holding = some (p.holding q) := by
    show t.priv.map p.holding = _
    rw [hpriv]
    rfl
  have hk : (t.books p).Kept := hbooks ▸ hk
  generalize t.books p = b at hk hholding
  cases hk with
  | bare pciIo devicePath => cases hholding
  | parent =>
    have hnone : none = q.childHandle := congrArg Holding.childHandle (Option.some.inj hholding)
    rw [hchild] at hnone
    cases hnone
  | child child' opened =>
    have hh := Option.some.inj hholding
    have h1 : some child' = q.childHandle := congrArg Holding.childHandle hh
    have h2 : opened = q.childPciIoOpened := congrArg Holding.childPciIoOpened hh
    rw [hchild] at h1
    rw [← h2, Option.some.inj h1]

theorem stopChild_kept {child : Handle} {c : Controller σ} (hk : (c.books p).Kept) :
    ((stopChild p child c).2.books p).Kept ∧
      FreesSafely (c.books p) ((stopChild p child c).2.books p) (stopChildFrees p child c) := by
  have hbooks := childPrivate_books (p := p) child c
  unfold stopChild stopChildFrees
  rcases h : childPrivate p child c with ⟨e | q, t⟩
  · rw [h] at hbooks
    dsimp only at hbooks ⊢
    rw [hbooks]
    exact ⟨hk, .refl _⟩
  rw [h] at hbooks
  dsimp only at hbooks
  rw [← hbooks] at hk ⊢
  rcases q with _ | q
  · exact ⟨hk, .refl _⟩
  dsimp only
  by_cases hchecks : q.controllerHandle ≠ p.controllerHandle ∨ q.childHandle ≠ some child
  · rw [if_pos hchecks, if_pos hchecks]
    exact ⟨hk, .refl _⟩
  rw [if_neg hchecks, if_neg hchecks]
  rw [not_or, not_not, not_not] at hchecks
  have hfound := childPrivate_found (hbooks ▸ hk) h hchecks.2
  by_cases hopened : q.childPciIoOpened = true
  · rw [if_pos hopened, if_pos hopened]
    rw [hopened] at hfound
    rw [hfound]
    rcases closeChild_cases hfound with ⟨he, hb⟩ | ⟨hs, hb⟩
    · rw [if_pos he, if_pos he, hb]
      exact ⟨.child child true, .refl _⟩
    · rw [if_neg (not_error_of_success hs), if_neg (not_error_of_success hs)]
      exact removeChild_kept hb
  · rw [if_neg hopened, if_neg hopened]
    have hclosed : q.childPciIoOpened = false := by simpa using hopened
    rw [hclosed] at hfound
    rw [hfound]
    exact removeChild_kept hfound

theorem driverStop_kept {numberOfChildren : Nat} {childHandleBuffer : Option Handle}
    {c : Controller σ} (hk : (c.books p).Kept) :
    ((driverStop p numberOfChildren childHandleBuffer c).2.books p).Kept ∧
      FreesSafely (c.books p) ((driverStop p numberOfChildren childHandleBuffer c).2.books p)
        (freesAt p (.stop numberOfChildren childHandleBuffer) c) := by
  have hbooks := managedPrivate_books (p := p) c
  rcases h : managedPrivate p c with ⟨q, t⟩
  unfold driverStop freesAt
  dsimp only
  rw [h] at hbooks ⊢
  dsimp only at hbooks ⊢
  rcases q with _ | q
  · dsimp only
    rw [hbooks]
    exact ⟨hk, .refl _⟩
  obtain ⟨-, hpriv, hmarker, -⟩ := managedPrivate_some h
  rw [← hbooks] at hk ⊢
  dsimp only
  by_cases hzero : numberOfChildren = 0
  · rw [if_pos hzero, if_pos hzero]
    exact stopParent_kept hk hpriv ((congrArg Books.marker hbooks).trans hmarker)
  rw [if_neg hzero, if_neg hzero]
  rcases childHandleBuffer with _ | child
  · exact ⟨hk, .refl _⟩
  dsimp only
  by_cases hone : numberOfChildren ≠ 1
  · rw [if_pos hone, if_pos hone]
    exact ⟨hk, .refl _⟩
  · rw [if_neg hone, if_neg hone]
    exact stopChild_kept hk

/-! ## Supported -/

/-- `Supported` leaves the books alone unless its `CloseProtocol` fails. -/
theorem driverSupported_books {remaining : RemainingDevicePath} {c : Controller σ} :
    (driverSupported p remaining c).2.books p =
      if supportedCloses p remaining c then c.books p
      else { c.books p with pciIoByDriver := true } := by
  by_cases hr : remaining = .other
  · unfold driverSupported supportedCloses
    rw [if_pos hr, if_pos hr]
    rfl
  rcases openPciIo_serves (p := p) c with ⟨he, hb⟩ | ⟨hs, hclosed, hb⟩
  · have hcloses : supportedCloses p remaining c = true := by
      unfold supportedCloses
      dsimp only
      rw [if_neg hr, if_pos he]
    have hm := (managedPrivate_books (p := p) (openPciIo p c).2).trans hb
    unfold driverSupported
    dsimp only
    rw [if_neg hr, if_pos hcloses]
    split
    · split
      · next h =>
        rw [h] at hm
        exact hm
      · next h =>
        rw [h] at hm
        exact hm
    · exact hb
  · have hmatched : (onDevice (hwMatchPci p.pci) (openPciIo p c).2).2.books p =
        { c.books p with pciIoByDriver := true } := hb
    have hfalse : c.pciIoByDriver = false := by simpa using hclosed
    unfold driverSupported supportedCloses
    dsimp only
    rw [if_neg hr, if_neg hr, if_neg (by rw [hs]; decide), if_neg (not_error_of_success hs),
      if_neg (not_error_of_success hs)]
    show (closePciIo p (onDevice (hwMatchPci p.pci) (openPciIo p c).2).2).2.books p = _
    rw [closePciIo_books (by rw [hmatched]), hmatched]
    rcases (closePciIo p (onDevice (hwMatchPci p.pci) (openPciIo p c).2).2).1.isError
    · simp [Controller.books, hfalse]
    · simp

end

/-! ## Recovery -/

section

variable {σ : Type} {p : Platform σ}

/-- A platform on which every call of a stop succeeds. -/
structure Platform.Cooperative (p : Platform σ) : Prop where
  bootService : ∀ s, (p.bootService s).1 = .success
  set : ∀ a s, (p.pci.attributes .set a s).1.1 = .success
  write : ∀ w s, (p.pci.pciWrite16 pciCommandOffset w s).1 = .success
  read_back : ∀ w s, (p.pci.pciRead16 pciCommandOffset
    (p.pci.pciWrite16 pciCommandOffset w s).2).1 = (.success, w)

theorem bootService_cooperative (hp : p.Cooperative) {allowed : Controller σ → Bool}
    {refusal : Status} {update : Controller σ → Controller σ} {c : Controller σ}
    (ha : ∀ dev, allowed { c with dev := dev } = true) :
    (bootService p allowed refusal update c).1 = .success := by
  unfold bootService
  dsimp only
  rw [if_neg (by rw [hp.bootService]; decide), if_pos (ha _)]

theorem restorePciAttributes_cooperative (hp : p.Cooperative) (c : Controller σ) :
    (restorePciAttributes p c).1 = .success := by
  have hget : ∀ {α : Type} {call : σ → (Status × α) × σ} {s : σ},
      (call s).1.1 = .success → Efi.get call s = (.ok (call s).1.2, (call s).2) := by
    intro α call s h
    unfold Efi.get Status.andReturn
    rw [h]
    rfl
  have hattributes : ∀ q s, ∃ t, restoreAttributes p q s = (.ok (), t) := by
    intro q s
    unfold restoreAttributes
    split
    · rw [Efi.bind_of_ok (hget (hp.set _ _))]
      exact ⟨_, rfl⟩
    · exact ⟨s, rfl⟩
  have hcommand : ∀ q s, ∃ t, restoreCommand p q s = (.ok (), t) := by
    intro q s
    unfold restoreCommand
    split
    · have hwrite : Efi.call (p.pci.pciWrite16 pciCommandOffset q.originalPciCommand) s =
          (.ok (), (p.pci.pciWrite16 pciCommandOffset q.originalPciCommand s).2) := by
        unfold Efi.call Status.andReturn
        rw [hp.write]
        rfl
      have hread := hp.read_back q.originalPciCommand s
      rw [Efi.bind_of_ok hwrite, Efi.bind_of_ok (hget (by rw [hread])), hread]
      dsimp only
      rw [if_neg (by simp)]
      exact ⟨_, rfl⟩
    · exact ⟨s, rfl⟩
  unfold restorePciAttributes
  rcases c.priv with _ | q
  · rfl
  dsimp only
  split
  · rfl
  obtain ⟨t, ht⟩ := hattributes q c.dev
  obtain ⟨u, hu⟩ := hcommand q t
  have hrun : (do restoreAttributes p q; restoreCommand p q : Efi σ Unit) c.dev = (.ok (), u) := by
    rw [Efi.bind_of_ok ht, hu]
  unfold onDevice
  rw [hrun]

/-- The marker leads a stop to the private structure. -/
theorem managedPrivate_cooperative (hp : p.Cooperative) {c : Controller σ} {q : DriverPrivate}
    (hmarker : c.marker = true) (hq : c.priv = some q) (hvalid : (p.holding q).valid = true) :
    ∃ t, managedPrivate p c = (some q, t) ∧ t.books p = c.books p := by
  have hget : (getMarker p c).1 = .success := bootService_cooperative hp fun _ => hmarker
  have hpriv : (getMarker p c).2.priv = some q := by
    rw [← hq]
    unfold getMarker bootService
    dsimp only
    split <;> rfl
  have hrun : managedPrivate p c = (some q, (getMarker p c).2) := by
    unfold managedPrivate
    dsimp only
    rw [if_neg (by rw [hget]; decide), hpriv]
    exact Prod.ext (by simpa [Platform.holding] using hvalid) rfl
  refine ⟨_, hrun, ?_⟩
  have hbooks := managedPrivate_books (p := p) c
  rw [hrun] at hbooks
  exact hbooks

/-- The private structure in the books. -/
theorem priv_of_holding {c : Controller σ} {h : Holding} (hc : (c.books p).holding = some h) :
    ∃ q, c.priv = some q ∧ p.holding q = h :=
  Option.map_eq_some_iff.1 hc

theorem stopParent_recovers (hp : p.Cooperative) {c : Controller σ}
    (hc : c.books p = .parent false) :
    (driverStop p 0 none c).2.books p = .bare false false := by
  obtain ⟨q, hq, hh⟩ := priv_of_holding (congrArg Books.holding hc)
  have hnone : q.childHandle = none := congrArg Holding.childHandle hh
  obtain ⟨t, hm, ht⟩ := managedPrivate_cooperative hp (congrArg Books.marker hc) hq
    (congrArg Holding.valid hh)
  have hrestored := (restorePciAttributes_books (p := p) t).trans (ht.trans hc)
  have hmarker : (restorePciAttributes p t).2.marker = true := congrArg Books.marker hrestored
  have hun : (uninstallMarker p (restorePciAttributes p t).2).1 = .success :=
    bootService_cooperative hp fun _ => hmarker
  have hb := (uninstallMarker_serves _).of_success hun
  unfold driverStop
  rw [hm]
  dsimp only
  rw [if_pos rfl]
  unfold stopParent
  dsimp only
  rw [if_neg (by simp [hnone]), if_neg (by rw [restorePciAttributes_cooperative hp]; decide),
    if_neg (not_error_of_success hun)]
  show (freePrivate (closeParent p (uninstallMarker p (restorePciAttributes p t).2).2)).books p = _
  have hpath : (closeDevicePath p (uninstallMarker p (restorePciAttributes p t).2).2).1 =
      .success := by
    refine bootService_cooperative hp fun _ => ?_
    exact congrArg Books.devicePathByDriver (hb.trans (by rw [hrestored]))
  have hpci : (closePciIo p (closeDevicePath p
      (uninstallMarker p (restorePciAttributes p t).2).2).2).1 = .success := by
    refine bootService_cooperative hp fun _ => ?_
    have hb' := (closeDevicePath_serves _).of_success hpath
    exact congrArg Books.pciIoByDriver (hb'.trans (by rw [hb, hrestored]))
  rw [freePrivate_books, closeParent_books (by rw [hb, hrestored]; rfl)
    (by rw [hb, hrestored]; rfl), hb, hrestored, hpath, hpci]
  rfl

/-! The boot services that a stop of the child needs, with the child in the books. -/

section

variable {c : Controller σ} {child : Handle} {opened : Bool}
  (hc : c.books p = .withChild child opened)
include hc

theorem mem_children : child ∈ c.children := by
  rw [show c.children = [child] from congrArg Books.children hc]
  exact List.mem_singleton_self child

theorem childPrivate_cooperative (hp : p.Cooperative) :
    ∃ q t, childPrivate p child c = (.ok (some q), t) ∧ t.books p = .withChild child opened ∧
      q.controllerHandle = p.controllerHandle ∧ q.childHandle = some child ∧
      q.childPciIoOpened = opened := by
  have hget : (getChildGop p child c).1 = .success :=
    bootService_cooperative hp fun _ => by simpa using mem_children hc
  have hfound : childPrivate p child c =
      (.ok (getChildGop p child c).2.priv, (getChildGop p child c).2) := by
    unfold childPrivate Status.andReturn
    dsimp only
    rw [if_neg (by rw [hget]; decide)]
  have hbooks := childPrivate_books (p := p) child c
  rw [hfound, hc] at hbooks
  obtain ⟨q, hq, hh⟩ := priv_of_holding (congrArg Books.holding hbooks)
  have hvalid : (p.holding q).valid = true := congrArg Holding.valid hh
  simp only [Platform.holding, Bool.and_eq_true, decide_eq_true_eq] at hvalid
  rw [hq] at hfound
  exact ⟨q, _, hfound, hbooks, hvalid.2, congrArg Holding.childHandle hh,
    congrArg Holding.childPciIoOpened hh⟩

end

theorem closeChild_cooperative (hp : p.Cooperative) {c : Controller σ} {child : Handle}
    (hc : c.books p = .withChild child true) : (closeChild p child c).1 = .success ∧
      (closeChild p child c).2.books p = .withChild child false := by
  have hclose : (closeChild p child c).1 = .success := by
    show (closeChildPciIo p child c).1 = .success
    refine bootService_cooperative hp fun _ => ?_
    have hmem : child ∈ c.pciIoByChild := by
      rw [show c.pciIoByChild = [child] from congrArg Books.pciIoByChild hc]
      exact List.mem_singleton_self child
    simpa using hmem
  rcases closeChild_cases hc with ⟨he, -⟩ | ⟨-, hb⟩
  · exact absurd he (not_error_of_success hclose)
  · exact ⟨hclose, hb⟩

theorem removeChild_cooperative (hp : p.Cooperative) {c : Controller σ} {child : Handle}
    (hc : c.books p = .withChild child false) :
    (removeChild p child c).2.books p = .parent false := by
  refine removeChild_books hc (bootService_cooperative hp fun _ => ?_) rfl
  simpa using mem_children hc

theorem stopChild_recovers (hp : p.Cooperative) {c : Controller σ} {child : Handle}
    {opened : Bool} (hc : c.books p = .withChild child opened) :
    (driverStop p 1 (some child) c).2.books p = .parent false := by
  obtain ⟨q, hq, hh⟩ := priv_of_holding (congrArg Books.holding hc)
  obtain ⟨t, hm, ht⟩ := managedPrivate_cooperative hp (congrArg Books.marker hc) hq
    (congrArg Holding.valid hh)
  obtain ⟨q', u, hfound, hu, hcontroller, hchild, hopened⟩ :=
    childPrivate_cooperative (ht.trans hc) hp
  unfold driverStop
  rw [hm]
  dsimp only
  rw [if_neg (by decide), if_neg (by decide)]
  unfold stopChild
  rw [hfound]
  dsimp only
  rw [if_neg (by simp [hcontroller, hchild]), hopened]
  cases opened with
  | false => exact removeChild_cooperative hp hu
  | true =>
    obtain ⟨hclose, hclosed⟩ := closeChild_cooperative hp hu
    rw [if_pos rfl, if_neg (not_error_of_success hclose)]
    exact removeChild_cooperative hp hclosed

theorem books_congr {p' : Platform σ} (h : p'.controllerHandle = p.controllerHandle)
    (c : Controller σ) : c.books p' = c.books p := by
  unfold Controller.books Platform.holding
  rw [h]

/-- **What a managed controller holds, a stop can give back.** -/
theorem stop_recovers {p' : Platform σ} (hp : p'.Cooperative)
    (hh : p'.controllerHandle = p.controllerHandle) {c : Controller σ} (hk : (c.books p).Kept)
    (hmarker : c.marker = true) :
    ∃ stops : List (Nat × Option Handle), ∃ t,
      run (bindingStep p') (stops.map fun s => .stop s.1 s.2) c = some t ∧
        t.books p = .bare false false := by
  have hmark : (c.books p).marker = true := hmarker
  rw [← books_congr hh] at hk hmark
  generalize hc : c.books p' = b at hk hmark
  cases hk with
  | bare pciIo devicePath => cases hmark
  | parent =>
    refine ⟨[(0, none)], _, rfl, ?_⟩
    rw [← books_congr hh]
    exact stopParent_recovers hp hc
  | child child opened =>
    refine ⟨[(1, some child), (0, none)], _, rfl, ?_⟩
    rw [← books_congr hh]
    exact stopParent_recovers hp (stopChild_recovers hp hc)

end

/-! ## Top theorem -/

section

variable {σ : Type} {p : Platform σ}

/-- The ledger tells the truth between calls. -/
structure Truthful (c : Controller σ) : Prop where
  marker : c.marker = true →
    c.pciIoByDriver = true ∧ c.devicePathByDriver = true ∧ ∃ q, c.priv = some q
  children : ∀ q, c.priv = some q → c.children = q.childHandle.toList
  childPciIo : ∀ q, c.priv = some q →
    c.pciIoByChild = if q.childPciIoOpened then q.childHandle.toList else []
  opened : ∀ q, c.priv = some q → q.childPciIoOpened = true → q.childHandle ≠ none
  backing : c.children ≠ [] → ∃ q, c.priv = some q ∧ q.devicePath = true
  unmanaged : c.priv = none → c.children = [] ∧ c.pciIoByChild = []
  allocation : ∀ q, c.priv = some q → c.marker = true

/-- The private structure is the one in the books. -/
theorem fields_of_holding {c : Controller σ} {h : Holding} (hb : (c.books p).holding = some h) :
    (∃ q, c.priv = some q) ∧ ∀ q, c.priv = some q → q.childHandle = h.childHandle ∧
      q.childPciIoOpened = h.childPciIoOpened ∧ q.devicePath = h.devicePath := by
  obtain ⟨q₀, hq₀, rfl⟩ := priv_of_holding hb
  refine ⟨⟨q₀, hq₀⟩, ?_⟩
  intro q hq
  rw [hq₀] at hq
  cases hq
  exact ⟨rfl, rfl, rfl⟩

theorem priv_of_no_holding {c : Controller σ} (hb : (c.books p).holding = none) :
    c.priv = none :=
  Option.map_eq_none_iff.1 hb

theorem truthful_of_kept {c : Controller σ} (hk : (c.books p).Kept) : Truthful c := by
  generalize hb : c.books p = b at hk
  have hmarker : c.marker = b.marker := congrArg Books.marker hb
  have hchildren : c.children = b.children := congrArg Books.children hb
  have hopens : c.pciIoByChild = b.pciIoByChild := congrArg Books.pciIoByChild hb
  cases hk with
  | bare pciIo devicePath =>
    have hno : ∀ q, c.priv ≠ some q := by
      rw [priv_of_no_holding (congrArg Books.holding hb)]
      exact nofun
    refine ⟨fun h => ?_, fun q hq => absurd hq (hno q), fun q hq => absurd hq (hno q),
      fun q hq => absurd hq (hno q), fun h => absurd hchildren h, fun _ => ⟨hchildren, hopens⟩,
      fun q hq => absurd hq (hno q)⟩
    rw [hmarker] at h
    cases h
  | parent =>
    obtain ⟨⟨q₀, hq₀⟩, hfound⟩ := fields_of_holding (congrArg Books.holding hb)
    refine ⟨fun _ => ⟨congrArg Books.pciIoByDriver hb, congrArg Books.devicePathByDriver hb, q₀, hq₀⟩,
      fun q hq => ?_, fun q hq => ?_, fun q hq ho => ?_, fun h => absurd hchildren h,
      fun h => ?_, fun _ _ => hmarker⟩
    · rw [hchildren, (hfound q hq).1]
      rfl
    · rw [hopens, (hfound q hq).2.1]
      rfl
    · rw [(hfound q hq).2.1] at ho
      cases ho
    · rw [hq₀] at h
      cases h
  | child child opened =>
    obtain ⟨⟨q₀, hq₀⟩, hfound⟩ := fields_of_holding (congrArg Books.holding hb)
    refine ⟨fun _ => ⟨congrArg Books.pciIoByDriver hb, congrArg Books.devicePathByDriver hb, q₀, hq₀⟩,
      fun q hq => ?_, fun q hq => ?_, fun q hq _ => ?_, fun _ => ⟨q₀, hq₀, (hfound q₀ hq₀).2.2⟩,
      fun h => ?_, fun _ _ => hmarker⟩
    · rw [hchildren, (hfound q hq).1]
      rfl
    · rw [hopens, (hfound q hq).1, (hfound q hq).2.1]
      rfl
    · rw [(hfound q hq).1]
      exact nofun
    · rw [hq₀] at h
      cases h

/-- What is asked of one call: a start that fails on a controller without the marker leaves
the books as they were or a managed parent, and `Supported` leaves the books alone. -/
def CleanCall (p : Platform σ) : Call → Controller σ → Prop
  | .supported remaining, c => (driverSupported p remaining c).2.books p = c.books p
  | .start remaining, c => c.marker = false → (driverStart p remaining c).1.isError = true →
      (c.books p).Unwound ((driverStart p remaining c).2.books p)
  | .stop _ _, _ => True

instance (b b' : Books) : Decidable (b.Unwound b') := inferInstanceAs (Decidable (_ ∨ _))

instance : ∀ (a : Call) (c : Controller σ), Decidable (CleanCall p a c)
  | .supported _, _ => inferInstanceAs (Decidable (_ = _))
  | .start _, _ => inferInstanceAs (Decidable (_ → _ → Books.Unwound _ _))
  | .stop _ _, _ => instDecidableTrue

theorem driverStart_clean {remaining : RemainingDevicePath} {c : Controller σ}
    (hk : (c.books p).Kept) :
    CleanCall p (.start remaining) c ↔ closesSucceed p (.start remaining) c = true := by
  unfold CleanCall closesSucceed
  dsimp only
  rcases h : startExit p remaining c with _ | e
  · refine ⟨fun _ => rfl, fun _ _ _ => ?_⟩
    rcases driverStart_books_of_no_exit hk h with hb | ⟨-, -, hm⟩
    · exact .inl hb
    · exact .inr hm
  obtain ⟨hstatus, hat⟩ := startExit_at hk h
  obtain ⟨herr, -, hunwound⟩ := cleanUp_books hstatus hat
  rw [driverStart_exit h, Option.all_some, hunwound]
  have hmarked : c.marker = true → e.closes p = true := by
    intro hm
    have hm : (c.books p).marker = true := hm
    unfold Exit.closes
    obtain ⟨label, status, t⟩ := e
    dsimp only at hat ⊢
    generalize c.books p = b at hat hm
    generalize t.books p = d at hat
    cases hat with
    | oldParent path => simp
    | _ => cases hm
  constructor
  · intro hclean
    rcases hm : c.marker with _ | _
    · rcases hclean hm herr with hb | hb
      · exact absurd hb (by rw [show (c.books p).marker = false from hm]; simp)
      · exact hb
    · exact hmarked hm
  · exact fun hcl _ _ => .inr hcl

theorem driverSupported_clean {remaining : RemainingDevicePath} {c : Controller σ} :
    CleanCall p (.supported remaining) c ↔ closesSucceed p (.supported remaining) c = true := by
  unfold CleanCall closesSucceed
  dsimp only
  rw [driverSupported_books]
  by_cases hcl : supportedCloses p remaining c = true
  · rw [if_pos hcl]
    exact ⟨fun _ => hcl, fun _ => rfl⟩
  · rw [if_neg hcl]
    refine ⟨fun hb => ?_, fun h => absurd h hcl⟩
    -- an open that was there already is not opened again
    have hpci : c.pciIoByDriver = true := (congrArg Books.pciIoByDriver hb).symm
    exfalso
    unfold supportedCloses at hcl
    dsimp only at hcl
    rcases openPciIo_serves (p := p) c with ⟨he, -⟩ | ⟨-, hclosed, -⟩
    · rw [if_pos he] at hcl
      split at hcl <;> exact hcl rfl
    · rw [hpci] at hclosed
      cases hclosed

theorem call_clean {a : Call} {c : Controller σ} (hk : (c.books p).Kept) :
    CleanCall p a c ↔ closesSucceed p a c = true := by
  cases a with
  | supported remaining => exact driverSupported_clean
  | start remaining => exact driverStart_clean hk
  | stop n buffer => exact ⟨fun _ => rfl, fun _ => trivial⟩

theorem driverStart_keptBooks {remaining : RemainingDevicePath} {c : Controller σ}
    (hk : (c.books p).Kept) : ((driverStart p remaining c).2.books p).Kept := by
  rcases h : startExit p remaining c with _ | e
  · rcases driverStart_books_of_no_exit hk h with hb | ⟨-, hkept, -⟩
    · rw [hb]
      exact hk
    · exact hkept
  · obtain ⟨hstatus, hat⟩ := startExit_at hk h
    rw [driverStart_exit h]
    exact (cleanUp_books hstatus hat).2.1

theorem driverSupported_kept {remaining : RemainingDevicePath} {c : Controller σ}
    (hk : (c.books p).Kept) : ((driverSupported p remaining c).2.books p).Kept := by
  rw [driverSupported_books]
  split
  · exact hk
  next hcl =>
    generalize c.books p = b at hk
    cases hk with
    | bare pciIo devicePath => exact .bare true devicePath
    | parent => exact .parent
    | child child opened => exact .child child opened

theorem call_keeps_books {a : Call} {c t : Controller σ} (hk : (c.books p).Kept)
    (ht : bindingStep p a c = some t) : (t.books p).Kept := by
  cases ht
  cases a with
  | supported remaining => exact driverSupported_kept hk
  | start remaining => exact driverStart_keptBooks hk
  | stop n buffer => exact (driverStop_kept hk).1

/-- A start frees before the child's protocols are there or after they are gone. -/
theorem driverStart_frees {remaining : RemainingDevicePath} {c : Controller σ}
    (hk : (c.books p).Kept) :
    FreesSafely (c.books p) ((driverStart p remaining c).2.books p)
      (freesAt p (.start remaining) c) := by
  unfold freesAt
  dsimp only
  rcases h : startExit p remaining c with _ | e
  · rw [Option.bind_none]
    rcases driverStart_books_of_no_exit hk h with hb | ⟨hchildren, hkept, hm⟩
    · rw [hb]
      exact .refl _
    · intro q hq
      generalize (driverStart p remaining c).2.books p = b at hkept hm
      generalize c.books p = d at hk hq hchildren
      cases hk with
      | bare pciIo devicePath => cases hq
      | child child opened => cases hchildren
      | parent =>
        cases hq
        cases hkept with
        | bare pciIo devicePath => cases hm
        | parent => exact ⟨_, rfl, id⟩
        | child child opened => exact ⟨_, rfl, fun _ => rfl⟩
  rw [Option.bind_some]
  obtain ⟨-, hat⟩ := startExit_at hk h
  rw [driverStart_exit h]
  obtain ⟨label, status, t⟩ := e
  dsimp only at hat ⊢
  have hchildren : t.children = (t.books p).children := rfl
  have hrestored : (restorePciAttributes p t).2.children = (t.books p).children :=
    congrArg Books.children (restorePciAttributes_books t)
  generalize c.books p = b at hat
  generalize t.books p = d at hat hchildren hrestored
  cases hat with
  | closePciIo path =>
    rintro _ ⟨⟩
  | closeDevicePath =>
    rintro _ ⟨⟩
  | freeAllocatedPrivate => exact hchildren
  | newParent path => exact hrestored
  | oldParent path => exact hrestored

theorem driverSupported_frees {remaining : RemainingDevicePath} {c : Controller σ} :
    (c.books p).Backed ((driverSupported p remaining c).2.books p) := by
  rw [driverSupported_books]
  split
  · exact .refl _
  · exact fun h hh => ⟨h, hh, id⟩

theorem call_frees {a : Call} {c : Controller σ} (hk : (c.books p).Kept) :
    FreesSafely (c.books p) ((call p a c).2.books p) (freesAt p a c) := by
  cases a with
  | supported remaining => exact driverSupported_frees
  | start remaining => exact driverStart_frees hk
  | stop n buffer => exact (driverStop_kept hk).2

/-- **The ledger is truthful whatever fails, nothing is freed under an installed protocol, a
marker can be stopped, and the calls of a run are all clean if and only if every
`CloseProtocol` of their cleanups succeeds.** -/
theorem ledger_truthful_iff {dev : σ} {calls : List Call} {c : Controller σ}
    (hrun : run (bindingStep p) calls (.unmanaged dev) = some c) :
    Truthful c ∧
    (∀ a, FreesSafely (c.books p) ((call p a c).2.books p) (freesAt p a c)) ∧
    (c.marker = true → ∀ p' : Platform σ, p'.Cooperative →
      p'.controllerHandle = p.controllerHandle →
        ∃ stops : List (Nat × Option Handle), ∃ t,
          run (bindingStep p') (stops.map fun s => .stop s.1 s.2) c = some t ∧
            t.books p = .bare false false) ∧
    (Meets (bindingStep p) (CleanCall p) calls (.unmanaged dev) ↔
      Meets (bindingStep p) (fun a c => closesSucceed p a c = true) calls (.unmanaged dev)) := by
  have hstart : ((Controller.unmanaged dev).books p).Kept := .bare false false
  have hkept : (c.books p).Kept :=
    run_invariant (I := fun c => (c.books p).Kept) (fun _ _ _ hk ht => call_keeps_books hk ht)
      hstart hrun
  refine ⟨truthful_of_kept hkept, fun a => call_frees hkept, fun hm p' hp hh =>
    stop_recovers hp hh hkept hm, ?_⟩
  constructor
  · exact Meets.imp_of_invariant (I := fun c => (c.books p).Kept)
      (fun _ _ _ hk _ ht => call_keeps_books hk ht) (fun _ _ hk => (call_clean hk).1) hstart
  · exact Meets.imp_of_invariant (I := fun c => (c.books p).Kept)
      (fun _ _ _ hk _ ht => call_keeps_books hk ht) (fun _ _ hk => (call_clean hk).2) hstart

end

/-! ### On the bench -/

/-- The child's open fails in the start of the child and its protocols are taken back; the
parent is stopped, and given back. -/
theorem ledger_truthful_iff_child :
    ∃ c, run (bindingStep (bench [21])) [.supported .null, .start .endNode, .start .hdmiNode,
        .stop 0 none] (.unmanaged ⟨0, 0⟩) = some c ∧
      c.marker = false ∧ Truthful c ∧
      Meets (bindingStep (bench [21])) (CleanCall (bench [21])) [.supported .null, .start .endNode,
        .start .hdmiNode, .stop 0 none] (.unmanaged ⟨0, 0⟩) := by
  have hrun : (run (bindingStep (bench [21])) [.supported .null, .start .endNode, .start .hdmiNode,
      .stop 0 none] (.unmanaged ⟨0, 0⟩)).any (fun c => decide (c.marker = false)) = true := by
    decide
  obtain ⟨c, hc, htest⟩ := run_any hrun
  obtain ⟨htruth, -, -, hclean⟩ := ledger_truthful_iff hc
  exact ⟨c, hc, of_decide_eq_true htest, htruth, hclean.2 (by decide)⟩

/-- The PCI identity cannot be read and `CloseProtocol` of `PciIo` fails: the open stays
without a marker, so that no later start and no stop finds it.  `Supported` leaves its open
in the same way. -/
theorem failed_close_hides_open :
    ¬ CleanCall (bench [2, 4]) (.start .null) (.unmanaged ⟨0, 0⟩) ∧
    ¬ CleanCall (bench [2]) (.supported .null) (.unmanaged ⟨0, 0⟩) ∧
    ∃ c, run (bindingStep (bench [2, 4])) [.start .null, .start .null, .stop 0 none]
        (.unmanaged ⟨0, 0⟩) = some c ∧
      c.pciIoByDriver = true ∧ c.marker = false ∧ c.priv.isNone := by
  have hrun : (run (bindingStep (bench [2, 4])) [.start .null, .start .null, .stop 0 none]
      (.unmanaged ⟨0, 0⟩)).any (fun c => decide (c.pciIoByDriver = true ∧ c.marker = false ∧
        c.priv.isNone)) = true := by
    decide
  obtain ⟨c, hc, htest⟩ := run_any hrun
  exact ⟨by decide, by decide, c, hc, of_decide_eq_true htest⟩

end SimpleDisplay
