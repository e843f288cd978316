import SimpleDisplay.Gop.Books

/-!
# The exits of a start

`SimpleDisplayDriverStart` leaves through four labels when it fails.  `startExit` is the
first jump a start makes, with the state there; the books at each label are known
(`startExit_at`), and so is what the cleanup makes of them (`cleanUp_books`): the books as
the start found them or the managed parent, unless a `CloseProtocol` fails.  The status of
that call is dropped, the private structure is gone by then, and the open stays.
-/

namespace SimpleDisplay

/-! ## Where a start goes when it fails -/

/-- The labels of `SimpleDisplayDriverStart`. -/
inductive Cleanup
  | closePciIo
  | closeDevicePath
  | freeAllocatedPrivate
  | childStartFailed (boundJustNow : Bool)
deriving DecidableEq

section

variable {σ : Type} (p : Platform σ)

/-- A jump: the label, the status it is made with and the state there. -/
structure Exit (σ : Type) where
  label : Cleanup
  status : Status
  state : Controller σ

def unmanagedExit (c : Controller σ) : Option (Exit σ) :=
  let (status, c) := openDevicePath p c
  if status.isError then some ⟨.closePciIo, status, c⟩
  else
    match onDevice (hwMatchPci p.pci) c with
    | (.error status, c) => some ⟨.closeDevicePath, status, c⟩
    | (.ok _, c) =>
      let (status, c) := allocatePrivate p c
      if status.isError then some ⟨.closeDevicePath, .outOfResources, c⟩
      else
        let (status, c) := installMarker p c
        if status.isError then some ⟨.freeAllocatedPrivate, status, c⟩ else none

def childExit (boundJustNow : Bool) (c : Controller σ) : Option (Exit σ) :=
  match startChildProtocols p c with
  | (.error status, c) => some ⟨.childStartFailed boundJustNow, status, c⟩
  | (.ok _, c) =>
    let child := (c.priv.bind (·.childHandle)).getD 0
    let (status, c) := openChildPciIo p child c
    if !status.isError then none
    else
      let (cleanup, c) := uninstallChild p child c
      if cleanup.isError then none
      else
        some ⟨.childStartFailed boundJustNow, status, c.setPriv ({ · with childHandle := none })⟩

/-- The first jump of a start, if it makes one. -/
def startExit (remaining : RemainingDevicePath) (c : Controller σ) : Option (Exit σ) :=
  let (status, c) := openPciIo p c
  if status = .alreadyStarted then
    match startManaged p remaining c with
    | (.error _, _) => none
    | (.ok _, c) => if remaining = .endNode then none else childExit p false c
  else if status.isError then none
  else
    match unmanagedExit p c with
    | some exit => some exit
    | none => if remaining = .endNode then none else childExit p true (startUnmanaged p c).2

/-- The code from the label on. -/
def Exit.cleanUp (e : Exit σ) : Status × Controller σ :=
  match e.label with
  | .closePciIo => (e.status, (closePciIo p e.state).2)
  | .closeDevicePath => (e.status, closeParent p e.state)
  | .freeAllocatedPrivate => (e.status, closeParent p (freePrivate e.state))
  | .childStartFailed boundJustNow => childStartFailed p boundJustNow e.status e.state

/-- Both calls of `CloseProtocol` in `closeParent` succeed. -/
def parentCloses (c : Controller σ) : Bool :=
  !(closeDevicePath p c).1.isError && !(closePciIo p (closeDevicePath p c).2).1.isError

/-- Every `CloseProtocol` from the label on succeeds. -/
def Exit.closes (e : Exit σ) : Bool :=
  match e.label with
  | .closePciIo => !(closePciIo p e.state).1.isError
  | .closeDevicePath => parentCloses p e.state
  | .freeAllocatedPrivate => parentCloses p (freePrivate e.state)
  | .childStartFailed boundJustNow =>
    let (cleanup, c) := restorePciAttributes p e.state
    let c := freeChildResources c
    if cleanup.isError || !boundJustNow then true
    else
      let (uninstalled, c) := uninstallMarker p c
      uninstalled.isError || parentCloses p (freePrivate c)

/-- The temporary open of `SimpleDisplayDriverSupported` is closed. -/
def supportedCloses (remaining : RemainingDevicePath) (c : Controller σ) : Bool :=
  if remaining = .other then true
  else
    let (status, c) := openPciIo p c
    if status.isError then true
    else !(closePciIo p (onDevice (hwMatchPci p.pci) c).2).1.isError

/-- Every `CloseProtocol` that a `Supported` or a failing start makes succeeds. -/
def closesSucceed : Call → Controller σ → Bool
  | .supported remaining, c => supportedCloses p remaining c
  | .start remaining, c => (startExit p remaining c).all (·.closes p)
  | .stop _ _, _ => true

/-! ## Where a call frees -/

def removeFrees (child : Handle) (c : Controller σ) : Option (Controller σ) :=
  let (status, c) := uninstallChild p child c
  if status.isError then none else some c

def stopChildFrees (child : Handle) (c : Controller σ) : Option (Controller σ) :=
  match childPrivate p child c with
  | (.error _, _) => none
  | (.ok none, _) => none
  | (.ok (some q), c) =>
    if q.controllerHandle ≠ p.controllerHandle ∨ q.childHandle ≠ some child then none
    else if q.childPciIoOpened then
      let (status, c) := closeChild p child c
      if status.isError then none else removeFrees p child c
    else removeFrees p child c

def stopParentFrees (q : DriverPrivate) (c : Controller σ) : Option (Controller σ) :=
  if q.childHandle ≠ none then none
  else
    let (status, c) := restorePciAttributes p c
    if status.isError then none
    else
      let (status, c) := uninstallMarker p c
      if status.isError then none else some (closeParent p c)

/-- The state in which a call begins to free the child's resources or the private
structure. -/
def freesAt : Call → Controller σ → Option (Controller σ)
  | .supported _, _ => none
  | .start remaining, c =>
    (startExit p remaining c).bind fun exit =>
      match exit.label with
      | .closePciIo | .closeDevicePath => none
      | .freeAllocatedPrivate => some exit.state
      | .childStartFailed _ => some (restorePciAttributes p exit.state).2
  | .stop numberOfChildren childHandleBuffer, c =>
    match managedPrivate p c with
    | (none, _) => none
    | (some q, c) =>
      if numberOfChildren = 0 then stopParentFrees p q c
      else
        match childHandleBuffer with
        | none => none
        | some child => if numberOfChildren ≠ 1 then none else stopChildFrees p child c

end

/-- What the private structure holds is still there. -/
def Books.Backed (before after : Books) : Prop :=
  ∀ h, before.holding = some h → ∃ h', after.holding = some h' ∧
    (h.devicePath = true → h'.devicePath = true)

/-- A call frees where no child protocol is installed, or frees nothing. -/
def FreesSafely {σ : Type} (before after : Books) : Option (Controller σ) → Prop
  | some c => c.children = []
  | none => before.Backed after

section

variable {σ : Type} {p : Platform σ}

theorem startUnmanaged_exit {c : Controller σ} {exit : Exit σ} (h : unmanagedExit p c = some exit) :
    startUnmanaged p c = (.error (exit.cleanUp p).1, (exit.cleanUp p).2) := by
  unfold unmanagedExit at h
  unfold startUnmanaged
  dsimp only at h ⊢
  split at h
  · next he =>
    cases h
    rw [if_pos he]
    rfl
  next he =>
    rw [if_neg he]
    rcases hm : onDevice (hwMatchPci p.pci) (openDevicePath p c).2 with ⟨_ | _, c₁⟩
    · rw [hm] at h
      cases h
      rfl
    · rw [hm] at h
      dsimp only at h ⊢
      split at h
      · next ha =>
        cases h
        rw [if_pos ha]
        rfl
      next ha =>
        rw [if_neg ha]
        split at h
        · next hi =>
          cases h
          rw [if_pos hi]
          rfl
        · cases h

theorem startUnmanaged_done {c : Controller σ} (h : unmanagedExit p c = none) :
    (startUnmanaged p c).1 = .ok () := by
  unfold unmanagedExit at h
  unfold startUnmanaged
  dsimp only at h ⊢
  split at h
  · cases h
  next he =>
    rw [if_neg he]
    rcases hm : onDevice (hwMatchPci p.pci) (openDevicePath p c).2 with ⟨_ | _, c₁⟩
    · rw [hm] at h
      cases h
    · rw [hm] at h
      dsimp only at h ⊢
      split at h
      · cases h
      next ha =>
        rw [if_neg ha]
        split at h
        · cases h
        · next hi => rw [if_neg hi]

theorem startChild_exit {bound : Bool} {c : Controller σ} {exit : Exit σ}
    (h : childExit p bound c = some exit) :
    startChild p bound c = exit.cleanUp p := by
  unfold childExit at h
  unfold startChild
  rcases hp : startChildProtocols p c with ⟨_ | _, c₁⟩
  · rw [hp] at h
    cases h
    rfl
  · rw [hp] at h
    dsimp only at h ⊢
    unfold startChildPciIo
    dsimp only
    split at h
    · cases h
    next he =>
      rw [if_neg he]
      split at h
      · cases h
      next hu =>
        cases h
        rw [if_neg hu]
        rfl

/-- **The labels are the failing ends of a start.** -/
theorem driverStart_exit {remaining : RemainingDevicePath} {c : Controller σ} {exit : Exit σ}
    (h : startExit p remaining c = some exit) :
    driverStart p remaining c = exit.cleanUp p := by
  unfold startExit at h
  unfold driverStart startParent
  dsimp only at h ⊢
  split at h
  · next hs =>
    rw [if_pos hs]
    split at h
    · cases h
    next hm =>
      rw [hm]
      dsimp only [Except.map]
      split at h
      · cases h
      next hr =>
        rw [if_neg hr]
        exact startChild_exit h
  next hs =>
    rw [if_neg hs]
    split at h
    · cases h
    next he =>
      rw [if_neg he]
      split at h
      · next hu =>
        cases h
        rw [startUnmanaged_exit hu]
        rfl
      next hu =>
        have hdone := startUnmanaged_done hu
        rcases hrun : startUnmanaged p (openPciIo p c).2 with ⟨e | u, t⟩
        · rw [hrun] at hdone
          cases hdone
        · rw [hrun] at h
          dsimp only [Except.map] at h ⊢
          split at h
          · cases h
          next hr =>
            rw [if_neg hr]
            exact startChild_exit h

/-! ## The books at a label -/

/-- From which books a start jumps to a label, and the books there. -/
inductive Cleanup.At : Cleanup → Books → Books → Prop
  | closePciIo (path : Bool) : At .closePciIo (.bare false path) (.bare true path)
  | closeDevicePath : At .closeDevicePath (.bare false false) (.bare true true)
  | freeAllocatedPrivate : At .freeAllocatedPrivate (.bare false false) .unmarked
  | newParent (path : Bool) : At (.childStartFailed true) (.bare false false) (.parent path)
  | oldParent (path : Bool) : At (.childStartFailed false) (.parent false) (.parent path)

theorem not_error_of_success {s : Status} (h : s = .success) : ¬ s.isError = true := by
  rw [h]
  simp [Status.isError]

theorem Serves.of_success {x : Controller σ → Status × Controller σ} {c : Controller σ}
    {allowed : Prop} {b : Books} (h : Serves p x c allowed b) (hs : (x c).1 = .success) :
    (x c).2.books p = b := by
  rcases h with ⟨he, -⟩ | ⟨-, -, hb⟩
  · rw [hs] at he
    cases he
  · exact hb

theorem unmanagedExit_at {c : Controller σ} {path : Bool} (hc : c.books p = .bare true path)
    {e : Exit σ} (h : unmanagedExit p c = some e) :
    e.status.isError = true ∧ e.label.At (.bare false path) (e.state.books p) := by
  unfold unmanagedExit at h
  dsimp only at h
  rcases openDevicePath_serves (p := p) c with ⟨he, hb⟩ | ⟨hs, hclosed, hb⟩
  · rw [if_pos he] at h
    cases h
    refine ⟨he, ?_⟩
    rw [hb, hc]
    exact .closePciIo path
  rw [if_neg (not_error_of_success hs)] at h
  have hpath : c.devicePathByDriver = path := congrArg Books.devicePathByDriver hc
  rw [hpath] at hclosed
  have hfree : path = false := by simpa using hclosed
  subst hfree
  have hopen : (openDevicePath p c).2.books p = .bare true true := by
    rw [hb, hc]
    rfl
  have hmatch := onDevice_ends (p := p) (hwMatchPci_honest p.pci) (.bare true true) _ hopen
  split at h
  · next status c₁ hm =>
    cases h
    obtain ⟨he, hb₁⟩ := hmatch.2 _ _ hm
    refine ⟨he, ?_⟩
    show Cleanup.closeDevicePath.At _ (c₁.books p)
    rw [hb₁]
    exact .closeDevicePath
  next u c₁ hm =>
    have hb₁ : c₁.books p = .bare true true := hmatch.1 _ _ hm
    rcases allocatePrivate_serves (p := p) c₁ with ⟨he, hb₂⟩ | ⟨hs₂, -, hb₂⟩
    · rw [if_pos he] at h
      cases h
      refine ⟨rfl, ?_⟩
      rw [hb₂, hb₁]
      exact .closeDevicePath
    rw [if_neg (not_error_of_success hs₂)] at h
    rcases installMarker_serves (p := p) (allocatePrivate p c₁).2 with ⟨he, hb₃⟩ | ⟨hs₃, -, -⟩
    · rw [if_pos he] at h
      cases h
      refine ⟨he, ?_⟩
      rw [hb₃, hb₂, hb₁]
      exact .freeAllocatedPrivate
    · rw [if_neg (not_error_of_success hs₃)] at h
      cases h

theorem unmanagedExit_none {c : Controller σ} {path : Bool} (hc : c.books p = .bare true path)
    (h : unmanagedExit p c = none) :
    path = false ∧ (startUnmanaged p c).2.books p = .parent false := by
  unfold unmanagedExit at h
  unfold startUnmanaged
  dsimp only at h ⊢
  rcases openDevicePath_serves (p := p) c with ⟨he, -⟩ | ⟨hs, hclosed, hb⟩
  · rw [if_pos he] at h
    cases h
  rw [if_neg (not_error_of_success hs)] at h ⊢
  have hpath : c.devicePathByDriver = path := congrArg Books.devicePathByDriver hc
  rw [hpath] at hclosed
  have hfree : path = false := by simpa using hclosed
  subst hfree
  refine ⟨rfl, ?_⟩
  have hopen : (openDevicePath p c).2.books p = .bare true true := by
    rw [hb, hc]
    rfl
  have hmatch := onDevice_ends (p := p) (hwMatchPci_honest p.pci) (.bare true true) _ hopen
  rcases hm : onDevice (hwMatchPci p.pci) (openDevicePath p c).2 with ⟨_ | _, c₁⟩
  · rw [hm] at h
    cases h
  · rw [hm] at h
    dsimp only at h ⊢
    have hb₁ : c₁.books p = .bare true true := hmatch.1 _ _ hm
    rcases allocatePrivate_serves (p := p) c₁ with ⟨he, -⟩ | ⟨hs₂, -, hb₂⟩
    · rw [if_pos he] at h
      cases h
    rw [if_neg (not_error_of_success hs₂)] at h ⊢
    rcases installMarker_serves (p := p) (allocatePrivate p c₁).2 with ⟨he, -⟩ | ⟨hs₃, -, hb₃⟩
    · rw [if_pos he] at h
      cases h
    · rw [if_neg (not_error_of_success hs₃), hb₃, hb₂, hb₁]
      rfl

/-- `ChildHandle` in the books. -/
theorem childHandle_of_books {c : Controller σ} {child : Handle} {opened : Bool}
    (hc : c.books p = .withChild child opened) : (c.priv.bind (·.childHandle)).getD 0 = child := by
  have hholding : c.priv.map p.holding = some ⟨true, some child, opened, true⟩ :=
    congrArg Books.holding hc
  obtain ⟨q, hq, hh⟩ := Option.map_eq_some_iff.1 hholding
  have hchild : q.childHandle = some child := congrArg Holding.childHandle hh
  rw [hq, Option.bind_some, hchild, Option.getD_some]

theorem childExit_at {bound path : Bool} {c : Controller σ} (hc : c.books p = .parent path)
    {e : Exit σ} (h : childExit p bound c = some e) :
    e.status.isError = true ∧ e.label = .childStartFailed bound ∧
      ∃ path, e.state.books p = .parent path := by
  unfold childExit at h
  have hends := startChildProtocols_ends (p := p) path c hc
  split at h
  · next status c₁ hp =>
    cases h
    obtain ⟨he, hb⟩ := hends.2 _ _ hp
    exact ⟨he, rfl, hb⟩
  next u c₁ hp =>
    obtain ⟨child, hb₁⟩ := hends.1 _ _ hp
    dsimp only at h
    rw [childHandle_of_books hb₁] at h
    rcases openChildPciIo_serves (p := p) child c₁ with ⟨he, hb₂⟩ | ⟨hs, -, -⟩
    · rw [if_neg (by simp [he])] at h
      rcases uninstallChild_serves (p := p) child (openChildPciIo p child c₁).2
        with ⟨hu, -⟩ | ⟨hs, -, hb₃⟩
      · rw [if_pos hu] at h
        cases h
      · rw [if_neg (not_error_of_success hs)] at h
        cases h
        refine ⟨he, rfl, true, ?_⟩
        have hchildren : (openChildPciIo p child c₁).2.children = [child] :=
          congrArg Books.children (hb₂.trans hb₁)
        show Controller.books p (Controller.setPriv _ _) = _
        rw [setPriv_holding (g := ({ · with childHandle := none })) fun _ => rfl, hb₃, hb₂, hb₁,
          hchildren, List.erase_cons_head]
        rfl
    · rw [if_pos (by rw [hs]; rfl)] at h
      cases h

theorem childExit_none {bound path : Bool} {c : Controller σ} (hc : c.books p = .parent path)
    (h : childExit p bound c = none) :
    ∃ child opened, (startChild p bound c).2.books p = .withChild child opened := by
  unfold childExit at h
  unfold startChild
  have hends := startChildProtocols_ends (p := p) path c hc
  rcases hp : startChildProtocols p c with ⟨_ | _, c₁⟩
  · rw [hp] at h
    cases h
  · rw [hp] at h
    obtain ⟨child, hb₁⟩ := hends.1 _ _ hp
    dsimp only at h ⊢
    unfold startChildPciIo
    dsimp only
    rw [childHandle_of_books hb₁] at h ⊢
    rcases openChildPciIo_serves (p := p) child c₁ with ⟨he, hb₂⟩ | ⟨hs, -, hb₂⟩
    · rw [if_neg (by simp [he])] at h ⊢
      rcases uninstallChild_serves (p := p) child (openChildPciIo p child c₁).2
        with ⟨hu, hb₃⟩ | ⟨hs, -, -⟩
      · rw [if_pos hu]
        exact ⟨child, false, (hb₃.trans hb₂).trans hb₁⟩
      · rw [if_neg (not_error_of_success hs)] at h
        cases h
    · rw [if_pos (by rw [hs]; rfl)]
      refine ⟨child, true, ?_⟩
      have hchildren : c₁.pciIoByChild = [] := congrArg Books.pciIoByChild hb₁
      rw [setPriv_holding (g := ({ · with childPciIoOpened := true })) fun _ => rfl, hb₂, hb₁,
        hchildren]
      rfl

theorem startManaged_books (remaining : RemainingDevicePath) (c : Controller σ) :
    (startManaged p remaining c).2.books p = c.books p := by
  have hm := managedPrivate_books (p := p) c
  unfold startManaged
  split
  · next h =>
    rw [h] at hm
    exact hm
  · next h =>
    rw [h] at hm
    split <;> exact hm

/-- A start goes on with the parent it finds managed, when that has no child. -/
theorem startManaged_ok {remaining : RemainingDevicePath} {c t : Controller σ} {u : Unit}
    (hk : (c.books p).Kept) (h : startManaged p remaining c = (.ok u, t)) :
    remaining ≠ .endNode ∧ c.books p = .parent false ∧ t.books p = .parent false := by
  have hbooks := startManaged_books (p := p) remaining c
  rw [h] at hbooks
  unfold startManaged at h
  split at h
  · cases h
  next q c₁ hm =>
    obtain ⟨hb, hpriv, hmarker, -⟩ := managedPrivate_some hm
    split at h
    · cases h
    next hno =>
      cases h
      rw [not_or, not_not] at hno
      refine ⟨hno.1, ?_⟩
      have hchild : (c.books p).holding.bind (·.childHandle) = none := by
        rw [← hb]
        show (t.priv.map p.holding).bind (·.childHandle) = none
        rw [hpriv]
        exact hno.2
      have hmark : (c.books p).marker = true := hmarker
      generalize c.books p = b at hk hchild hmark hbooks
      cases hk with
      | bare pciIo devicePath => cases hmark
      | parent => exact ⟨rfl, hbooks⟩
      | child child opened => cases hchild

theorem bare_of_closed {c : Controller σ} (hk : (c.books p).Kept)
    (hclosed : (!c.pciIoByDriver) = true) : ∃ path, c.books p = .bare false path := by
  have hpci : (c.books p).pciIoByDriver = false := by
    show c.pciIoByDriver = false
    simpa using hclosed
  generalize c.books p = b at hk hpci
  cases hk with
  | bare pciIo devicePath =>
    have hpci : pciIo = false := hpci
    exact ⟨devicePath, by rw [hpci]⟩
  | parent => cases hpci
  | child child opened => cases hpci

/-- **The books at each label.** -/
theorem startExit_at {remaining : RemainingDevicePath} {c : Controller σ} (hk : (c.books p).Kept)
    {e : Exit σ} (h : startExit p remaining c = some e) :
    e.status.isError = true ∧ e.label.At (c.books p) (e.state.books p) := by
  unfold startExit at h
  dsimp only at h
  rcases openPciIo_serves (p := p) c with ⟨he, hb⟩ | ⟨hs, hclosed, hb⟩
  · split at h
    · split at h
      · cases h
      next u t hm =>
        obtain ⟨-, hparent, ht⟩ := startManaged_ok (hb ▸ hk) hm
        split at h
        · cases h
        · obtain ⟨hstatus, hlabel, path, hstate⟩ := childExit_at ht h
          rw [hlabel, hstate, ← hb, hparent]
          exact ⟨hstatus, .oldParent path⟩
    · cases h
  · rw [if_neg (by rw [hs]; decide), if_neg (not_error_of_success hs)] at h
    obtain ⟨path, hbare⟩ := bare_of_closed hk hclosed
    have hopen : (openPciIo p c).2.books p = .bare true path := by
      rw [hb, hbare]
      rfl
    rw [hbare]
    split at h
    · next e' hu =>
      cases h
      exact unmanagedExit_at hopen hu
    next hu =>
      obtain ⟨rfl, hparent⟩ := unmanagedExit_none hopen hu
      split at h
      · cases h
      · obtain ⟨hstatus, hlabel, path', hstate⟩ := childExit_at hparent h
        rw [hlabel, hstate]
        exact ⟨hstatus, .newParent path'⟩

/-- A start that goes to no label has left the books alone, or manages the controller. -/
theorem driverStart_books_of_no_exit {remaining : RemainingDevicePath} {c : Controller σ}
    (hk : (c.books p).Kept) (h : startExit p remaining c = none) :
    (driverStart p remaining c).2.books p = c.books p ∨
      (c.books p).children = [] ∧ ((driverStart p remaining c).2.books p).Kept ∧
        ((driverStart p remaining c).2.books p).marker = true := by
  have hchild : ∀ {t : Controller σ} {child : Handle} {opened : Bool},
      t.books p = .withChild child opened → (t.books p).Kept ∧ (t.books p).marker = true := by
    intro t child opened ht
    rw [ht]
    exact ⟨.child child opened, rfl⟩
  unfold startExit at h
  unfold driverStart startParent
  dsimp only at h ⊢
  rcases openPciIo_serves (p := p) c with ⟨he, hb⟩ | ⟨hs, hclosed, hb⟩
  · split at h
    · next hstarted =>
      rw [if_pos hstarted]
      have hbooks := startManaged_books (p := p) remaining (openPciIo p c).2
      split at h
      · next e t hm =>
        rw [hm] at hbooks ⊢
        exact .inl (hbooks.trans hb)
      next u t hm =>
        obtain ⟨hr, hparent, ht⟩ := startManaged_ok (hb ▸ hk) hm
        rw [hm]
        dsimp only [Except.map]
        rw [if_neg hr] at h ⊢
        obtain ⟨child, opened, hend⟩ := childExit_none ht h
        refine .inr ⟨?_, hchild hend⟩
        rw [← hb, hparent]
        rfl
    · next hstarted =>
      rw [if_neg hstarted, if_pos he]
      exact .inl hb
  · rw [if_neg (by rw [hs]; decide), if_neg (not_error_of_success hs)] at h ⊢
    obtain ⟨path, hbare⟩ := bare_of_closed hk hclosed
    have hopen : (openPciIo p c).2.books p = .bare true path := by
      rw [hb, hbare]
      rfl
    split at h
    · cases h
    next hu =>
      obtain ⟨-, hparent⟩ := unmanagedExit_none hopen hu
      have hdone := startUnmanaged_done hu
      rcases hrun : startUnmanaged p (openPciIo p c).2 with ⟨e | u, t⟩
      · rw [hrun] at hdone
        cases hdone
      rw [hrun] at h hparent
      dsimp only [Except.map] at h ⊢
      by_cases hr : remaining = .endNode
      · rw [if_pos hr]
        refine .inr ⟨by rw [hbare]; rfl, ?_⟩
        show (t.books p).Kept ∧ (t.books p).marker = true
        rw [hparent]
        exact ⟨.parent, rfl⟩
      · rw [if_neg hr] at h ⊢
        obtain ⟨child, opened, hend⟩ := childExit_none hparent h
        exact .inr ⟨by rw [hbare]; rfl, hchild hend⟩

/-! ## The books after the cleanup -/

theorem closePciIo_books {c : Controller σ} (hc : (c.books p).pciIoByDriver = true) :
    (closePciIo p c).2.books p = { c.books p with pciIoByDriver := (closePciIo p c).1.isError } := by
  rcases closePciIo_serves (p := p) c with ⟨he, hb⟩ | ⟨hs, -, hb⟩
  · rw [he, hb, ← hc]
  · rw [hs, hb]
    rfl

theorem closeDevicePath_books {c : Controller σ} (hc : (c.books p).devicePathByDriver = true) :
    (closeDevicePath p c).2.books p =
      { c.books p with devicePathByDriver := (closeDevicePath p c).1.isError } := by
  rcases closeDevicePath_serves (p := p) c with ⟨he, hb⟩ | ⟨hs, -, hb⟩
  · rw [he, hb, ← hc]
  · rw [hs, hb]
    rfl

/-- Each open is there afterwards if and only if its `CloseProtocol` failed. -/
theorem closeParent_books {c : Controller σ} (hpci : (c.books p).pciIoByDriver = true)
    (hpath : (c.books p).devicePathByDriver = true) :
    (closeParent p c).books p = { c.books p with
      pciIoByDriver := (closePciIo p (closeDevicePath p c).2).1.isError
      devicePathByDriver := (closeDevicePath p c).1.isError } := by
  unfold closeParent
  have hb := closeDevicePath_books hpath
  rw [closePciIo_books (by rw [hb]; exact hpci), hb]

theorem closeParent_bare {c : Controller σ} (hc : c.books p = .bare true true) :
    (closeParent p c).books p = .bare (closePciIo p (closeDevicePath p c).2).1.isError
      (closeDevicePath p c).1.isError := by
  rw [closeParent_books (by rw [hc]; rfl) (by rw [hc]; rfl), hc]
  rfl

theorem freePrivate_books (c : Controller σ) :
    (freePrivate c).books p = { c.books p with holding := none } := rfl

/-- The parent's opens are closed, or not both. -/
theorem closeParent_unwound {c : Controller σ} (hc : c.books p = .bare true true) :
    Books.Unwound (.bare false false) ((closeParent p c).books p) ↔ parentCloses p c = true := by
  rw [closeParent_bare hc]
  unfold Books.Unwound parentCloses
  rcases (closePciIo p (closeDevicePath p c).2).1.isError <;>
    rcases (closeDevicePath p c).1.isError <;> decide

theorem bare_kept {c : Controller σ} (hc : c.books p = .bare true true) :
    ((closeParent p c).books p).Kept := by
  rw [closeParent_bare hc]
  exact .bare _ _

/-- `ChildStartFailed` up to the marker. -/
theorem freeChildResources_books {c : Controller σ} {path : Bool} (hc : c.books p = .parent path) :
    (freeChildResources c).books p = .parent false := by
  unfold freeChildResources
  rw [setPriv_holding (g := fun h => { h with
    devicePath := false, childHandle := none, childPciIoOpened := false }) fun _ => rfl, hc]
  rfl

/-- **What the cleanup leaves.** -/
theorem cleanUp_books {b : Books} {e : Exit σ} (he : e.status.isError = true)
    (hat : e.label.At b (e.state.books p)) :
    (e.cleanUp p).1.isError = true ∧ ((e.cleanUp p).2.books p).Kept ∧
      (Books.Unwound b ((e.cleanUp p).2.books p) ↔ b.marker = true ∨ e.closes p = true) := by
  obtain ⟨label, status, c⟩ := e
  dsimp only at he hat
  unfold Exit.cleanUp Exit.closes
  dsimp only
  generalize hc : c.books p = d at hat
  cases hat with
  | closePciIo path =>
    rw [closePciIo_books (by rw [hc]; rfl), hc]
    refine ⟨he, .bare _ _, ?_⟩
    dsimp only
    cases (closePciIo p c).1.isError <;> simp [Books.Unwound, Books.bare]
  | closeDevicePath =>
    refine ⟨he, bare_kept hc, ?_⟩
    rw [closeParent_unwound hc]
    simp [Books.bare]
  | freeAllocatedPrivate =>
    have hfree : (freePrivate c).books p = .bare true true := by
      rw [freePrivate_books, hc]
      rfl
    refine ⟨he, bare_kept hfree, ?_⟩
    rw [closeParent_unwound hfree]
    simp [Books.bare]
  | newParent path =>
    have hrestored := restorePciAttributes_books (p := p) c
    have hfreed := freeChildResources_books (hrestored.trans hc)
    unfold childStartFailed
    dsimp only
    by_cases hcleanup : (restorePciAttributes p c).1.isError = true
    · rw [if_pos hcleanup, if_pos (by simp [hcleanup]), hfreed]
      exact ⟨hcleanup, .parent, by simp [Books.Unwound, Books.parent]⟩
    have hno : ((restorePciAttributes p c).1.isError || !true) = false := by simp [hcleanup]
    rw [if_neg hcleanup, hno]
    simp only [Bool.not_true, Bool.false_eq_true, if_false]
    rcases uninstallMarker_serves (p := p) (freeChildResources (restorePciAttributes p c).2)
      with ⟨hu, hb⟩ | ⟨hs, -, hb⟩
    · rw [if_pos hu, hu, hb, hfreed]
      exact ⟨rfl, .parent, by simp [Books.Unwound, Books.parent]⟩
    · rw [if_neg (not_error_of_success hs), hs]
      have hfree : (freePrivate (uninstallMarker p
          (freeChildResources (restorePciAttributes p c).2)).2).books p = .bare true true := by
        rw [freePrivate_books, hb, hfreed]
        rfl
      refine ⟨he, bare_kept hfree, ?_⟩
      rw [closeParent_unwound hfree]
      simp [Books.bare, Status.isError]
  | oldParent path =>
    have hrestored := restorePciAttributes_books (p := p) c
    have hfreed := freeChildResources_books (hrestored.trans hc)
    unfold childStartFailed
    dsimp only
    by_cases hcleanup : (restorePciAttributes p c).1.isError = true
    · rw [if_pos hcleanup, hfreed]
      exact ⟨hcleanup, .parent, by simp [Books.Unwound, Books.parent]⟩
    · rw [if_neg hcleanup, if_pos (by simp), hfreed]
      exact ⟨he, .parent, by simp [Books.Unwound, Books.parent]⟩

end

end SimpleDisplay
