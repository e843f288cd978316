import SimpleDisplay.Gop.Binding
import SimpleDisplay.Lib.Keep
import SimpleDisplay.Lib.Run

/-!
# The PCI entry state

A start saves the Command word and a restore writes it back.  `EntryKept` says that the
saved word is the entry word and that every successful restore has left the entry word in
the register.  A start that saves again after a failed restore breaks it, when the register
no longer holds the entry word (`restart_loses_entry`); a run without such a start keeps it.
-/

namespace SimpleDisplay

open StateMachine

section

variable {σ : Type} {p : Platform σ}

/-- A read of the Command register reads it, and neither that nor `Attributes (Get)`
changes it. -/
structure Platform.Lawful (p : Platform σ) : Prop where
  read_command : ∀ s, (p.pci.pciRead16 pciCommandOffset s).1.1.isError = false →
    (p.pci.pciRead16 pciCommandOffset s).1.2 = p.command s
  command_read : ∀ s, p.command (p.pci.pciRead16 pciCommandOffset s).2 = p.command s
  command_get : ∀ a s, p.command (p.pci.attributes .get a s).2 = p.command s

structure EntryKept (c : Controller σ) : Prop where
  flags : ∀ q, c.priv = some q → q.pciAttributesSaved = q.pciCommandSaved
  saved : ∀ q, c.priv = some q → q.pciCommandSaved = true → c.entry = some q.originalPciCommand
  restored : ∀ r ∈ c.restores, r.1 = some r.2

/-- All that `EntryKept` reads. -/
def Controller.saves (c : Controller σ) :
    Option (Bool × Bool × BitVec 16) × Option (BitVec 16) × List (Option (BitVec 16) × BitVec 16) :=
  (c.priv.map fun q => (q.pciAttributesSaved, q.pciCommandSaved, q.originalPciCommand), c.entry,
    c.restores)

/-- `x` has no part in the saved state. -/
def SavesAlone {α : Type} (x : Controller σ → α × Controller σ) : Prop :=
  ∀ c, (x c).2.saves = c.saves

/-! ## Lemmas -/

theorem EntryKept.congr {c c' : Controller σ} (hc : EntryKept c) (h : c'.saves = c.saves) :
    EntryKept c' := by
  unfold Controller.saves at h
  rw [Prod.mk.injEq, Prod.mk.injEq] at h
  obtain ⟨hpriv, hentry, hrestores⟩ := h
  have hback : ∀ q', c'.priv = some q' → ∃ q, c.priv = some q ∧
      q.pciAttributesSaved = q'.pciAttributesSaved ∧ q.pciCommandSaved = q'.pciCommandSaved ∧
      q.originalPciCommand = q'.originalPciCommand := by
    intro q' hq'
    rw [hq', Option.map_some] at hpriv
    obtain ⟨q, hq, heq⟩ := Option.map_eq_some_iff.1 hpriv.symm
    rw [Prod.mk.injEq, Prod.mk.injEq] at heq
    exact ⟨q, hq, heq⟩
  refine ⟨?_, ?_, ?_⟩
  · intro q' hq'
    obtain ⟨q, hq, hattributes, hcommand, -⟩ := hback q' hq'
    rw [← hattributes, ← hcommand]
    exact hc.flags q hq
  · intro q' hq' hsaved
    obtain ⟨q, hq, -, hcommand, hword⟩ := hback q' hq'
    rw [hentry, ← hword]
    exact hc.saved q hq (hcommand.trans hsaved)
  · rw [hrestores]
    exact hc.restored

theorem SavesAlone.keeps {α : Type} {x : Controller σ → α × Controller σ} (h : SavesAlone x) :
    Keeps EntryKept x := fun c hc => hc.congr (h c)

theorem setPriv_saves {f : DriverPrivate → DriverPrivate}
    (hf : ∀ q, (f q).pciAttributesSaved = q.pciAttributesSaved ∧
      (f q).pciCommandSaved = q.pciCommandSaved ∧
      (f q).originalPciCommand = q.originalPciCommand) (c : Controller σ) :
    (c.setPriv f).saves = c.saves := by
  unfold Controller.setPriv Controller.saves
  rcases hq : c.priv with _ | q
  · rfl
  · obtain ⟨h1, h2, h3⟩ := hf q
    dsimp only [Option.map_some]
    rw [h1, h2, h3]

theorem onDevice_alone {α : Type} (x : Efi σ α) : SavesAlone (onDevice x) := fun _ => rfl

theorem update_alone {f : Controller σ → Controller σ} (hf : ∀ c, (f c).saves = c.saves) :
    SavesAlone (Efi.update f) := hf

theorem bootService_alone {allowed : Controller σ → Bool} {refusal : Status}
    {update : Controller σ → Controller σ} (h : ∀ c, (update c).saves = c.saves) :
    SavesAlone (bootService p allowed refusal update) := by
  intro c
  unfold bootService
  dsimp only
  split
  · rfl
  split
  · exact h _
  · rfl

theorem openPciIo_alone (p : Platform σ) : SavesAlone (openPciIo p) := by
  apply bootService_alone
  exact fun _ => rfl

theorem openDevicePath_alone (p : Platform σ) : SavesAlone (openDevicePath p) := by
  apply bootService_alone
  exact fun _ => rfl

theorem closePciIo_alone (p : Platform σ) : SavesAlone (closePciIo p) := by
  apply bootService_alone
  exact fun _ => rfl

theorem closeDevicePath_alone (p : Platform σ) : SavesAlone (closeDevicePath p) := by
  apply bootService_alone
  exact fun _ => rfl

theorem openChildPciIo_alone (p : Platform σ) (child : Handle) :
    SavesAlone (openChildPciIo p child) := by
  apply bootService_alone
  exact fun _ => rfl

theorem closeChildPciIo_alone (p : Platform σ) (child : Handle) :
    SavesAlone (closeChildPciIo p child) := by
  apply bootService_alone
  exact fun _ => rfl

theorem installMarker_alone (p : Platform σ) : SavesAlone (installMarker p) := by
  apply bootService_alone
  exact fun _ => rfl

theorem uninstallMarker_alone (p : Platform σ) : SavesAlone (uninstallMarker p) := by
  apply bootService_alone
  exact fun _ => rfl

theorem uninstallChild_alone (p : Platform σ) (child : Handle) :
    SavesAlone (uninstallChild p child) := by
  apply bootService_alone
  exact fun _ => rfl

theorem installChild_alone (p : Platform σ) : SavesAlone (installChild p) := by
  apply bootService_alone
  intro c
  dsimp only
  rw [setPriv_saves]
  · rfl
  · exact fun _ => ⟨rfl, rfl, rfl⟩

theorem childPrivate_alone (p : Platform σ) (child : Handle) :
    SavesAlone (childPrivate p child) := by
  intro c
  unfold childPrivate getChildGop
  dsimp only
  apply bootService_alone
  exact fun _ => rfl

theorem managedPrivate_alone (p : Platform σ) : SavesAlone (managedPrivate p) := by
  intro c
  have hcall : (getMarker p c).2.saves = c.saves := bootService_alone (fun _ => rfl) c
  unfold managedPrivate
  dsimp only
  split <;> exact hcall

theorem freeChildResources_saves (c : Controller σ) : (freeChildResources c).saves = c.saves := by
  apply setPriv_saves
  exact fun _ => ⟨rfl, rfl, rfl⟩

/-- With no private structure nothing is saved. -/
theorem EntryKept.freePrivate {c : Controller σ} (hc : EntryKept c) :
    EntryKept (freePrivate c) where
  flags _ hq := nomatch hq
  saved _ hq := nomatch hq
  restored := hc.restored

theorem allocatePrivate_keeps (p : Platform σ) : Keeps EntryKept (allocatePrivate p) := by
  intro c hc
  unfold allocatePrivate bootService
  dsimp only
  split
  · exact hc.congr rfl
  · refine ⟨?_, ?_, hc.restored⟩
    · intro q hq
      cases hq
      rfl
    · intro q hq hsaved
      cases hq
      cases hsaved

/-! ### Restore and save -/

/-- A restore that returns has left the saved word in the register. -/
theorem restoreCommand_ok (hp : p.Lawful) {q : DriverPrivate} {s t : σ} {u : Unit}
    (h : restoreCommand p q s = (.ok u, t)) (hsaved : q.pciCommandSaved = true) :
    p.command t = q.originalPciCommand := by
  unfold restoreCommand at h
  rw [if_pos hsaved] at h
  obtain ⟨-, s₁, -, h⟩ := Efi.bind_ok h
  obtain ⟨command, s₂, hread, h⟩ := Efi.bind_ok h
  obtain ⟨herr, hcommand, hstate⟩ := Efi.get_ok hread
  split at h
  · cases h
  · next heq =>
    cases h
    rw [hstate, hp.command_read, ← hp.read_command s₁ herr, ← hcommand]
    simpa using heq

theorem restorePciAttributes_keeps (hp : p.Lawful) : Keeps EntryKept (restorePciAttributes p) := by
  intro c hc
  unfold restorePciAttributes
  rcases hq : c.priv with _ | q
  · exact hc
  dsimp only
  split
  · exact hc
  next hsome =>
    have hsaved : q.pciCommandSaved = true := by
      rw [hc.flags q hq] at hsome
      simpa using hsome
    have hentry := hc.saved q hq hsaved
    rcases hrun : (do restoreAttributes p q; restoreCommand p q : Efi σ Unit) c.dev
      with ⟨status | u, dev⟩
    · unfold onDevice
      rw [hrun]
      exact hc.congr rfl
    · obtain ⟨-, s, -, hcommand⟩ := Efi.bind_ok hrun
      have hword := restoreCommand_ok hp hcommand hsaved
      unfold onDevice
      rw [hrun]
      refine ⟨?_, ?_, ?_⟩
      · intro q' hq'
        cases hq'
        rfl
      · intro q' hq' hsaved'
        cases hq'
        cases hsaved'
      · intro r hr
        rcases List.mem_append.1 hr with hr | hr
        · exact hc.restored r hr
        · rcases List.mem_singleton.1 hr with rfl
          dsimp only
          rw [hentry, hword]

/-- Either no word is saved, or the register still holds it. -/
def entryFree (p : Platform σ) (c : Controller σ) : Bool :=
  c.priv.all fun q => !q.pciCommandSaved || p.command c.dev = q.originalPciCommand

/-- A save of the word that the register holds. -/
theorem savePciState_kept {c : Controller σ} (hc : EntryKept c) (hfree : entryFree p c = true)
    {command : BitVec 16} (hcommand : command = p.command c.dev) (attributes : BitVec 64) :
    EntryKept (savePciState p command attributes c) := by
  unfold savePciState Controller.setPriv
  refine ⟨?_, ?_, hc.restored⟩
  · intro q' hq'
    obtain ⟨q, -, rfl⟩ := Option.map_eq_some_iff.1 hq'
    rfl
  · intro q' hq' _
    obtain ⟨q, hq, rfl⟩ := Option.map_eq_some_iff.1 hq'
    dsimp only at hq ⊢
    unfold entryFree at hfree
    unfold Controller.commandSaved
    rw [hq] at hfree ⊢
    by_cases hsaved : q.pciCommandSaved = true
    · rw [Option.any_some, if_pos hsaved, hc.saved q hq hsaved, hcommand]
      simpa [hsaved, eq_comm] using hfree
    · rw [Option.any_some, if_neg hsaved, hcommand]

theorem readPciState_command (hp : p.Lawful) {s t : σ} {state : BitVec 16 × BitVec 64}
    (h : readPciState p s = (.ok state, t)) : state.1 = p.command t := by
  obtain ⟨command, s₁, hread, h⟩ := Efi.bind_ok h
  obtain ⟨attributes, s₂, hget, h⟩ := Efi.bind_ok h
  obtain ⟨herr, hcommand, rfl⟩ := Efi.get_ok hread
  obtain ⟨-, -, rfl⟩ := Efi.get_ok hget
  cases h
  rw [hp.command_get, hp.command_read, ← hp.read_command s herr, hcommand]

/-! ### The calls -/

theorem closeParent_kept {c : Controller σ} (hc : EntryKept c) : EntryKept (closeParent p c) := by
  have hpath : EntryKept (closeDevicePath p c).2 := (closeDevicePath_alone p).keeps c hc
  exact (closePciIo_alone p).keeps _ hpath

theorem childStartFailed_keeps (hp : p.Lawful) (boundJustNow : Bool) (status : Status) :
    Keeps EntryKept (childStartFailed p boundJustNow status) := by
  intro c hc
  have hrestored : EntryKept (freeChildResources (restorePciAttributes p c).2) :=
    (restorePciAttributes_keeps hp c hc).congr (freeChildResources_saves _)
  have huninstalled := (uninstallMarker_alone p).keeps _ hrestored
  unfold childStartFailed
  dsimp only
  split
  · exact hrestored
  split
  · exact hrestored
  split
  · exact huninstalled
  · exact closeParent_kept huninstalled.freePrivate

theorem startChildPciIo_keeps (hp : p.Lawful) (boundJustNow : Bool) :
    Keeps EntryKept (startChildPciIo p boundJustNow) := by
  intro c hc
  have hopened : EntryKept (openChildPciIo p ((c.priv.bind (·.childHandle)).getD 0) c).2 :=
    (openChildPciIo_alone p _).keeps c hc
  unfold startChildPciIo
  dsimp only
  split
  · apply hopened.congr
    apply setPriv_saves
    exact fun _ => ⟨rfl, rfl, rfl⟩
  have hremoved := (uninstallChild_alone p ((c.priv.bind (·.childHandle)).getD 0)).keeps _
    hopened
  split
  · exact hremoved
  · apply childStartFailed_keeps hp
    apply hremoved.congr
    apply setPriv_saves
    exact fun _ => ⟨rfl, rfl, rfl⟩

theorem initializeHardware_alone (p : Platform σ) : SavesAlone (initializeHardware p) := by
  intro c
  have hcall : (onDevice (hwInitializeContext p.pci) c).2.saves = c.saves := onDevice_alone _ c
  unfold initializeHardware
  split
  · next h =>
    rw [h] at hcall
    rw [← hcall]
    apply setPriv_saves
    exact fun _ => ⟨rfl, rfl, rfl⟩
  · next h =>
    rw [h] at hcall
    rw [← hcall]
    apply setPriv_saves
    exact fun _ => ⟨rfl, rfl, rfl⟩

theorem appendDevicePath_alone (p : Platform σ) : SavesAlone (appendDevicePath p) := by
  intro c
  unfold appendDevicePath
  dsimp only
  apply bootService_alone
  intro c
  apply setPriv_saves
  exact fun _ => ⟨rfl, rfl, rfl⟩

theorem installChildProtocols_alone (p : Platform σ) : SavesAlone (installChildProtocols p) := by
  intro c
  have hinstalled := installChild_alone p c
  unfold installChildProtocols
  dsimp only
  split
  · rw [← hinstalled]
    apply setPriv_saves
    exact fun _ => ⟨rfl, rfl, rfl⟩
  · exact hinstalled

/-- The start of the child after the save. -/
theorem startChildProtocols_rest_keeps (p : Platform σ) : Keeps EntryKept (do
    onDevice (enablePciMemoryDecode p)
    Efi.update (Controller.setPriv ({ · with pciMemoryEnabled := true }))
    initializeHardware p
    Efi.call (appendDevicePath p)
    Efi.update publishGop
    Efi.call (installChildProtocols p) : Efi (Controller σ) Unit) := by
  refine Keeps.bind (onDevice_alone _).keeps fun _ => ?_
  refine Keeps.bind (update_alone ?_).keeps fun _ => ?_
  · intro c
    apply setPriv_saves
    exact fun _ => ⟨rfl, rfl, rfl⟩
  refine Keeps.bind (initializeHardware_alone p).keeps fun _ => ?_
  refine Keeps.bind (fun c hc => (appendDevicePath_alone p).keeps c hc) fun _ => ?_
  refine Keeps.bind (update_alone ?_).keeps fun _ => ?_
  · intro c
    apply setPriv_saves
    exact fun _ => ⟨rfl, rfl, rfl⟩
  · exact fun c hc => (installChildProtocols_alone p).keeps c hc

/-- The state in which a start is about to save the Command word, if it gets so far. -/
def startSaves (p : Platform σ) (remaining : RemainingDevicePath) (c : Controller σ) :
    Option (Controller σ) :=
  match startParent p remaining c with
  | (.error _, _) => none
  | (.ok _, c) =>
    if remaining = .endNode then none
    else
      match onDevice (readPciState p) c with
      | (.error _, _) => none
      | (.ok _, c) => some c

theorem startChild_kept (hp : p.Lawful) (boundJustNow : Bool) {c : Controller σ} (hc : EntryKept c)
    (hfree : ∀ state c', onDevice (readPciState p) c = (.ok state, c') → entryFree p c' = true) :
    EntryKept (startChild p boundJustNow c).2 := by
  have hprotocols : EntryKept (startChildProtocols p c).2 := by
    unfold startChildProtocols
    have hkept := (onDevice_alone (readPciState p)).keeps c hc
    rcases hread : onDevice (readPciState p) c with ⟨status | state, c'⟩
    · rw [hread] at hkept
      rw [Efi.bind_of_error hread]
      exact hkept
    · rw [hread] at hkept
      rw [Efi.bind_of_ok hread]
      have hcommand : state.1 = p.command c'.dev := by
        rcases hdev : readPciState p c.dev with ⟨r, dev⟩
        unfold onDevice at hread
        rw [hdev] at hread
        cases hread
        exact readPciState_command hp hdev
      have hsaved := savePciState_kept hkept (hfree state c' hread) hcommand state.2
      have hupdate : Efi.update (savePciState p state.1 state.2) c' = (.ok (), _) := rfl
      rw [Efi.bind_of_ok hupdate]
      exact startChildProtocols_rest_keeps p _ hsaved
  unfold startChild
  split
  · next h =>
    rw [h] at hprotocols
    exact childStartFailed_keeps hp _ _ _ hprotocols
  · next h =>
    rw [h] at hprotocols
    exact startChildPciIo_keeps hp _ _ hprotocols

theorem startManaged_keeps (p : Platform σ) (remaining : RemainingDevicePath) :
    Keeps EntryKept (startManaged p remaining) := by
  intro c hc
  have hmanaged := (managedPrivate_alone p).keeps c hc
  unfold startManaged
  split
  · next h =>
    rw [h] at hmanaged
    exact hmanaged
  · next h =>
    rw [h] at hmanaged
    split <;> exact hmanaged

theorem startUnmanaged_keeps (p : Platform σ) : Keeps EntryKept (startUnmanaged p) := by
  intro c hc
  have hopened := (openDevicePath_alone p).keeps c hc
  unfold startUnmanaged
  dsimp only
  split
  · exact (closePciIo_alone p).keeps _ hopened
  have hmatched := (onDevice_alone (hwMatchPci p.pci)).keeps _ hopened
  split
  · next h =>
    rw [h] at hmatched
    exact closeParent_kept hmatched
  next h =>
    rw [h] at hmatched
    have hallocated := allocatePrivate_keeps p _ hmatched
    have hinstalled := (installMarker_alone p).keeps _ hallocated
    split
    · exact closeParent_kept hallocated
    split
    · exact closeParent_kept hinstalled.freePrivate
    · exact hinstalled

theorem startParent_keeps (p : Platform σ) (remaining : RemainingDevicePath) :
    Keeps EntryKept (startParent p remaining) := by
  intro c hc
  have hopened := (openPciIo_alone p).keeps c hc
  unfold startParent
  dsimp only
  split
  · exact startManaged_keeps p remaining _ hopened
  split
  · exact hopened
  · exact startUnmanaged_keeps p _ hopened

theorem driverStart_kept (hp : p.Lawful) (remaining : RemainingDevicePath) {c : Controller σ}
    (hc : EntryKept c) (hfree : (startSaves p remaining c).all (entryFree p) = true) :
    EntryKept (driverStart p remaining c).2 := by
  have hparent := startParent_keeps p remaining c hc
  unfold startSaves at hfree
  unfold driverStart
  rcases h : startParent p remaining c with ⟨status | bound, c'⟩
  · rw [h] at hparent
    exact hparent
  rw [h] at hparent hfree
  dsimp only at hfree ⊢
  by_cases hend : remaining = .endNode
  · rw [if_pos hend]
    exact hparent
  rw [if_neg hend] at hfree ⊢
  apply startChild_kept hp bound hparent
  intro state c'' hread
  rw [hread] at hfree
  exact hfree

theorem driverSupported_keeps (p : Platform σ) (remaining : RemainingDevicePath) :
    Keeps EntryKept (driverSupported p remaining) := by
  intro c hc
  have hopened := (openPciIo_alone p).keeps c hc
  have hmanaged := (managedPrivate_alone p).keeps _ hopened
  have hmatched := (onDevice_alone (hwMatchPci p.pci)).keeps _ hopened
  unfold driverSupported
  dsimp only
  split
  · exact hc
  split
  · split
    · next h =>
      rw [h] at hmanaged
      exact hmanaged
    · next h =>
      rw [h] at hmanaged
      exact hmanaged
  split
  · exact hopened
  · exact (closePciIo_alone p).keeps _ hmatched

theorem stopParent_keeps (hp : p.Lawful) (q : DriverPrivate) :
    Keeps EntryKept (stopParent p q) := by
  intro c hc
  have hrestored := restorePciAttributes_keeps hp c hc
  have huninstalled := (uninstallMarker_alone p).keeps _ hrestored
  unfold stopParent
  dsimp only
  split
  · exact hc
  split
  · exact hrestored
  split
  · exact huninstalled
  · exact (closeParent_kept huninstalled).freePrivate

theorem removeChild_keeps (hp : p.Lawful) (child : Handle) :
    Keeps EntryKept (removeChild p child) := by
  intro c hc
  have huninstalled := (uninstallChild_alone p child).keeps c hc
  unfold removeChild
  dsimp only
  split
  · apply ((openChildPciIo_alone p child).keeps _ huninstalled).congr
    apply setPriv_saves
    exact fun _ => ⟨rfl, rfl, rfl⟩
  · exact restorePciAttributes_keeps hp _ (huninstalled.congr (freeChildResources_saves _))

theorem closeChild_alone (p : Platform σ) (child : Handle) : SavesAlone (closeChild p child) := by
  intro c
  have hclosed := closeChildPciIo_alone p child c
  unfold closeChild
  dsimp only
  split
  · exact hclosed
  · rw [← hclosed]
    apply setPriv_saves
    exact fun _ => ⟨rfl, rfl, rfl⟩

theorem stopChild_keeps (hp : p.Lawful) (child : Handle) : Keeps EntryKept (stopChild p child) := by
  intro c hc
  have hfound := (childPrivate_alone p child).keeps c hc
  unfold stopChild
  split
  · next h =>
    rw [h] at hfound
    exact hfound
  · next h =>
    rw [h] at hfound
    exact hfound
  next h =>
    rw [h] at hfound
    have hclosed := (closeChild_alone p child).keeps _ hfound
    split
    · exact hfound
    split
    · dsimp only
      split
      · exact hclosed
      · exact removeChild_keeps hp child _ hclosed
    · exact removeChild_keeps hp child _ hfound

theorem driverStop_keeps (hp : p.Lawful) (numberOfChildren : Nat)
    (childHandleBuffer : Option Handle) :
    Keeps EntryKept (driverStop p numberOfChildren childHandleBuffer) := by
  intro c hc
  have hmanaged := (managedPrivate_alone p).keeps c hc
  unfold driverStop
  split
  · next h =>
    rw [h] at hmanaged
    exact hmanaged
  next h =>
    rw [h] at hmanaged
    split
    · exact stopParent_keeps hp _ _ hmanaged
    split
    · exact hmanaged
    split
    · exact hmanaged
    · exact stopChild_keeps hp _ _ hmanaged

end

/-! ## Top theorem -/

section

variable {σ : Type} {p : Platform σ}

/-- A start that saves the Command word finds no word saved, or the saved one still in the
register. -/
def savesEntry (p : Platform σ) : Call → Controller σ → Prop
  | .start remaining, c => (startSaves p remaining c).all (entryFree p) = true
  | _, _ => True

instance : ∀ (a : Call) (c : Controller σ), Decidable (savesEntry p a c)
  | .supported _, _ => instDecidableTrue
  | .start _, _ => inferInstanceAs (Decidable (_ = true))
  | .stop _ _, _ => instDecidableTrue

theorem call_kept (hp : p.Lawful) {a : Call} {c t : Controller σ} (hsaves : savesEntry p a c)
    (hc : EntryKept c) (ht : bindingStep p a c = some t) : EntryKept t := by
  cases ht
  cases a with
  | supported remaining => exact driverSupported_keeps p remaining c hc
  | start remaining => exact driverStart_kept hp remaining hc hsaves
  | stop numberOfChildren childHandleBuffer =>
    exact driverStop_keeps hp numberOfChildren childHandleBuffer c hc

theorem unmanaged_kept (dev : σ) : EntryKept (Controller.unmanaged dev) where
  flags _ hq := nomatch hq
  saved _ hq := nomatch hq
  restored _ hr := nomatch hr

/-- In every run whose starts save the entry word only, the saved word is the entry word and
every restore that has succeeded left the entry word in the Command register. -/
theorem entry_word_restored (hp : p.Lawful) {dev : σ} {calls : List Call} {c : Controller σ}
    (hrun : run (bindingStep p) calls (.unmanaged dev) = some c)
    (hsaves : Meets (bindingStep p) (savesEntry p) calls (.unmanaged dev)) :
    (∀ q, c.priv = some q → q.pciCommandSaved = true → c.entry = some q.originalPciCommand) ∧
    ∀ r ∈ c.restores, r.1 = some r.2 := by
  have hkept : EntryKept c :=
    run_invariant_of_meets (fun _ _ _ hI hok ht => call_kept hp hok hI ht) (unmanaged_kept dev)
      hsaves hrun
  exact ⟨hkept.saved, hkept.restored⟩

end

/-! ### A controller on the bench -/

structure Bench where
  command : BitVec 16
  /-- the calls so far -/
  calls : Nat
deriving DecidableEq

/-- A call of the bench device: `failing` lists the ones that fail. -/
def benchCall {α : Type} (failing : List Nat) (fail : α) (work : Bench → α × Bench) (s : Bench) :
    α × Bench :=
  let t := { s with calls := s.calls + 1 }
  if s.calls ∈ failing then (fail, t) else work t

/-- Vendor, device, revision and class. -/
def benchHeader : List UInt8 := [0xEE, 0x10, 0x24, 0x70, 0, 0, 0, 0, 0, 0, 0, 3]

def benchPci (failing : List Nat) : PciIo Bench where
  attributes operation a := benchCall failing (.deviceError, 0) fun s =>
    match operation with
    | .get => ((.success, s.command.setWidth 64 &&& 7), s)
    | .set => ((.success, 0), { s with command := s.command &&& ~~~7 ||| a.setWidth 16 &&& 7 })
    | .enable => ((.success, 0), { s with command := s.command ||| a.setWidth 16 &&& 7 })
  pciRead8 _ count := benchCall failing (.deviceError, []) fun s =>
    ((.success, (benchHeader ++ List.replicate 52 0).take count), s)
  pciRead16 _ := benchCall failing (.deviceError, 0) fun s => ((.success, s.command), s)
  pciWrite16 _ command := benchCall failing .deviceError fun s =>
    (.success, { s with command := command })
  getBarAttributes _ := benchCall failing (.deviceError, none) fun s =>
    ((.success, some ⟨acpiAddressSpaceDescriptor, 0, 0, barMinSize, barMinSize_lt⟩), s)
  memRead _ offset count := benchCall failing (.deviceError, []) fun s =>
    ((.success, (identityBytes.drop (offset - identityOffset)).take (count * 4)), s)
  memWrite _ _ _ _ := benchCall failing .deviceError fun s => (.success, s)

def bench (failing : List Nat) : Platform Bench where
  pci := benchPci failing
  bootService := benchCall failing .deviceError fun s => (.success, s)
  command := Bench.command
  controllerHandle := 100

theorem bench_lawful (failing : List Nat) : (bench failing).Lawful := by
  unfold bench benchPci benchCall
  refine ⟨?_, ?_, ?_⟩
  · intro s
    dsimp only
    split
    · exact fun h => nomatch h
    · exact fun _ => rfl
  · intro s
    dsimp only
    split <;> rfl
  · intro a s
    dsimp only
    split <;> rfl

/-- The read-back of the first stop fails, after the word has been written: the second start
saves the same word again. -/
theorem entry_word_restored_twice :
    ∃ c, run (bindingStep (bench [23])) [.start .null, .stop 1 (some 1), .start .hdmiNode,
        .stop 1 (some 2)] (.unmanaged ⟨0, 0⟩) = some c ∧
      c.restores.length = 1 ∧ ∀ r ∈ c.restores, r.1 = some r.2 := by
  have hrun : (run (bindingStep (bench [23])) [.start .null, .stop 1 (some 1), .start .hdmiNode,
      .stop 1 (some 2)] (.unmanaged ⟨0, 0⟩)).any (fun c => decide (c.restores.length = 1)) = true := by
    decide
  obtain ⟨c, hc, htest⟩ := run_any hrun
  have hkept := entry_word_restored (bench_lawful [23]) hc (by decide)
  exact ⟨c, hc, of_decide_eq_true htest, hkept.2⟩

/-- `Attributes (Set)` fails in the first stop and leaves memory decoding on.  The second
start takes that for the entry word 0, and the second stop restores it with success. -/
theorem restart_loses_entry :
    (bench [21]).Lawful ∧
    (∃ c, run (bindingStep (bench [21])) [.start .null, .stop 1 (some 1), .start .hdmiNode]
        (.unmanaged ⟨0, 0⟩) = some c ∧
      c.entry = some 0 ∧ c.commandSaved = true ∧ c.priv.map (·.originalPciCommand) = some 2) ∧
    ∃ c, run (bindingStep (bench [21])) [.start .null, .stop 1 (some 1), .start .hdmiNode,
        .stop 1 (some 2)] (.unmanaged ⟨0, 0⟩) = some c ∧
      c.restores = [(some 0, 2)] ∧ c.dev.command = 2 := by
  have hfirst : (run (bindingStep (bench [21])) [.start .null, .stop 1 (some 1), .start .hdmiNode]
      (.unmanaged ⟨0, 0⟩)).any (fun c => decide (c.entry = some 0 ∧ c.commandSaved = true ∧
        c.priv.map (·.originalPciCommand) = some 2)) = true := by
    decide
  have hsecond : (run (bindingStep (bench [21])) [.start .null, .stop 1 (some 1), .start .hdmiNode,
      .stop 1 (some 2)] (.unmanaged ⟨0, 0⟩)).any
        (fun c => decide (c.restores = [(some 0, 2)] ∧ c.dev.command = 2)) = true := by
    decide
  obtain ⟨c, hc, htest⟩ := run_any hfirst
  obtain ⟨c', hc', htest'⟩ := run_any hsecond
  exact ⟨bench_lawful [21], ⟨c, hc, of_decide_eq_true htest⟩, c', hc', of_decide_eq_true htest'⟩

end SimpleDisplay
