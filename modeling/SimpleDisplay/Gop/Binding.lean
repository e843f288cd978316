import SimpleDisplay.Gop.Blt

/-!
# Driver binding

`SimpleDisplayDriverSupported`, `Start` and `Stop` on one controller.  A `Platform` is the
device with `PciIo` and the boot services, each of which may fail any call: a boot service
that fails changes nothing, a `PciIo` call that fails may have done anything to the device.
`Controller` is what the calls act on: the device, the handles' protocols and opens as the
boot services keep them, and the private structure while it is allocated.

`entry` and `restores` are records that no step reads: the Command word when a start began
to change PCI state with no word saved, and what each successful restore has left.
-/

namespace SimpleDisplay

abbrev Handle := Nat

/-- The nodes of `RemainingDevicePath` that the driver tells apart. -/
inductive RemainingDevicePath
  | null
  | endNode
  | hdmiNode
  | other
deriving DecidableEq

def privateSignature : Nat := 0x50474453
def pciCommandOffset : Nat := 0x04
def pciCommandIoSpace : BitVec 16 := 0x0001
def pciCommandMemorySpace : BitVec 16 := 0x0002
def pciCommandBusMaster : BitVec 16 := 0x0004
def attributeIo : BitVec 64 := 0x0001
def attributeMemory : BitVec 64 := 0x0002
def attributeBusMaster : BitVec 64 := 0x0004

/-- `SIMPLE_DISPLAY_PRIVATE`; `devicePath` is whether the child's path is allocated. -/
structure DriverPrivate extends Private where
  signature : Nat
  controllerHandle : Handle
  childHandle : Option Handle
  originalPciAttributes : BitVec 64
  originalPciCommand : BitVec 16
  pciAttributesSaved : Bool
  pciCommandSaved : Bool
  pciMemoryEnabled : Bool
  childPciIoOpened : Bool
  devicePath : Bool

/-- `command` is the Command register and `bootService` tells how the next boot service
ends. -/
structure Platform (σ : Type) where
  pci : PciIo σ
  bootService : σ → Status × σ
  command : σ → BitVec 16
  controllerHandle : Handle

structure Controller (σ : Type) where
  dev : σ
  /-- the `BY_DRIVER` opens of the controller's protocols -/
  pciIoByDriver : Bool
  devicePathByDriver : Bool
  /-- the caller-ID protocol is installed -/
  marker : Bool
  /-- the handles with the four child protocols -/
  children : List Handle
  /-- the `BY_CHILD_CONTROLLER` opens of `PciIo` -/
  pciIoByChild : List Handle
  nextHandle : Handle
  priv : Option DriverPrivate
  entry : Option (BitVec 16)
  restores : List (Option (BitVec 16) × BitVec 16)

/-- A controller that the driver does not manage. -/
def Controller.unmanaged {σ : Type} (dev : σ) : Controller σ where
  dev := dev
  pciIoByDriver := false
  devicePathByDriver := false
  marker := false
  children := []
  pciIoByChild := []
  nextHandle := 1
  priv := none
  entry := none
  restores := []

section

variable {σ : Type} (p : Platform σ)

/-! ## Boot services -/

def Controller.setPriv (f : DriverPrivate → DriverPrivate) (c : Controller σ) : Controller σ :=
  { c with priv := c.priv.map f }

def onDevice {α : Type} (x : Efi σ α) : Efi (Controller σ) α := fun c =>
  ((x c.dev).1, { c with dev := (x c.dev).2 })

/-- A boot service fails, is refused by the state of the handles, or does its work. -/
def bootService (allowed : Controller σ → Bool) (refusal : Status)
    (update : Controller σ → Controller σ) (c : Controller σ) : Status × Controller σ :=
  let (status, dev) := p.bootService c.dev
  let c := { c with dev := dev }
  if status.isError then (status, c)
  else if allowed c then (.success, update c)
  else (refusal, c)

/-- `OpenProtocol` of the controller's `PciIo`, `BY_DRIVER`. -/
def openPciIo : Controller σ → Status × Controller σ :=
  bootService p (!·.pciIoByDriver) .alreadyStarted ({ · with pciIoByDriver := true })

def openDevicePath : Controller σ → Status × Controller σ :=
  bootService p (!·.devicePathByDriver) .alreadyStarted ({ · with devicePathByDriver := true })

def closePciIo : Controller σ → Status × Controller σ :=
  bootService p (·.pciIoByDriver) .notFound ({ · with pciIoByDriver := false })

def closeDevicePath : Controller σ → Status × Controller σ :=
  bootService p (·.devicePathByDriver) .notFound ({ · with devicePathByDriver := false })

/-- `OpenProtocol` of `PciIo` for the child, `BY_CHILD_CONTROLLER`. -/
def openChildPciIo (child : Handle) : Controller σ → Status × Controller σ :=
  bootService p (fun _ => true) .success fun c => { c with pciIoByChild := child :: c.pciIoByChild }

def closeChildPciIo (child : Handle) : Controller σ → Status × Controller σ :=
  bootService p (child ∈ ·.pciIoByChild) .notFound fun c =>
    { c with pciIoByChild := c.pciIoByChild.erase child }

def installMarker : Controller σ → Status × Controller σ :=
  bootService p (!·.marker) .invalidParameter ({ · with marker := true })

def uninstallMarker : Controller σ → Status × Controller σ :=
  bootService p (·.marker) .notFound ({ · with marker := false })

/-- `OpenProtocol` of the marker, `GET_PROTOCOL`. -/
def getMarker : Controller σ → Status × Controller σ :=
  bootService p (·.marker) .unsupported id

/-- `OpenProtocol` of a handle's GOP, `GET_PROTOCOL`. -/
def getChildGop (child : Handle) : Controller σ → Status × Controller σ :=
  bootService p (child ∈ ·.children) .unsupported id

/-- `ChildHandle`, or the handle that is made where it is `NULL`. -/
def Controller.childOrNew (c : Controller σ) : Handle :=
  (c.priv.bind (·.childHandle)).getD c.nextHandle

/-- `InstallMultipleProtocolInterfaces` of the child protocols. -/
def installChild : Controller σ → Status × Controller σ :=
  bootService p (fun c => c.childOrNew ∉ c.children) .alreadyStarted fun c =>
    let child := c.childOrNew
    let c := { c with children := child :: c.children, nextHandle := max c.nextHandle (child + 1) }
    c.setPriv ({ · with childHandle := some child })

def uninstallChild (child : Handle) : Controller σ → Status × Controller σ :=
  bootService p (child ∈ ·.children) .notFound fun c =>
    { c with children := c.children.erase child }

/-- The marker's private structure, when the checks on it pass; freed memory has no
signature. -/
def managedPrivate (c : Controller σ) : Option DriverPrivate × Controller σ :=
  let (status, c) := getMarker p c
  if status.isError then (none, c)
  else
    (c.priv.filter fun q =>
      q.signature = privateSignature && q.controllerHandle = p.controllerHandle, c)

/-! ## The private structure -/

def freeChildResources : Controller σ → Controller σ :=
  Controller.setPriv ({ · with
    devicePath := false, childHandle := none, childPciIoOpened := false, hardware := .zero })

def freePrivate (c : Controller σ) : Controller σ :=
  { freeChildResources c with priv := none }

/-- The structure after `AllocateZeroPool` and the assignments that follow it. -/
def DriverPrivate.new (controllerHandle : Handle) : DriverPrivate where
  hardware := .zero
  gopMode := ⟨0, 0⟩
  gopInfo := ⟨0, 0, 0⟩
  signature := privateSignature
  controllerHandle := controllerHandle
  childHandle := none
  originalPciAttributes := 0
  originalPciCommand := 0
  pciAttributesSaved := false
  pciCommandSaved := false
  pciMemoryEnabled := false
  childPciIoOpened := false
  devicePath := false

def allocatePrivate : Controller σ → Status × Controller σ :=
  bootService p (fun _ => true) .success fun c =>
    { c with priv := some (.new p.controllerHandle) }

/-! ## PCI state -/

def restoreAttributes (q : DriverPrivate) : Efi σ Unit :=
  if q.pciAttributesSaved then do
    let _ ← Efi.get (p.pci.attributes .set q.originalPciAttributes)
    return ()
  else return ()

def restoreCommand (q : DriverPrivate) : Efi σ Unit :=
  if q.pciCommandSaved then do
    Efi.call (p.pci.pciWrite16 pciCommandOffset q.originalPciCommand)
    let command ← Efi.get (p.pci.pciRead16 pciCommandOffset)
    if command ≠ q.originalPciCommand then throw .deviceError else return ()
  else return ()

def restorePciAttributes (c : Controller σ) : Status × Controller σ :=
  match c.priv with
  | none => (.success, c)
  | some q =>
    if !q.pciAttributesSaved && !q.pciCommandSaved then (.success, c)
    else
      match onDevice (do restoreAttributes p q; restoreCommand p q) c with
      | (.error status, c) => (status, c)
      | (.ok _, c) =>
        (.success, { c with
          priv := some { q with
            pciAttributesSaved := false, pciCommandSaved := false, pciMemoryEnabled := false }
          restores := c.restores ++ [(c.entry, p.command c.dev)] })

def memoryDecoded (command : BitVec 16) : Efi σ Unit :=
  if command &&& pciCommandMemorySpace ≠ 0 then return () else throw .deviceError

def enablePciMemoryDecode : Efi σ Unit := do
  let _ ← Efi.get (p.pci.attributes .enable attributeMemory)
  let command ← Efi.get (p.pci.pciRead16 pciCommandOffset)
  if command &&& pciCommandMemorySpace = 0 then do
    Efi.call (p.pci.pciWrite16 pciCommandOffset (command ||| pciCommandMemorySpace))
    let command ← Efi.get (p.pci.pciRead16 pciCommandOffset)
    memoryDecoded command
  else memoryDecoded command

/-- The Command word and the attributes that a start is about to save. -/
def readPciState : Efi σ (BitVec 16 × BitVec 64) := do
  let command ← Efi.get (p.pci.pciRead16 pciCommandOffset)
  let attributes ← Efi.get (p.pci.attributes .get 0)
  return (command, attributes)

/-- The raw Command bits are the authority over the attributes. -/
def reconcileAttributes (command : BitVec 16) (attributes : BitVec 64) : BitVec 64 :=
  attributes &&& ~~~(attributeIo ||| attributeMemory ||| attributeBusMaster) |||
    (if command &&& pciCommandIoSpace ≠ 0 then attributeIo else 0) |||
    (if command &&& pciCommandMemorySpace ≠ 0 then attributeMemory else 0) |||
    (if command &&& pciCommandBusMaster ≠ 0 then attributeBusMaster else 0)

/-- A word is saved. -/
def Controller.commandSaved (c : Controller σ) : Bool := c.priv.any (·.pciCommandSaved)

def savePciState (command : BitVec 16) (attributes : BitVec 64) (c : Controller σ) :
    Controller σ :=
  let c := { c with entry := if c.commandSaved then c.entry else some (p.command c.dev) }
  c.setPriv ({ · with
    originalPciCommand := command
    originalPciAttributes := reconcileAttributes command attributes
    pciAttributesSaved := true
    pciCommandSaved := true })

/-! ## `SimpleDisplayDriverSupported` -/

def driverSupported (remaining : RemainingDevicePath) (c : Controller σ) : Status × Controller σ :=
  if remaining = .other then (.unsupported, c)
  else
    let (status, c) := openPciIo p c
    if status = .alreadyStarted then
      match managedPrivate p c with
      | (none, c) => (.alreadyStarted, c)
      | (some q, c) =>
        (if q.childHandle = none ∧ remaining ≠ .endNode then .success else .alreadyStarted, c)
    else if status.isError then (status, c)
    else
      let (result, c) := onDevice (hwMatchPci p.pci) c
      let (_, c) := closePciIo p c
      (match result with | .ok _ => .success | .error status => status, c)

/-! ## `SimpleDisplayDriverStart` -/

/-- Labels `CloseDevicePath` and `ClosePciIo`. -/
def closeParent (c : Controller σ) : Controller σ :=
  (closePciIo p (closeDevicePath p c).2).2

/-- A start of a controller that the driver manages: it goes on with the child. -/
def startManaged (remaining : RemainingDevicePath) (c : Controller σ) :
    Except Status Unit × Controller σ :=
  match managedPrivate p c with
  | (none, c) => (.error .alreadyStarted, c)
  | (some q, c) =>
    if remaining = .endNode ∨ q.childHandle ≠ none then (.error .alreadyStarted, c)
    else (.ok (), c)

/-- A start of a controller whose `PciIo` has just been opened: the parent's private
structure and its marker. -/
def startUnmanaged (c : Controller σ) : Except Status Unit × Controller σ :=
  let (status, c) := openDevicePath p c
  if status.isError then (.error status, (closePciIo p c).2)
  else
    match onDevice (hwMatchPci p.pci) c with
    | (.error status, c) => (.error status, closeParent p c)
    | (.ok _, c) =>
      let (status, c) := allocatePrivate p c
      if status.isError then (.error .outOfResources, closeParent p c)
      else
        let (status, c) := installMarker p c
        if status.isError then (.error status, closeParent p (freePrivate c))
        else (.ok (), c)

/-- The start up to the end-node check, with `BoundJustNow`. -/
def startParent (remaining : RemainingDevicePath) (c : Controller σ) :
    Except Status Bool × Controller σ :=
  let (status, c) := openPciIo p c
  if status = .alreadyStarted then
    let (result, c) := startManaged p remaining c
    (result.map fun _ => false, c)
  else if status.isError then (.error status, c)
  else
    let (result, c) := startUnmanaged p c
    (result.map fun _ => true, c)

/-- `SimpleDisplayHwInitializeContext` of `Private->Hardware`. -/
def initializeHardware : Efi (Controller σ) Unit := fun c =>
  match onDevice (hwInitializeContext p.pci) c with
  | (.error status, c) => (.error status, c.setPriv ({ · with hardware := .zero }))
  | (.ok context, c) => (.ok (), c.setPriv ({ · with hardware := context }))

def appendDevicePath (c : Controller σ) : Status × Controller σ :=
  let (status, c) := bootService p (fun _ => true) .success
    (Controller.setPriv ({ · with devicePath := true })) c
  (if status.isError then .outOfResources else .success, c)

/-- No mode is selected. -/
def publishGop : Controller σ → Controller σ :=
  Controller.setPriv ({ · with gopInfo := makeModeInfo 0, gopMode := ⟨gopModeCount, maxUint32⟩ })

/-- A multi-protocol install that fails leaves no child handle. -/
def installChildProtocols (c : Controller σ) : Status × Controller σ :=
  let (status, c) := installChild p c
  (status, if status.isError then c.setPriv ({ · with childHandle := none }) else c)

/-- The start of the child up to its protocols; where it fails it goes to
`ChildStartFailed`. -/
def startChildProtocols : Efi (Controller σ) Unit := do
  let state ← onDevice (readPciState p)
  Efi.update (savePciState p state.1 state.2)
  onDevice (enablePciMemoryDecode p)
  Efi.update (Controller.setPriv ({ · with pciMemoryEnabled := true }))
  initializeHardware p
  Efi.call (appendDevicePath p)
  Efi.update publishGop
  Efi.call (installChildProtocols p)

/-- Label `ChildStartFailed`. -/
def childStartFailed (boundJustNow : Bool) (status : Status) (c : Controller σ) :
    Status × Controller σ :=
  let (cleanup, c) := restorePciAttributes p c
  let c := freeChildResources c
  if cleanup.isError then (cleanup, c)
  else if !boundJustNow then (status, c)
  else
    let (uninstalled, c) := uninstallMarker p c
    if uninstalled.isError then (uninstalled, c)
    else (status, closeParent p (freePrivate c))

/-- The `BY_CHILD_CONTROLLER` open, or the child is taken back. -/
def startChildPciIo (boundJustNow : Bool) (c : Controller σ) : Status × Controller σ :=
  let child := (c.priv.bind (·.childHandle)).getD 0
  let (status, c) := openChildPciIo p child c
  if !status.isError then (.success, c.setPriv ({ · with childPciIoOpened := true }))
  else
    let (cleanup, c) := uninstallChild p child c
    if cleanup.isError then (cleanup, c)
    else childStartFailed p boundJustNow status (c.setPriv ({ · with childHandle := none }))

def startChild (boundJustNow : Bool) (c : Controller σ) : Status × Controller σ :=
  match startChildProtocols p c with
  | (.error status, c) => childStartFailed p boundJustNow status c
  | (.ok _, c) => startChildPciIo p boundJustNow c

def driverStart (remaining : RemainingDevicePath) (c : Controller σ) : Status × Controller σ :=
  match startParent p remaining c with
  | (.error status, c) => (status, c)
  | (.ok boundJustNow, c) =>
    if remaining = .endNode then (.success, c) else startChild p boundJustNow c

/-! ## `SimpleDisplayDriverStop` -/

def stopParent (q : DriverPrivate) (c : Controller σ) : Status × Controller σ :=
  if q.childHandle ≠ none then (.deviceError, c)
  else
    let (status, c) := restorePciAttributes p c
    if status.isError then (status, c)
    else
      let (status, c) := uninstallMarker p c
      if status.isError then (status, c)
      else
        let (devicePathStatus, c) := closeDevicePath p c
        let (pciIoStatus, c) := closePciIo p c
        (if devicePathStatus.isError then devicePathStatus else pciIoStatus, freePrivate c)

/-- `OpenProtocol` of the child's GOP, with the private structure around it. -/
def childPrivate (child : Handle) (c : Controller σ) :
    Except Status (Option DriverPrivate) × Controller σ :=
  let (status, c) := getChildGop p child c
  (status.andReturn c.priv, c)

def closeChild (child : Handle) (c : Controller σ) : Status × Controller σ :=
  let (status, c) := closeChildPciIo p child c
  (status, if status.isError then c else c.setPriv ({ · with childPciIoOpened := false }))

def removeChild (child : Handle) (c : Controller σ) : Status × Controller σ :=
  let (status, c) := uninstallChild p child c
  if status.isError then
    let (reopened, c) := openChildPciIo p child c
    (status, c.setPriv ({ · with childPciIoOpened := !reopened.isError }))
  else restorePciAttributes p (freeChildResources c)

def stopChild (child : Handle) (c : Controller σ) : Status × Controller σ :=
  match childPrivate p child c with
  | (.error status, c) => (status, c)
  | (.ok none, c) => (.invalidParameter, c)
  | (.ok (some q), c) =>
    if q.controllerHandle ≠ p.controllerHandle ∨ q.childHandle ≠ some child then
      (.invalidParameter, c)
    else if q.childPciIoOpened then
      let (status, c) := closeChild p child c
      if status.isError then (status, c) else removeChild p child c
    else removeChild p child c

/-- `ChildHandleBuffer` is given by its first handle. -/
def driverStop (numberOfChildren : Nat) (childHandleBuffer : Option Handle) (c : Controller σ) :
    Status × Controller σ :=
  match managedPrivate p c with
  | (none, c) => (.deviceError, c)
  | (some q, c) =>
    if numberOfChildren = 0 then stopParent p q c
    else
      match childHandleBuffer with
      | none => (.invalidParameter, c)
      | some child => if numberOfChildren ≠ 1 then (.invalidParameter, c) else stopChild p child c

/-! ## Runs -/

inductive Call
  | supported (remaining : RemainingDevicePath)
  | start (remaining : RemainingDevicePath)
  | stop (numberOfChildren : Nat) (childHandleBuffer : Option Handle)
deriving DecidableEq

def call : Call → Controller σ → Status × Controller σ
  | .supported remaining => driverSupported p remaining
  | .start remaining => driverStart p remaining
  | .stop numberOfChildren childHandleBuffer => driverStop p numberOfChildren childHandleBuffer

def bindingStep (a : Call) (c : Controller σ) : Option (Controller σ) := some (call p a c).2

end

end SimpleDisplay
