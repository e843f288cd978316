import SimpleDisplay.Xdma.Lines
import SimpleDisplay.Lib.Word

/-!
# Submitting a frame

`xdma_xfer_submit_lines_nowait` with everything that it takes on its way: the mapping of the
scatter list, the request, the two locks and the descriptors.  A state records what was
taken and given back, in order.  The cleanup labels of the source are functions.
-/

namespace FpgaDrm.Xdma

open Word Slots

def magicEngine : Nat := 0xEEEEEEEE
def engineShutdownNone : Nat := 0
def engineShutdownRequest : Nat := 1

def ctrlRunStop : Nat := 1 <<< 0
def ctrlIeDescStopped : Nat := 1 <<< 1
def ctrlIeDescCompleted : Nat := 1 <<< 2
def ctrlIeDescAlignMismatch : Nat := 1 <<< 3
def ctrlIeMagicStopped : Nat := 1 <<< 4
def ctrlIeIdleStopped : Nat := 1 <<< 6
def ctrlIeReadError : Nat := 0x1F <<< 9
def ctrlIeDescError : Nat := 0x1F <<< 19
def ctrlNonIncrAddr : Nat := 1 <<< 25
def ctrlPollModeWb : Nat := 1 <<< 26

/-- `enum dma_data_direction`. -/
inductive Direction
  | toDevice
  | fromDevice
  deriving DecidableEq

inductive TransferState
  | new
  | submitted
  deriving DecidableEq

/-- `struct xdma_transfer` with the fields that queueing it adds. -/
structure QueuedTransfer extends Transfer where
  dir : Direction
  state : TransferState

/-- `struct xdma_request_cb`; its transfer is the one that the engine gets. -/
structure Request where
  epAddr : Nat
  totalLen : Nat
  swDescCnt : Nat

/-- The registers of an engine that `engine_start` writes. -/
structure EngineRegs where
  credits : Int
  firstDescLo : Nat
  firstDescHi : Nat
  firstDescAdjacent : Nat
  interruptEnableMask : Nat
  control : Nat

/-- `struct xdma_engine`. -/
structure DmaEngine where
  magic : Nat
  dir : Direction
  streaming : Bool
  running : Bool
  nonIncrAddr : Bool
  shutdown : Nat
  descDequeued : Int
  descMax : Nat
  status : Nat
  transferList : List QueuedTransfer
  cyclicResultBus : Nat
  prevCpu : Nat
  descBus : Nat
  desc : Nat → Desc
  descIdx : Nat
  descUsed : Int
  xdmaPerf : Bool
  cmplthp : Bool
  regs : EngineRegs

/-- `struct sg_table`, the entries as the mapping leaves them. -/
structure SgTable where
  sgl : List SgEntry
  origNents : Nat
  nents : Nat

/-- The entries that `for_each_sg` visits. -/
def SgTable.entries (sgt : SgTable) : List SgEntry := sgt.sgl.take sgt.nents

inductive LockName
  | descLock
  | lock
  deriving DecidableEq

/-- What a submission takes and gives back; a mapping is of `orig_nents` entries. -/
inductive Resource
  | mapped (origNents : Nat)
  | allocated
  | freed
  | unmapped (origNents : Nat)
  deriving DecidableEq

structure Sys where
  /-- `engine_h2c[]` for `true`, `engine_c2h[]` for `false` -/
  engines : Bool × Int → DmaEngine
  sgt : SgTable
  /-- `cb->req` -/
  cbReq : Option Request
  held : List LockName
  resources : List Resource
  woken : Nat
  /-- the formats that were printed -/
  log : List String

/-- The device behind `dev_hndl`; `registered` is `xdev_list`, each handle with its `pdev`. -/
structure Device where
  pdev : Option Nat
  registered : List (Nat × Nat)
  h2cChannelMax : Int
  c2hChannelMax : Int

/-- The module parameters, and what the kernel and the hardware answer during one call. -/
structure Kernel where
  descBlenMax : Nat
  pollMode : Bool
  enableStC2hCredit : Bool
  /-- `XDEV_FLAG_OFFLINE` each time it is read -/
  offlineAtEntry : Bool
  offlineAtQueue : Bool
  /-- the entries of `dma_map_sg`, none when it fails -/
  dmaMapSg : List SgEntry
  kzalloc : Bool
  vmalloc : Bool
  cpu : Nat
  status : Nat

/-- The arguments, `cbHndl` and `sgt` for whether the pointer is not `NULL`. -/
structure Submission where
  cbHndl : Bool
  devHndl : Option Nat
  channel : Int
  write : Bool
  epAddr : Nat
  sgt : Bool
  dmaMapped : Bool
  lineSize : Nat
  lineCount : Nat

namespace Sys

def print (s : Sys) (format : String) : Sys := { s with log := s.log ++ [format] }

def acquire (s : Sys) (l : LockName) : Sys := { s with held := l :: s.held }

def release (s : Sys) (l : LockName) : Sys := { s with held := s.held.erase l }

def record (s : Sys) (r : Resource) : Sys := { s with resources := s.resources ++ [r] }

def setEngine (s : Sys) (key : Bool × Int) (e : DmaEngine) : Sys :=
  { s with engines := Function.update s.engines key e }

end Sys

/-- The engine that `write` and `channel` select. -/
def Submission.key (a : Submission) : Bool × Int := (a.write, a.channel)

def Submission.dir (a : Submission) : Direction := if a.write then .toDevice else .fromDevice

/-! ## Functions it calls -/

def debugCheckDevHndl (dev : Device) (hndl : Nat) (s : Sys) : Int × Sys :=
  match dev.pdev with
  | none => (-EINVAL, s)
  | some pdev =>
    match dev.registered.find? fun x => x.2 = pdev with
    | none => (-EINVAL, s.print "%s pdev 0x%p, hndl 0x%p, NO match found!\n")
    | some xdev =>
      if xdev.1 ≠ hndl then (-EINVAL, s.print "%s pdev 0x%p, hndl 0x%p != 0x%p!\n") else (0, s)

/-- `xdma_request_alloc(0)`. -/
def requestAlloc (kernel : Kernel) (s : Sys) : Option Request × Sys :=
  if kernel.kzalloc ∨ kernel.vmalloc then (some ⟨0, 0, 0⟩, s.record .allocated)
  else (none, s.print "OOM, %u sw_desc, %u.\n")

/-- `xdma_desc_done`. -/
def descDone (base count : Nat) (desc : Nat → Desc) : Nat → Desc :=
  forSlots base count (fun _ _ => ⟨0, 0, 0, 0, 0, 0, 0, 0⟩) desc

def startModeConfig (kernel : Kernel) (e : DmaEngine) : DmaEngine :=
  let perf := ctrlIeDescStopped ||| ctrlIeDescCompleted ||| ctrlIeDescAlignMismatch |||
    ctrlIeMagicStopped ||| ctrlIeIdleStopped ||| ctrlIeReadError ||| ctrlIeDescError
  let w := ctrlRunStop ||| ctrlIeReadError ||| ctrlIeDescError ||| ctrlIeDescAlignMismatch |||
    ctrlIeMagicStopped
  let w := if kernel.pollMode then w ||| ctrlPollModeWb
    else w ||| ctrlIeDescStopped ||| ctrlIeDescCompleted
  let w := if e.nonIncrAddr then w ||| ctrlNonIncrAddr else w
  { e with regs := { e.regs with
      interruptEnableMask := if e.xdmaPerf then perf else e.regs.interruptEnableMask
      control := w } }

/-- `engine_start`; `none` is `NULL`. -/
def engineStart (kernel : Kernel) (key : Bool × Int) (s : Sys) : Option QueuedTransfer × Sys :=
  let e := s.engines key
  if e.running then (none, s.print "%s engine is not in idle state to start\n")
  else
    match e.transferList with
    | [] => (none, s.print "%s engine transfer queue must not be empty\n")
    | transfer :: _ =>
      let e := { e with
        shutdown := engineShutdownNone
        descDequeued := 0
        regs := { e.regs with
          credits := if kernel.enableStC2hCredit ∧ e.streaming ∧ e.dir = .fromDevice then e.descUsed
            else e.regs.credits
          firstDescLo := pciDmaL transfer.descBus
          firstDescHi := pciDmaH transfer.descBus
          firstDescAdjacent := getNextAdj transfer.descAdjacent (pciDmaL transfer.descBus) } }
      let e := startModeConfig kernel e
      (some transfer, s.setEngine key { e with status := kernel.status, running := true })

def transferQueue (kernel : Kernel) (key : Bool × Int) (transfer : QueuedTransfer) (s : Sys) :
    Int × Sys :=
  if transfer.descNum = 0 then
    (-EINVAL, s.print "%s void descriptors in the transfer list\n")
  else if kernel.offlineAtQueue then
    (-EBUSY, s.print "dev 0x%p offline, transfer 0x%p not queued.\n")
  else
    let s := s.acquire .lock
    let e := { s.engines key with prevCpu := kernel.cpu }
    let s := s.setEngine key e
    if e.shutdown &&& engineShutdownRequest ≠ 0 then
      (-EBUSY, (s.print "engine %s offline, transfer 0x%p not queued.\n").release .lock)
    else
      let s := s.setEngine key
        { e with transferList := e.transferList ++ [{ transfer with state := .submitted }] }
      if !e.running then
        match engineStart kernel key s with
        | (none, s) => (0, (s.print "Failed to start dma engine\n").release .lock)
        | (some _, s) => (0, s.release .lock)
      else (0, s.release .lock)

/-! ## The loops over the scatter list -/

/-- The body of the loop, with what it has written when `xdma_desc_control_set` refuses. -/
def writeDesc (b : Build) (addr len : Nat) (s : BuildState) : Except Int Unit × BuildState :=
  match fillDesc b addr len s with
  | .ok s => (.ok (), s)
  | .error rv =>
    let slot := b.descIndex + s.descUsed
    let lineRemaining := s.lineRemaining - len
    (.error rv, {
      desc := set s.desc slot (descSet (s.desc slot) addr b.epAddr len)
      len := u32 (s.len + len : Nat)
      lineRemaining := if lineRemaining = 0 then b.lineSize else lineRemaining
      linesDone := if lineRemaining = 0 then s.linesDone + 1 else s.linesDone
      descUsed := s.descUsed })

/-- `while (sg_remaining)`; `none` when the loop does not end. -/
def writeEntry (b : Build) (addr sgRemaining : Nat) (s : BuildState) :
    Option (Except Int Unit × BuildState) :=
  if sgRemaining = 0 then some (.ok (), s)
  else
    let len := min (min sgRemaining s.lineRemaining) b.blenMax
    if _h : len = 0 then none
    else
      match writeDesc b addr len s with
      | (.error rv, s) => some (.error rv, s)
      | (.ok _, s) => writeEntry b (u64 (addr + len)) (sgRemaining - len) s
termination_by sgRemaining
decreasing_by omega

/-- `for_each_sg`. -/
def writeEntries (b : Build) : List SgEntry → BuildState → Option (Except Int Unit × BuildState)
  | [], s => some (.ok (), s)
  | e :: es, s =>
    match writeEntry b e.addr e.len s with
    | some (.ok _, s) => writeEntries b es s
    | r => r

/-! ## `xdma_xfer_submit_lines_nowait` -/

/-- The label `unmap_sgl`. -/
def unmapSgl (a : Submission) (rv : Int) (s : Sys) : Int × Sys :=
  if !a.dmaMapped ∧ s.sgt.nents ≠ 0 then
    (rv, { s.record (.unmapped s.sgt.origNents) with sgt := { s.sgt with nents := 0 } })
  else (rv, s)

/-- The label `unlock_desc`; the request was allocated on every way here. -/
def unlockDesc (a : Submission) (rv : Int) (s : Sys) : Int × Sys :=
  unmapSgl a rv ({ s.release .descLock with cbReq := none }.record .freed)

/-- What is known of the ring when a transfer is built. -/
def Submission.build (a : Submission) (kernel : Kernel) (descIdx descCount : Nat) : Build :=
  ⟨kernel.descBlenMax, a.lineSize, a.epAddr, descIdx, descCount⟩

/-- The place of the next transfer in the ring. -/
def DmaEngine.nextIdx (e : DmaEngine) (descCount : Nat) : Nat :=
  if e.descIdx + descCount > e.descMax then 0 else e.descIdx

def DmaEngine.busy (e : DmaEngine) : Bool :=
  e.descUsed ≠ 0 || e.running || !e.transferList.isEmpty

/-- The transfer before its descriptors are written. -/
def DmaEngine.newTransfer (a : Submission) (e : DmaEngine) (descCount : Nat) : QueuedTransfer where
  descIndex := e.nextIdx descCount
  descBus := u64 (e.descBus + descSize * e.nextIdx descCount)
  resBus := u64 (e.cyclicResultBus + 32 * e.nextIdx descCount)
  descAdjacent := descCount
  descNum := descCount
  descCmplTh := descCount
  lastInRequest := true
  needUnmap := !a.dmaMapped
  len := 0
  dir := e.dir
  state := .new

/-- The descriptors after `transfer_desc_init`. -/
def DmaEngine.linkedRing (e : DmaEngine) (descCount : Nat) : Nat → Desc :=
  transferDescInit (u64 (e.descBus + descSize * e.nextIdx descCount)) (e.nextIdx descCount)
    descCount e.desc

/-- From the built transfer to the end. -/
def queueLines (kernel : Kernel) (a : Submission) (descCount : Nat) (transfer : QueuedTransfer)
    (s : Sys) : Int × Sys :=
  match transferQueue kernel a.key transfer s with
  | (rv, s) =>
    if rv < 0 then
      let s := s.acquire .lock
      let e := s.engines a.key
      let s := s.setEngine a.key { e with
        descUsed := e.descUsed - descCount
        desc := descDone transfer.descIndex descCount e.desc }
      unlockDesc a rv (s.release .lock)
    else
      let s := if (s.engines a.key).cmplthp then { s with woken := s.woken + 1 } else s
      (-EIOCBQUEUED, s.release .descLock)

/-- From the allocated request on; `none` when the loop over the entries does not end. -/
def submitRequest (kernel : Kernel) (a : Submission) (descCount : Nat) (s : Sys) :
    Option (Int × Sys) :=
  let s := (s.acquire .descLock).acquire .lock
  let e := s.engines a.key
  if e.busy then some (unlockDesc a (-EBUSY) (s.release .lock))
  else
    let descIdx := e.nextIdx descCount
    let b := a.build kernel descIdx descCount
    match writeEntries b s.sgt.entries ⟨e.linkedRing descCount, 0, a.lineSize, 0, 0⟩ with
    | none => none
    | some (.error rv, t) =>
      let s := s.setEngine a.key { e with desc := t.desc, descIdx := descIdx }
      some (unlockDesc a rv (s.release .lock))
    | some (.ok _, t) =>
      let s := s.setEngine a.key { e with
        desc := setAdjacent descIdx descCount t.desc
        descIdx := (descIdx + descCount) % e.descMax
        descUsed := e.descUsed + descCount }
      let transfer := { e.newTransfer a descCount with len := t.len }
      some (queueLines kernel a descCount transfer (s.release .lock))

/-- From the mapped scatter list on. -/
def submitMapped (kernel : Kernel) (a : Submission) (s : Sys) : Option (Int × Sys) :=
  match countLineDescriptors kernel.descBlenMax s.sgt.entries a.lineSize a.lineCount with
  | .error rv => some (unmapSgl a rv s)
  | .ok count =>
    let descCount := u32 count
    if descCount > (s.engines a.key).descMax then
      some (unmapSgl a (-EINVAL) (s.print "%s needs %u descriptors, max %u.\n"))
    else
      match requestAlloc kernel s with
      | (none, s) => some (unmapSgl a (-ENOMEM) s)
      | (some req, s) =>
        let req := { req with
          epAddr := a.epAddr
          totalLen := u32 (a.lineSize * a.lineCount : Nat)
          swDescCnt := descCount }
        submitRequest kernel a descCount { s with cbReq := some req }

/-- From the found engine on. -/
def submitEngine (kernel : Kernel) (a : Submission) (s : Sys) : Option (Int × Sys) :=
  let e := s.engines a.key
  if e.magic ≠ magicEngine then
    some (-EINVAL, s.print "%s has invalid magic number %lx\n")
  else if kernel.offlineAtEntry then some (-EBUSY, s.print "xdev 0x%p, offline.\n")
  else if e.dir ≠ a.dir then
    some (-EINVAL, s.print "0x%p, %s, %d, W %d, 0x%x/0x%x mismatch.\n")
  else if !a.write ∨ !e.streaming then
    some (-EINVAL, s.print "%s line-packetized nowait only supports H2C streaming.\n")
  else if !a.dmaMapped then
    match kernel.dmaMapSg with
    | [] => some (- EIO, s.print "map sgl failed, sgt 0x%p.\n")
    | entries =>
      submitMapped kernel a { s.record (.mapped s.sgt.origNents) with
        sgt := { s.sgt with sgl := entries, nents := entries.length } }
  else if s.sgt.nents = 0 then
    some (- EIO, s.print "sg table has invalid number of entries 0x%p.\n")
  else submitMapped kernel a s

def submitLines (dev : Device) (kernel : Kernel) (a : Submission) (s : Sys) : Option (Int × Sys) :=
  if !a.cbHndl ∨ !a.sgt ∨ a.lineSize = 0 ∨ a.lineCount = 0 then some (-EINVAL, s)
  else
    match a.devHndl with
    | none => some (-EINVAL, s)
    | some hndl =>
      match debugCheckDevHndl dev hndl s with
      | (ret, s) =>
        if ret < 0 then some (-EINVAL, s)
        else if a.write ∧ a.channel ≥ dev.h2cChannelMax then
          some (-EINVAL, s.print "H2C channel %d >= %d.\n")
        else if !a.write ∧ a.channel ≥ dev.c2hChannelMax then
          some (-EINVAL, s.print "C2H channel %d >= %d.\n")
        else submitEngine kernel a s

/-! ## `fpga_drm_submit_frame_nowait` -/

def timeoutMs : Nat := 1000

/-- The fields of `struct fpga_drm_device` about the upload, with `frame_cb.req` and
`active_frame_sgt` in `xdma`. -/
structure FrameUpload where
  activeMode : Option VideoMode
  xdma : Sys
  dmaInflight : Bool
  dmaCompletionPending : Bool
  dmaCompletionErr : Int
  uploadPending : Bool
  idleWakes : Nat
  /-- the delay of `dma_timeout_work` -/
  timeout : Option Nat

/-- The mode that is uploaded. -/
def FrameUpload.mode (fpga : FrameUpload) : VideoMode := fpga.activeMode.getD preferredMode

def prepareActiveSgt (mode : VideoMode) (s : Sys) : Sys :=
  { s with sgt := { s.sgt with origNents := mode.drm.vdisplay, nents := 0 } }

/-- Up to the call of `xdma_xfer_submit_lines_nowait`. -/
def FrameUpload.start (fpga : FrameUpload) : FrameUpload :=
  { fpga with
    xdma := { prepareActiveSgt fpga.mode fpga.xdma with cbReq := none }
    dmaInflight := true
    dmaCompletionPending := false
    dmaCompletionErr := 0
    uploadPending := false }

def FrameUpload.submission (fpga : FrameUpload) (xdmaHndl : Option Nat)
    (h2cChannel streamEpAddr : Nat) : Submission where
  cbHndl := true
  devHndl := xdmaHndl
  channel := s32 h2cChannel
  write := true
  epAddr := streamEpAddr
  sgt := true
  dmaMapped := false
  lineSize := fpga.mode.lineBytes
  lineCount := fpga.mode.drm.vdisplay

def submitFrameNowait (dev : Device) (kernel : Kernel) (xdmaHndl : Option Nat)
    (h2cChannel streamEpAddr : Nat) (fpga : FrameUpload) : Option (Int × FrameUpload) :=
  let a := fpga.submission xdmaHndl h2cChannel streamEpAddr
  let fpga := fpga.start
  match submitLines dev kernel a fpga.xdma with
  | none => none
  | some (ret, xdma) =>
    let fpga := { fpga with xdma := xdma }
    if ret ≠ -EIOCBQUEUED then
      some (if ret < 0 then ret else - EIO, { fpga with
        dmaInflight := false
        dmaCompletionPending := false
        dmaCompletionErr := 0
        idleWakes := fpga.idleWakes + 1 })
    else some (0, { fpga with timeout := some timeoutMs })

end FpgaDrm.Xdma
