import SimpleDisplay.Lib.Run
import SimpleDisplay.Xdma.Submit

/-!
# Serving the transfers of an engine

`engine_service` and what runs beside it under `engine->lock`: `transfer_queue`, the
interrupt handler, the ways in which a waiter gives a transfer up.  One step is one lock
section, or one change of the registers on the card.

A call frees its request when it returns, also while `transfer_list` still links one of its
transfers: after it has given up on a transfer that is not the first, or on the first of
several.  That is a step of its own, and a run ends with it, since the driver then reads
freed memory (`step`).

The fields from `queued` on are a record of the run that no step reads, but for the number
that the next transfer gets and the freed requests.
-/

namespace FpgaDrm.Xdma

open Word

def engineShutdownIdle : Nat := 2
def statBusy : Nat := 1 <<< 0
def statDescStopped : Nat := 1 <<< 1
def statDescCompleted : Nat := 1 <<< 2
def statCommonErrMask : Nat := 1 <<< 3 ||| 1 <<< 4 ||| 1 <<< 5
def statDescErrMask : Nat := 1 <<< 19 ||| 1 <<< 20 ||| 1 <<< 21 ||| 1 <<< 22 ||| 1 <<< 23
def statH2cRErrMask : Nat := 1 <<< 9 ||| 1 <<< 10 ||| 1 <<< 11 ||| 1 <<< 12 ||| 1 <<< 13
def statH2cWErrMask : Nat := 1 <<< 14 ||| 1 <<< 15
def statC2hRErrMask : Nat := 1 <<< 9 ||| 1 <<< 10
def statH2cErrMask : Nat :=
  statCommonErrMask ||| statDescErrMask ||| statH2cRErrMask ||| statH2cWErrMask
def statC2hErrMask : Nat := statCommonErrMask ||| statDescErrMask ||| statC2hRErrMask
def rxStatusEop : Nat := 1
def wbCountMask : Nat := 0x00ffffff
def wbErrMask : Nat := 1 <<< 31
def ERESTARTSYS : Int := 512

/-- The errors that count for an engine. -/
def Direction.errMask : Direction → Nat
  | .toDevice => statH2cErrMask
  | .fromDevice => statC2hErrMask

/-- `enum transfer_state`. -/
inductive XferState
  | new
  | submitted
  | completed
  | failed
  | aborted
  deriving DecidableEq

/-- `struct xdma_transfer`, an element of `tfer` in its request `req`; `res` are the status words
of its result slots. -/
structure Xfer where
  id : Nat
  req : Nat
  descBus : Nat
  descNum : Nat
  descCmpl : Nat
  descCmplTh : Nat
  res : List Nat
  eopRcved : Bool
  cyclic : Bool
  lastInRequest : Bool
  cb : Bool
  len : Nat
  state : XferState
  deriving DecidableEq

/-- What the card did from a start to the end. -/
structure CardRun where
  first : Nat
  count : Nat
  ok : Bool
  deriving DecidableEq

/-- The registers of the engine on the card: `first_desc`, the run bit of `control`,
`completed_desc_count`, and `status` in two parts. -/
structure Card where
  first : Nat
  run : Bool
  count : Nat
  busy : Bool
  latched : Nat
  /-- a record of its past runs -/
  ended : List CardRun
  deriving DecidableEq

namespace Card

def status (c : Card) : Nat := if c.busy then c.latched ||| statBusy else c.latched

/-- A read of `status_rc`. -/
def clear (c : Card) : Card := { c with latched := 0 }

def start (c : Card) (bus : Nat) : Card := { c with first := bus, run := true, count := 0, busy := true }

def stop (c : Card) : Card := { c with run := false }

end Card

/-- `struct xdma_engine`, with its interrupt, its work item and its card. -/
structure Served where
  dir : Direction
  eopFlush : Bool
  running : Bool
  shutdown : Nat
  descDequeued : Int
  status : Nat
  transferList : List Xfer
  irqEnabled : Bool
  workQueued : Bool
  card : Card
  queued : Nat
  /-- the transfers that were taken off the list -/
  left : List Xfer
  woken : List Nat
  /-- the calls of `io_done` -/
  ioDone : List (Nat × Int)
  /-- the requests that were freed -/
  freed : List Nat

namespace Served

/-! ## Starting and stopping -/

/-- `engine_status_read`. -/
def statusRead (s : Served) (clear : Bool) : Served :=
  { s with status := s.card.status, card := if clear then s.card.clear else s.card }

/-- `xdma_engine_stop`. -/
def stop (s : Served) : Served := { s with card := s.card.stop, running := false }

/-- `engine_start` of an engine that is not running. -/
def start (s : Served) : Served :=
  match s.transferList with
  | [] => s
  | x :: _ =>
    let s := { s with shutdown := engineShutdownNone, descDequeued := 0, card := s.card.start x.descBus }
    { s.statusRead false with running := true }

/-- `transfer_queue` while the device is not offline. -/
def transferQueue (x : Xfer) (s : Served) : Int × Served :=
  if x.descNum = 0 then (-EINVAL, s)
  else if s.shutdown &&& engineShutdownRequest ≠ 0 then (-EBUSY, s)
  else
    let s := { s with
      transferList := s.transferList ++ [{ x with id := s.queued, state := .submitted }]
      queued := s.queued + 1 }
    (0, if !s.running then s.start else s)

/-! ## `engine_service` -/

/-- `list_del` of the first transfer, which is now `x`, and `engine_transfer_completion`. -/
def complete (s : Served) (x : Xfer) : Served :=
  { s with
    transferList := s.transferList.tail
    left := s.left ++ [x]
    woken := s.woken ++ [x.id]
    ioDone := if x.cb ∧ x.lastInRequest then s.ioDone ++ [(x.id, 0)] else s.ioDone }

/-- `engine_service_transfer_list`: all but the last, on the list `l` as it is. -/
def serviceTransferList : (l : List Xfer) → (descCompleted : Nat) → Served → Nat × Served
  | [], n, s => (n, s)
  | x :: l, n, s =>
    if !x.cyclic ∧ n > x.descNum then
      serviceTransferList l (n - x.descNum)
        ({ s with descDequeued := s.descDequeued + x.descNum }.complete { x with state := .completed })
    else (n, s)

/-- `engine_service_final_transfer`. -/
def serviceFinalTransfer (descCompleted : Nat) (s : Served) : Served :=
  match s.transferList with
  | [] => s
  | x :: l =>
    if s.status &&& s.dir.errMask ≠ 0 then s.stop.complete { x with state := .failed }
    else if descCompleted < x.descNum then
      if s.eopFlush then
        let x := { x with
          eopRcved := x.eopRcved || (x.res.take descCompleted).any fun r => r &&& rxStatusEop ≠ 0
          descCmpl := x.descCmpl + descCompleted }
        if !x.eopRcved then { s with transferList := x :: l }
        else { s.stop with descDequeued := s.descDequeued + x.descCmpl }.complete
          { x with state := .completed }
      else
        { s with descDequeued := s.descDequeued + x.descNum }.complete
          { x with state := .failed, descCmpl := descCompleted }
    else
      { s with descDequeued := s.descDequeued + x.descNum }.complete
        { x with state := .completed, descCmpl := x.descNum }

/-- `engine_service_resume`. -/
def resume (s : Served) : Served :=
  if !s.running then
    if !s.transferList.isEmpty then s.start
    else if s.shutdown &&& engineShutdownRequest ≠ 0 then
      { s with shutdown := s.shutdown ||| engineShutdownIdle }
    else s
  else if s.transferList.isEmpty then s.stop
  else s

/-- `engine_service` up to the shutdown. -/
def serviceStatus (descCount errFlag : Nat) (s : Served) : Served :=
  let s := if descCount = 0 ∨ errFlag ≠ 0 then s.statusRead true else s
  if s.status &&& statBusy = 0 ∨ (!s.eopFlush ∧ descCount ≠ 0) then s.stop else s

/-- `engine_service` from the descriptor count on. -/
def serviceDescs (descCount : Nat) (s : Served) : Served :=
  if descCount = 0 then s
  else
    let descCount := u32 (descCount - s.descDequeued)
    let (descCount, s) := serviceTransferList s.transferList descCount s
    let s := s.serviceFinalTransfer descCount
    if !s.eopFlush then s.resume else s

def engineService (descWriteback : Nat) (s : Served) : Int × Served :=
  let descCount := descWriteback &&& wbCountMask
  let errFlag := descWriteback &&& wbErrMask
  if !s.running then (0, s.statusRead true)
  else
    let s := s.serviceStatus descCount errFlag
    let descCount := if descCount = 0 then s.card.count else descCount
    (if errFlag ≠ 0 then -1 else 0, s.serviceDescs descCount)

/-- `engine_service_work`. -/
def serviceWork (s : Served) : Served :=
  let (rv, s) := s.engineService 0
  if rv < 0 then s else { s with irqEnabled := true }

/-! ## Giving up -/

/-- The transfer with a number, while it is on the list. -/
def find (s : Served) (id : Nat) : Option Xfer := s.transferList.find? (·.id = id)

/-- `transfer_abort` of a transfer that is on the list. -/
def transferAbort (x : Xfer) (s : Served) : Served :=
  let abort := fun x : Xfer => if x.state = .submitted then { x with state := .aborted } else x
  match s.transferList with
  | [] => s
  | head :: l =>
    if head.id = x.id then { s with transferList := l, left := s.left ++ [abort head] }
    else { s with transferList := head :: l.map fun y => if y.id = x.id then abort y else y }

/-- What `xdma_xfer_submit` does when its wait ends and the transfer is still `SUBMITTED`;
`true` for a transfer that counts as done. -/
def waitOver (x : Xfer) (dumped : Bool) (s : Served) : Except Int Bool × Served :=
  let (rv, s) := s.engineService x.descCmplTh
  let giveUp := fun s : Served =>
    if dumped then (.error (-ERESTARTSYS), ((s.statusRead false).transferAbort x).stop)
    else (.error (-ERESTARTSYS), s)
  if rv < 0 then giveUp s
  else
    match s.left.find? (·.id = x.id) with
    | some y =>
      if y.state = .completed then (.ok true, s)
      else if y.state = .failed then (.error (- EIO), s)
      else giveUp s
    | none => giveUp s

/-- What `xdma_xfer_completion` does with a transfer that is still `SUBMITTED`; it holds no lock,
but is one step here. -/
def completionOver (x : Xfer) (dumped : Bool) (s : Served) : Served :=
  ((if dumped then s.statusRead false else s).transferAbort x).stop

/-! ## Steps -/

/-- Nothing on the list belongs to a freed request. -/
def Live (s : Served) : Prop := ∀ x ∈ s.transferList, x.req ∉ s.freed

instance (s : Served) : Decidable s.Live :=
  inferInstanceAs (Decidable (∀ x ∈ s.transferList, x.req ∉ s.freed))

inductive Event
  | queue (x : Xfer)
  /-- the registers change on the card -/
  | card (c : Card)
  | isr
  | work
  | poll (descWb : Nat)
  | waitOver (id : Nat) (dumped : Bool)
  | completionOver (id : Nat) (dumped : Bool)
  /-- `xdma_request_free`, at the end of the call -/
  | requestFree (req : Nat)
  | offline

/-- A step of an engine whose list is live. -/
def move : Event → Served → Option Served
  | .queue x, s => if x.req ∈ s.freed then none else some (s.transferQueue x).2
  | .card c, s => some { s with card := c }
  | .isr, s => if s.irqEnabled then some { s with irqEnabled := false, workQueued := true } else none
  | .work, s => if s.workQueued then some { s with workQueued := false }.serviceWork else none
  | .poll wb, s => if wb = 0 then none else some (s.engineService wb).2
  | .waitOver id dumped, s => (s.find id).map fun x => (s.waitOver x dumped).2
  | .completionOver id dumped, s => (s.find id).map fun x => s.completionOver x dumped
  | .requestFree req, s => some { s with freed := s.freed ++ [req] }
  | .offline, s =>
    some ({ s with shutdown := s.shutdown ||| engineShutdownRequest }).stop

/-- With a freed transfer on its list the driver has no next step. -/
def step (e : Event) (s : Served) : Option Served := if s.Live then move e s else none

/-- An engine after `engine_init`. -/
def init (dir : Direction) (eopFlush : Bool) : Served where
  dir := dir
  eopFlush := eopFlush
  running := false
  shutdown := engineShutdownNone
  descDequeued := 0
  status := 0
  transferList := []
  irqEnabled := true
  workQueued := false
  card := ⟨0, false, 0, false, 0, []⟩
  queued := 0
  left := []
  woken := []
  ioDone := []
  freed := []

end Served

end FpgaDrm.Xdma
