import SimpleDisplay.Lib.Rows
import SimpleDisplay.Xdma.Fetch
import SimpleDisplay.Xdma.Service

/-!
# Requests of any size

`xdma_init_request` cuts a scatter list into pieces of at most `desc_blen_max` bytes.
`transfer_init` makes a transfer of the next pieces, as many as there are slots up to the end
of the ring.  `xdma_xfer_submit` queues one transfer after another and waits for each of them;
`xdma_xfer_submit_nowait` queues them all.
-/

namespace FpgaDrm.Xdma

open Word Slots


/-! ## `xdma_init_request` -/

/-- `struct sw_desc`. -/
structure SwDesc where
  addr : Nat
  len : Nat
  deriving DecidableEq

/-- `struct xdma_request_cb`, with what is written of `sdesc[]`. -/
structure RequestCb where
  epAddr : Nat
  totalLen : Nat
  swDescIdx : Nat
  swDescCnt : Nat
  sdesc : List SwDesc

/-- `while (tlen)`; a `desc_blen_max` of 0 is stopped before. -/
def splitEntry (blenMax addr tlen : Nat) : List SwDesc :=
  if tlen = 0 then []
  else if tlen > blenMax then
    if _h : blenMax = 0 then []
    else ⟨addr, blenMax⟩ :: splitEntry blenMax (u64 (addr + blenMax)) (tlen - blenMax)
  else [⟨addr, tlen⟩]
termination_by tlen
decreasing_by omega

/-- The entries of `sdesc[]` that are asked for. -/
def sdescNr (blenMax : Nat) (es : List SgEntry) : Nat :=
  es.length + (es.map fun e => if e.len > blenMax then u32 (e.len + blenMax - 1 : Int) / blenMax else 0).sum

/-- `xdma_init_request`; `none` is a division by 0. -/
def initRequest (kernel : Kernel) (es : List SgEntry) (epAddr : Nat) (s : Sys) :
    Option (Option RequestCb × Sys) :=
  if kernel.descBlenMax = 0 ∧ es.any (fun e => e.len > 0) then none
  else
    match requestAlloc kernel s with
    | (none, s) => some (none, s)
    | (some _, s) =>
      let sdesc := es.flatMap fun e => splitEntry kernel.descBlenMax e.addr e.len
      if sdesc.length > sdescNr kernel.descBlenMax es then
        some (none, (s.print "Cannot transfer more than supported length %d\n").record .freed)
      else some (some ⟨epAddr, u32 (total es), 0, sdesc.length, sdesc⟩, s)

/-! ## `transfer_init` -/

/-- `xdma_desc_set`. -/
def descSetDir (dir : Direction) (desc : Desc) (rcBusAddr epAddr len : Nat) : Desc :=
  match dir with
  | .toDevice => descSet desc rcBusAddr epAddr len
  | .fromDevice => descSet desc epAddr rcBusAddr len

/-- `xdma_desc_control_set`, its return value ignored. -/
def controlSet (desc : Desc) (controlField : Nat) : Desc :=
  match descControlSet desc controlField with
  | .ok desc => desc
  | .error _ => desc

/-- The card writes a result for each descriptor. -/
def DmaEngine.hasResults (e : DmaEngine) : Bool := e.streaming && e.dir = .fromDevice

def resultSize : Nat := 32

structure SgBuild where
  desc : Nat → Desc
  epAddr : Nat
  len : Nat
  bus : Nat

/-- The body of the loop of `transfer_build`. -/
def buildPiece (e : DmaEngine) (slot : Nat) (d : SwDesc) (s : SgBuild) : SgBuild :=
  let desc := descSetDir e.dir (s.desc slot) d.addr s.epAddr d.len
  { desc := set s.desc slot (if e.hasResults then
      { desc with srcAddrLo := pciDmaL s.bus, srcAddrHi := pciDmaH s.bus } else desc)
    epAddr := if e.nonIncrAddr then s.epAddr else u64 (s.epAddr + d.len)
    len := u32 (s.len + d.len)
    bus := if e.hasResults then u64 (s.bus + resultSize) else s.bus }

def transferBuild (e : DmaEngine) : (slot : Nat) → List SwDesc → SgBuild → SgBuild
  | _, [], s => s
  | slot, d :: ds, s => transferBuild e (slot + 1) ds (buildPiece e slot d s)

/-- How many descriptors the next transfer gets. -/
def DmaEngine.nextNum (e : DmaEngine) (req : RequestCb) : Nat :=
  let descMax := min (req.swDescCnt - req.swDescIdx) e.descMax
  if e.descIdx + descMax ≥ e.descMax then e.descMax - e.descIdx else descMax

/-- `transfer_init`, the fields that the caller sets afterwards among them. -/
def transferInit (eopFlush needUnmap : Bool) (e : DmaEngine) (req : RequestCb) :
    DmaEngine × RequestCb × QueuedTransfer :=
  let n := e.nextNum req
  let descBus := u64 (e.descBus + descSize * e.descIdx)
  let resBus := u64 (e.cyclicResultBus + resultSize * e.descIdx)
  let b := transferBuild e e.descIdx ((req.sdesc.drop req.swDescIdx).take n)
    ⟨transferDescInit descBus e.descIdx n e.desc, req.epAddr, 0, resBus⟩
  let last := e.descIdx + (n - 1)
  let stopped := set b.desc last
    (controlSet (b.desc last) (descStopped ||| descEop ||| descCompleted))
  let flushed := if eopFlush then
    forSlots e.descIdx (n - 1) (fun _ d => controlSet d descCompleted) stopped else stopped
  ({ e with
      desc := setAdjacent e.descIdx n flushed
      descIdx := (e.descIdx + n) % e.descMax
      descUsed := e.descUsed + n },
    { req with swDescIdx := req.swDescIdx + n, epAddr := b.epAddr },
    { descIndex := e.descIdx
      descBus := descBus
      resBus := resBus
      descAdjacent := n
      descNum := n
      descCmplTh := if eopFlush then 1 else n
      lastInRequest := decide (req.swDescIdx + n = req.swDescCnt)
      needUnmap := needUnmap
      len := b.len
      dir := e.dir
      state := .new })

/-- `transfer_destroy`; it unmaps `nents` entries. -/
def transferDestroy (key : Bool × Int) (x : QueuedTransfer) (s : Sys) : Sys :=
  let e := s.engines key
  let s := s.setEngine key { e with desc := descDone x.descIndex x.descNum e.desc }
  if x.lastInRequest && x.needUnmap && s.sgt.nents ≠ 0 then
    { s.record (.unmapped s.sgt.nents) with sgt := { s.sgt with nents := 0 } }
  else s

/-! ## A call -/

/-- The arguments; `eopFlush` is `engine->eop_flush`. -/
structure IoCall where
  devHndl : Option Nat
  channel : Int
  write : Bool
  epAddr : Nat
  dmaMapped : Bool
  eopFlush : Bool

def IoCall.key (a : IoCall) : Bool × Int := (a.write, a.channel)

def IoCall.dir (a : IoCall) : Direction := if a.write then .toDevice else .fromDevice

/-- The mapped scatter list of a call. -/
def IoCall.entries (a : IoCall) (kernel : Kernel) (s : Sys) : List SgEntry :=
  if a.dmaMapped then s.sgt.entries else kernel.dmaMapSg

/-- The state after the mapping. -/
def IoCall.mapped (a : IoCall) (kernel : Kernel) (s : Sys) : Sys :=
  if a.dmaMapped then s
  else { s.record (.mapped s.sgt.origNents) with
    sgt := { s.sgt with sgl := kernel.dmaMapSg, nents := kernel.dmaMapSg.length } }

/-- From the found engine to the mapped scatter list. -/
def IoCall.map (a : IoCall) (kernel : Kernel) (s : Sys) : Except (Int × Sys) Sys :=
  let e := s.engines a.key
  if e.magic ≠ magicEngine then .error (-EINVAL, s.print "%s has invalid magic number %lx\n")
  else if kernel.offlineAtEntry then .error (-EBUSY, s.print "xdev 0x%p, offline.\n")
  else if e.dir ≠ a.dir then
    .error (-EINVAL, s.print "0x%p, %s, %d, W %d, 0x%x/0x%x mismatch.\n")
  else if !a.dmaMapped ∧ kernel.dmaMapSg = [] then
    .error (- EIO, s.print "map sgl failed, sgt 0x%p.\n")
  else if a.dmaMapped ∧ s.sgt.nents = 0 then
    .error (- EIO, s.print "sg table has invalid number of entries 0x%p.\n")
  else .ok (a.mapped kernel s)

/-- What `xdma_xfer_submit` and `xdma_xfer_submit_nowait` do first. -/
def IoCall.begin (a : IoCall) (dev : Device) (kernel : Kernel) (s : Sys) : Except (Int × Sys) Sys :=
  match a.devHndl with
  | none => .error (-EINVAL, s)
  | some hndl =>
    match debugCheckDevHndl dev hndl s with
    | (ret, s) =>
      if ret < 0 then .error (-EINVAL, s)
      else if a.write ∧ a.channel ≥ dev.h2cChannelMax then
        .error (-EINVAL, s.print "H2C channel %d >= %d.\n")
      else if !a.write ∧ a.channel ≥ dev.c2hChannelMax then
        .error (-EINVAL, s.print "C2H channel %d >= %d.\n")
      else a.map kernel s

/-- The label `unmap_sgl`. -/
def unmapCall (a : IoCall) (s : Sys) : Sys :=
  if !a.dmaMapped ∧ s.sgt.nents ≠ 0 then
    { s.record (.unmapped s.sgt.origNents) with sgt := { s.sgt with nents := 0 } }
  else s

/-! ## `xdma_xfer_submit` -/

/-- What a caller finds that has waited for its transfer. -/
inductive Outcome
  /-- `TRANSFER_STATE_COMPLETED`, and the lengths of `desc_cmpl` results -/
  | completed (results : List Nat)
  | failed
  /-- submitted, and completed by `engine_service` -/
  | serviced
  /-- submitted, and failed by `engine_service` -/
  | servicedFailed
  | timedOut

/-- The fields of an engine that its service writes. -/
structure Serviced where
  running : Bool
  shutdown : Nat
  descDequeued : Int
  status : Nat
  transferList : List QueuedTransfer
  regs : EngineRegs

def DmaEngine.serve (e : DmaEngine) (v : Serviced) : DmaEngine :=
  { e with
    running := v.running
    shutdown := v.shutdown
    descDequeued := v.descDequeued
    status := v.status
    transferList := v.transferList
    regs := v.regs }

/-- What a pass of a loop meets: the kernel, and the service of the engine meanwhile. -/
structure Pass where
  kernel : Kernel
  service : DmaEngine → Serviced

/-- A pass that waits for its transfer. -/
structure Turn extends Pass where
  outcome : Outcome

/-- A transfer that was handed to the engine, the engine at that time, and how it ended; `none`
when it was not queued, or when nobody waited for it. -/
structure Sent where
  xfer : QueuedTransfer
  engine : DmaEngine
  outcome : Option Outcome

structure SubmitState where
  sys : Sys
  req : RequestCb
  nents : Nat
  done : Nat
  sent : List Sent

/-- The error of an outcome. -/
def Outcome.rv : Outcome → Int
  | .completed _ | .serviced => 0
  | .failed | .servicedFailed => - EIO
  | .timedOut => -ERESTARTSYS

/-- The bytes that are counted. -/
def Outcome.bytes (o : Outcome) (e : DmaEngine) (x : QueuedTransfer) : Nat :=
  match o with
  | .completed results => if e.hasResults then results.sum else x.len
  | .serviced => x.len
  | _ => 0

/-- It ends the whole request. -/
def Outcome.finishes (o : Outcome) (eopFlush : Bool) (e : DmaEngine) : Bool :=
  match o with
  | .completed _ => e.hasResults && eopFlush
  | _ => false

def Outcome.messages : Outcome → List String
  | .failed => ["xfer 0x%p,%u, failed, ep 0x%llx.\n"]
  | .timedOut => ["xfer 0x%p,%u, s 0x%x timed out, ep 0x%llx.\n"]
  | _ => []

/-- A pass of the loop, and the error it ends with. -/
def submitTurn (a : IoCall) (turn : Turn) (st : SubmitState) : Int × SubmitState :=
  let (e, req, x) := transferInit a.eopFlush (!a.dmaMapped) (st.sys.engines a.key) st.req
  let nents := st.nents - x.descNum
  match transferQueue turn.kernel a.key x (st.sys.setEngine a.key e) with
  | (rv, s) =>
    if rv < 0 then
      (rv, { st with
        sys := s.print "unable to submit %s, %d.\n"
        req := req
        nents := nents
        sent := st.sent ++ [⟨x, e, none⟩] })
    else
      let s := if (s.engines a.key).cmplthp then { s with woken := s.woken + 1 } else s
      let served := (s.engines a.key).serve (turn.service (s.engines a.key))
      let s := s.setEngine a.key { served with descUsed := served.descUsed - x.descNum }
      (turn.outcome.rv, {
        sys := transferDestroy a.key x { s with log := s.log ++ turn.outcome.messages }
        req := req
        nents := if turn.outcome.finishes a.eopFlush e then 0 else nents
        done := st.done + turn.outcome.bytes e x
        sent := st.sent ++ [⟨x, e, some turn.outcome⟩] })

/-- `while (nents)`; `none` when the fuel runs out. -/
def submitTurns (a : IoCall) (turns : Nat → Turn) : (fuel : Nat) → Int → SubmitState →
    Option (Int × SubmitState)
  | 0, rv, st => if st.nents = 0 then some (rv, st) else none
  | fuel + 1, rv, st =>
    if st.nents = 0 then some (rv, st)
    else
      match submitTurn a (turns st.sent.length) st with
      | (rv, st) => if rv < 0 then some (rv, st) else submitTurns a turns fuel rv st

/-- What is returned, with a record of what was sent. -/
structure Submitted where
  ret : Int
  sys : Sys
  sent : List Sent

/-- From the mapped scatter list on; each transfer has a piece at least, so that there are as
many passes as pieces at most. -/
def xferMapped (kernel : Kernel) (a : IoCall) (turns : Nat → Turn) (s : Sys) : Option Submitted :=
  match initRequest kernel s.sgt.entries a.epAddr s with
  | none => none
  | some (none, s) => some ⟨-ENOMEM, unmapCall a s, []⟩
  | some (some req, s) =>
    match submitTurns a turns req.swDescCnt 0 ⟨s.acquire .descLock, req, req.swDescCnt, 0, []⟩ with
    | none => none
    | some (rv, st) =>
      some ⟨if st.done ≠ 0 then st.done else rv,
        (unmapCall a (st.sys.release .descLock)).record .freed, st.sent⟩

/-- `xdma_xfer_submit`. -/
def xferSubmit (dev : Device) (kernel : Kernel) (a : IoCall) (turns : Nat → Turn) (s : Sys) :
    Option Submitted :=
  match a.begin dev kernel s with
  | .error (rv, s) => some ⟨rv, s, []⟩
  | .ok s => xferMapped kernel a turns s

/-! ## The pieces -/

/-- The bus addresses of its bytes. -/
def SwDesc.hostBytes (d : SwDesc) : List Nat := (List.range d.len).map fun i => u64 (d.addr + i)

section

variable {blenMax : Nat}

theorem splitEntry_le {tlen : Nat} (hpos : 0 < tlen) (hle : tlen ≤ blenMax) (addr : Nat) :
    splitEntry blenMax addr tlen = [⟨addr, tlen⟩] := by
  rw [splitEntry, if_neg (by omega), if_neg (by omega)]

theorem splitEntry_gt (hm : 0 < blenMax) {tlen : Nat} (hgt : blenMax < tlen) (addr : Nat) :
    splitEntry blenMax addr tlen =
      ⟨addr, blenMax⟩ :: splitEntry blenMax (u64 (addr + blenMax)) (tlen - blenMax) := by
  rw [splitEntry, if_neg (by omega), if_pos hgt, dif_neg (by omega)]

theorem splitEntry_zero (addr : Nat) : splitEntry blenMax addr 0 = [] := by
  rw [splitEntry, if_pos rfl]

/-- The three ways of an entry. -/
theorem splitEntry_induction (hm : 0 < blenMax) {P : Nat → Nat → List SwDesc → Prop}
    (hzero : ∀ addr, P addr 0 [])
    (hlast : ∀ addr tlen, 0 < tlen → tlen ≤ blenMax → P addr tlen [⟨addr, tlen⟩])
    (hmore : ∀ addr tlen ds, blenMax < tlen → P (u64 (addr + blenMax)) (tlen - blenMax) ds →
      P addr tlen (⟨addr, blenMax⟩ :: ds)) (addr tlen : Nat) :
    P addr tlen (splitEntry blenMax addr tlen) := by
  induction tlen using Nat.strongRecOn generalizing addr with
  | ind tlen ih =>
    rcases Nat.eq_zero_or_pos tlen with rfl | hpos
    · rw [splitEntry_zero]
      exact hzero addr
    by_cases hle : tlen ≤ blenMax
    · rw [splitEntry_le hpos hle]
      exact hlast addr tlen hpos hle
    · rw [splitEntry_gt hm (by omega)]
      exact hmore addr tlen _ (by omega) (ih _ (by omega) _)

/-- The bytes from an address on, one after another. -/
theorem range_bytes_append (addr a b : Nat) :
    ((List.range (a + b)).map fun i => u64 (addr + i)) =
      ((List.range a).map fun i => u64 (addr + i)) ++ (List.range b).map fun i => u64 (u64 (addr + a) + i) := by
  rw [List.range_add, List.map_append, List.map_map]
  congr 1
  refine List.map_congr_left fun i _ => ?_
  show u64 (addr + (a + i)) = _
  unfold u64
  omega

theorem hostBytes_splitEntry (hm : 0 < blenMax) (addr tlen : Nat) :
    (splitEntry blenMax addr tlen).flatMap SwDesc.hostBytes =
      (List.range tlen).map fun i => u64 (addr + i) := by
  refine splitEntry_induction (P := fun addr tlen ds => ds.flatMap SwDesc.hostBytes =
    (List.range tlen).map fun i => u64 (addr + i)) hm ?_ ?_ ?_ addr tlen
  · intro _
    rfl
  · intro addr tlen _ _
    rw [List.flatMap_singleton]
    rfl
  · intro addr tlen ds hgt ih
    rw [List.flatMap_cons, ih, show tlen = blenMax + (tlen - blenMax) by omega, range_bytes_append,
      Nat.add_sub_cancel_left]
    rfl

/-- As many pieces as the length needs. -/
theorem length_splitEntry (hm : 0 < blenMax) (addr tlen : Nat) :
    (splitEntry blenMax addr tlen).length = (tlen + blenMax - 1) / blenMax := by
  refine splitEntry_induction (P := fun _ tlen ds => ds.length = (tlen + blenMax - 1) / blenMax) hm
    ?_ ?_ ?_ addr tlen
  · intro _
    rw [Nat.zero_add, Nat.div_eq_of_lt (by omega)]
    rfl
  · intro _ tlen hpos hle
    rw [show tlen + blenMax - 1 = tlen - 1 + blenMax by omega, Nat.add_div_right _ hm,
      Nat.div_eq_of_lt (by omega)]
    rfl
  · intro _ tlen ds hgt ih
    rw [List.length_cons, ih, show tlen + blenMax - 1 = tlen - blenMax + blenMax - 1 + blenMax by omega,
      Nat.add_div_right _ hm]

end

/-- The pieces of a scatter list. -/
def pieces (blenMax : Nat) (es : List SgEntry) : List SwDesc :=
  es.flatMap fun e => splitEntry blenMax e.addr e.len

theorem hostBytes_pieces {blenMax : Nat} (hm : 0 < blenMax) (es : List SgEntry) :
    (pieces blenMax es).flatMap SwDesc.hostBytes = es.flatMap SgEntry.hostBytes := by
  unfold pieces
  rw [List.flatMap_assoc]
  exact List.flatMap_congr fun e _ => hostBytes_splitEntry hm e.addr e.len

/-- What is written of `sdesc[]` was asked for, while the rounding up does not wrap. -/
theorem length_pieces_le {blenMax : Nat} (hm : 0 < blenMax) {es : List SgEntry}
    (hwrap : ∀ e ∈ es, e.len + blenMax ≤ 2 ^ 32) : (pieces blenMax es).length ≤ sdescNr blenMax es := by
  induction es with
  | nil => exact Nat.le_refl _
  | cons e es ih =>
    have hrest := ih fun e' he' => hwrap e' (List.mem_cons_of_mem e he')
    have hthis := hwrap e List.mem_cons_self
    have hlen := length_splitEntry hm e.addr e.len
    unfold pieces sdescNr at hrest ⊢
    rw [List.flatMap_cons, List.length_append, List.map_cons, List.sum_cons, List.length_cons, hlen]
    by_cases hgt : e.len > blenMax
    · rw [if_pos hgt, show u32 (e.len + blenMax - 1 : Int) = e.len + blenMax - 1 by
        unfold u32
        omega]
      omega
    · have hone : (e.len + blenMax - 1) / blenMax ≤ 1 := by
        rw [Nat.div_le_iff_le_mul_add_pred hm]
        omega
      rw [if_neg hgt]
      omega

/-- A request is to be had while there is memory and the rounding up does not wrap. -/
theorem initRequest_fits {kernel : Kernel} {es : List SgEntry} {epAddr : Nat} {s : Sys}
    (hm : 0 < kernel.descBlenMax) (hmem : kernel.kzalloc ∨ kernel.vmalloc)
    (hwrap : ∀ e ∈ es, e.len + kernel.descBlenMax ≤ 2 ^ 32) :
    initRequest kernel es epAddr s = some (some ⟨epAddr, u32 (total es), 0,
      (pieces kernel.descBlenMax es).length, pieces kernel.descBlenMax es⟩, s.record .allocated) := by
  have hle := length_pieces_le hm hwrap
  unfold pieces at hle
  unfold initRequest requestAlloc
  rw [if_neg (by omega), if_pos hmem]
  dsimp only
  rw [if_neg (by omega)]
  rfl

end FpgaDrm.Xdma
