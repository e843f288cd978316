import SimpleDisplay.Xdma.Completion
import SimpleDisplay.Xdma.Nowait

/-!
# The completion of a queued request

`xdma_xfer_completion` of a request that `xdma_xfer_submit_nowait` has queued: it gives the
mapping and the request back, and the slots of the ring up to the first transfer that did not
complete (`nowait_completes`).
-/

namespace FpgaDrm.Xdma

open Word

/-! ## What is outstanding -/

/-- What the passes have done; they began in `s`. -/
structure Outstanding (a : IoCall) (s : Sys) (st : SubmitState) : Prop where
  pos : ∀ x ∈ st.sent, 0 < x.xfer.descNum
  unmap : ∀ x ∈ st.sent, x.xfer.needUnmap = !a.dmaMapped
  descUsed : (st.sys.engines a.key).descUsed =
    (s.engines a.key).descUsed + ((st.sent.map fun x => x.xfer.descNum).sum : Nat)
  sgt : st.sys.sgt = s.sgt
  held : st.sys.held = s.held
  resources : st.sys.resources = s.resources

section

variable {a : IoCall} {st : SubmitState} {s : Sys} {ps : List SwDesc} {e : DmaEngine} {ep : Nat}

theorem Outstanding.start (a : IoCall) (s : Sys) (req : RequestCb) :
    Outstanding a s ⟨s, req, req.swDescCnt, 0, []⟩ where
  pos := fun _ h => absurd h List.not_mem_nil
  unmap := fun _ h => absurd h List.not_mem_nil
  descUsed := (Int.add_zero _).symm
  sgt := rfl
  held := rfl
  resources := rfl

theorem Outstanding.pass (h : Outstanding a s st) (hcarried : Carried a ps e ep st)
    (hidx : e.descIdx < e.descMax) (hmore : st.nents ≠ 0) (pass : Pass) :
    Outstanding a s (nowaitTurn a pass st).2 := by
  have hleft := hcarried.nents
  obtain ⟨hpos, -, -, -⟩ := hcarried.next_row hidx (by omega)
  have hinit := hcarried.initiated hidx
  obtain ⟨o, hsent⟩ := (nowaitTurn_frame a pass st).sent
  obtain ⟨-, -, hused, hsgt, hheld, hresources, -⟩ := nowaitTurn_queues a pass st
  rw [Sys.setEngine_self, hinit.engine, ← hinit.descNum] at hused
  dsimp only at hused
  rw [← hinit.descNum] at hpos
  constructor
  case pos =>
    rw [hsent]
    intro x hx
    rcases List.mem_append.1 hx with hx | hx
    · exact h.pos x hx
    · rw [List.mem_singleton.1 hx]
      exact hpos
  case unmap =>
    rw [hsent]
    intro x hx
    rcases List.mem_append.1 hx with hx | hx
    · exact h.unmap x hx
    · rw [List.mem_singleton.1 hx]
      exact hinit.unmap
  case descUsed =>
    rw [hused, h.descUsed, hsent, List.map_append, List.sum_append, List.map_singleton, List.sum_singleton]
    dsimp only
    omega
  case sgt => exact hsgt.trans h.sgt
  case held => exact hheld.trans h.held
  case resources => exact hresources.trans h.resources

theorem nowaitTurns_outstanding (hidx : e.descIdx < e.descMax) (halign : e.descBus % 4096 = 0)
    (hfit : e.descBus + descSize * e.descMax ≤ 2 ^ 64) (passes : Nat → Pass) (left : Nat)
    (h : Carried a ps e ep st ∧ st.nents = ps.length - st.req.swDescIdx ∧ Outstanding a s st) :
    let t := (nowaitTurns a passes left st).2
    Carried a ps e ep t ∧ t.nents = ps.length - t.req.swDescIdx ∧ Outstanding a s t := by
  refine nowaitTurns_keeps (P := fun t => Carried a ps e ep t ∧ t.nents = ps.length - t.req.swDescIdx ∧
    Outstanding a s t) (fun st pass hst hmore => ?_) left h
  obtain ⟨hcarried, hleft, houtstanding⟩ := hst
  exact ⟨hcarried.pass hidx halign hfit (nowaitTurn_frame a pass st) hmore,
    nowaitTurn_left hcarried hidx hleft pass, houtstanding.pass hcarried hidx hmore pass⟩

end

/-! ## A queued call -/

section

variable {dev : Device} {kernel : Kernel} {a : IoCall} {passes : Nat → Pass} {s t : Sys} {r : Nowaited}

/-- What a call has checked when it maps its scatter list. -/
theorem begin_checks (h : a.begin dev kernel s = .ok t) :
    ¬ (a.write ∧ a.channel ≥ dev.h2cChannelMax) ∧ ¬ (!a.write ∧ a.channel ≥ dev.c2hChannelMax) ∧
      (s.engines a.key).magic = magicEngine := by
  unfold IoCall.begin at h
  cases hdev : a.devHndl with
  | none =>
    rw [hdev] at h
    cases h
  | some hndl =>
    rw [hdev] at h
    obtain ⟨log, hlog⟩ := debugCheckDevHndl_log dev hndl s
    dsimp only at h
    rw [hlog] at h
    split at h
    · cases h
    split at h
    · cases h
    next hh2c =>
    split at h
    · cases h
    next hc2h =>
    unfold IoCall.map at h
    dsimp only at h
    split at h
    · cases h
    next hmagic => exact ⟨hh2c, hc2h, not_not.1 hmagic⟩

/-- A queued call has mapped its scatter list, and its loop has come to the end of it. -/
structure Enqueued (dev : Device) (kernel : Kernel) (a : IoCall) (s u : Sys) (st : SubmitState) : Prop where
  h2c : ¬ (a.write ∧ a.channel ≥ dev.h2cChannelMax)
  c2h : ¬ (!a.write ∧ a.channel ≥ dev.c2hChannelMax)
  magic : (s.engines a.key).magic = magicEngine
  mapped : Mapped a kernel s u
  nents : u.sgt.nents ≠ 0
  carried : Carried a (pieces kernel.descBlenMax (a.entries kernel s)) (s.engines a.key) a.epAddr st
  outstanding : Outstanding a (u.record .allocated) st
  done : st.req.swDescIdx = (pieces kernel.descBlenMax (a.entries kernel s)).length

theorem xferSubmitNowait_enqueued (h : xferSubmitNowait dev kernel a passes s = some r)
    (hqueued : r.ended = .queued) (hm : 0 < kernel.descBlenMax)
    (hidx : (s.engines a.key).descIdx < (s.engines a.key).descMax)
    (halign : (s.engines a.key).descBus % 4096 = 0)
    (hfit : (s.engines a.key).descBus + descSize * (s.engines a.key).descMax ≤ 2 ^ 64) :
    ∃ u st, Enqueued dev kernel a s u st ∧ r.sys = st.sys ∧ r.sent = st.sent := by
  unfold xferSubmitNowait at h
  rcases begin_ways a dev kernel s with ⟨_, _, -, heq⟩ | ⟨log, hnents, heq⟩
  · rw [heq] at h
    obtain rfl := Option.some.inj h
    cases hqueued
  obtain ⟨hh2c, hc2h, hmagic⟩ := begin_checks heq
  rw [heq] at h
  have hentries : (a.mapped kernel { s with log := log }).sgt.entries = a.entries kernel s :=
    mapped_entries a kernel { s with log := log }
  have hmapped := mapped_mapped a kernel s log
  generalize a.mapped kernel { s with log := log } = u at *
  rw [← hmapped.nents] at hnents
  unfold nowaitMapped at h
  dsimp only at h
  rw [hentries] at h
  rcases initRequest_ways hm (a.entries kernel s) a.epAddr u with ⟨_, _, -, hreq⟩ |
    ⟨req, hsdesc, hcnt, hzero, hep, hreq⟩
  · rw [hreq] at h
    obtain rfl := Option.some.inj h
    cases hqueued
  rw [hreq] at h
  dsimp only at h
  have hengines : (u.record .allocated).engines = s.engines := hmapped.engines
  rw [← hengines] at hidx halign hfit
  let ps := pieces kernel.descBlenMax (a.entries kernel s)
  have hstart : Carried a ps ((u.record .allocated).engines a.key) req.epAddr
      ⟨u.record .allocated, req, req.swDescCnt, 0, []⟩ := Carried.start hsdesc hcnt hzero hidx
  obtain ⟨hcarried, hleft, houtstanding⟩ := nowaitTurns_outstanding hidx halign hfit passes tferCount
    ⟨hstart, by rw [hzero, hcnt]; rfl, .start a (u.record .allocated) req⟩
  rcases hturns : nowaitTurns a passes tferCount ⟨u.record .allocated, req, req.swDescCnt, 0, []⟩ with
    ⟨ended, st⟩
  rw [hturns] at h hcarried hleft houtstanding
  rw [hengines, hep] at hcarried
  dsimp only at hcarried hleft
  cases ended with
  | queued =>
    obtain rfl := Option.some.inj h
    have hnone := nowaitTurns_queued hturns
    have hbound := hcarried.idx
    have hdone : st.req.swDescIdx = ps.length := by omega
    exact ⟨u, st, ⟨hh2c, hc2h, hmagic, hmapped, hnents, hcarried, houtstanding, hdone⟩, rfl, rfl⟩
  | refused | overrun =>
    obtain rfl := Option.some.inj h
    cases hqueued

end

/-! ## Its completion -/

section

variable {dev : Device} {kernel : Kernel} {a : IoCall} {passes : Nat → Pass} {s u v w : Sys}
  {st : SubmitState} {r : Nowaited} {found : List (QueuedTransfer × Found)}

theorem looked_begins (found : List (QueuedTransfer × Found)) : looked found <+: found := by
  induction found with
  | nil => exact List.prefix_rfl
  | cons y found ih =>
    obtain ⟨x, f⟩ := y
    rw [looked]
    split
    · exact List.cons_prefix_cons.2 ⟨rfl, ih⟩
    · exact ⟨found, rfl⟩

theorem looked_all (h : ∀ y ∈ found, y.2.fine = true) : looked found = found := by
  induction found with
  | nil => rfl
  | cons y found ih =>
    obtain ⟨x, f⟩ := y
    rw [looked, if_pos (h (x, f) List.mem_cons_self), ih fun y hy => h y (List.mem_cons_of_mem _ hy)]

/-- The slots of transfers. -/
def slotsOf (found : List (QueuedTransfer × Found)) : Nat := (found.map fun y => y.1.descNum).sum

/-- What they have moved. -/
def bytesOf (hasResults : Bool) (found : List (QueuedTransfer × Found)) : Nat :=
  (found.map fun y => y.2.bytes hasResults y.1).sum

/-- What a queued request has taken and given back when its completion returns. -/
def IoCall.settled (a : IoCall) (origNents n : Nat) : List Resource :=
  if a.dmaMapped then [.allocated, .freed]
  else [.mapped origNents, .allocated, .unmapped n, .freed]

/-- The entries that its completion unmaps: `transfer_destroy` of the last transfer those that the
mapping made, the label those that were mapped. -/
def IoCall.collectedNents (a : IoCall) (kernel : Kernel) (s : Sys)
    (found : List (QueuedTransfer × Found)) : Nat :=
  if (looked found).any fun y => y.1.lastInRequest then (a.mapped kernel s).sgt.nents else s.sgt.origNents

theorem Enqueued.slots (h : Enqueued dev kernel a s u st)
    (hfound : found.map Prod.fst = st.sent.map Sent.xfer) :
    slotsOf found = (pieces kernel.descBlenMax (a.entries kernel s)).length ∧
      slotsOf found = (st.sent.map fun x => x.xfer.descNum).sum := by
  have hsum : slotsOf found = (st.sent.map fun x => x.xfer.descNum).sum := by
    have hnums := congrArg (List.map fun x : QueuedTransfer => x.descNum) hfound
    rw [List.map_map, List.map_map] at hnums
    exact congrArg List.sum hnums
  refine ⟨?_, hsum⟩
  rw [hsum, ← h.done, ← h.carried.length, List.length_flatMap]
  congr 1
  exact List.map_congr_left fun x _ => x.length_descs.symm

/-- The transfers are looked at in order, and destroyed. -/
theorem Enqueued.turns (h : Enqueued dev kernel a s u st) (hw : Meanwhile a.key st.sys w)
    (hfound : found.map Prod.fst = st.sent.map Sent.xfer) :
    ∃ v, completionTurns a.key found (pieces kernel.descBlenMax (a.entries kernel s)).length 0 w =
        some (bytesOf (s.engines a.key).hasResults (looked found), v) ∧
      Destroyed a.key ((looked found).map Prod.fst) w v ∧
      (v.engines a.key).descUsed =
        (s.engines a.key).descUsed + slotsOf (found.drop (looked found).length) := by
  obtain ⟨hcount, hslots⟩ := h.slots hfound
  obtain ⟨serviced, hengine⟩ := hw.engine
  have hpos : ∀ y ∈ found, 0 < y.1.descNum := by
    intro y hy
    have hmem := List.mem_map_of_mem (f := Prod.fst) hy
    rw [hfound] at hmem
    obtain ⟨x, hx, heq⟩ := List.mem_map.1 hmem
    rw [← heq]
    exact h.outstanding.pos x hx
  obtain ⟨v, hrun, hdestroyed⟩ := @completionTurns_settles a.key found hpos 0 w
  have hres : (w.engines a.key).hasResults = (s.engines a.key).hasResults := by
    rw [← h.carried.ring.hasResults, hengine]
    rfl
  rw [hres, Nat.zero_add] at hrun
  rw [← hcount]
  refine ⟨v, hrun, hdestroyed, ?_⟩
  have hused : (w.engines a.key).descUsed = (s.engines a.key).descUsed + slotsOf found := by
    rw [hengine, hslots, ← h.mapped.engines]
    exact h.outstanding.descUsed
  have hsplit : slotsOf found = slotsOf (looked found) + slotsOf (found.drop (looked found).length) := by
    have htake := List.prefix_iff_eq_take.1 (looked_begins found)
    unfold slotsOf
    rw [← List.sum_append, ← List.map_append]
    conv_lhs => rw [← List.take_append_drop (looked found).length found, ← htake]
  have hlooked : (((looked found).map Prod.fst).map (·.descNum)).sum = slotsOf (looked found) := by
    rw [List.map_map]
    rfl
  rw [hdestroyed.descUsed, hused, hsplit, hlooked]
  omega

/-- The mapping is given back once, and the request. -/
theorem Enqueued.gives_back (h : Enqueued dev kernel a s u st) (hw : Meanwhile a.key st.sys w)
    (hfound : found.map Prod.fst = st.sent.map Sent.xfer)
    (hd : Destroyed a.key ((looked found).map Prod.fst) w v) :
    (a.dmaMapped = false → (unmapCall a v).sgt.nents = 0) ∧
      ((unmapCall a v).record .freed).resources =
        s.resources ++ a.settled s.sgt.origNents (a.collectedNents kernel s found) := by
  have hneed : ∀ y ∈ looked found, y.1.needUnmap = !a.dmaMapped := by
    intro y hy
    have hmem := List.mem_map_of_mem (f := Prod.fst) ((looked_begins found).subset hy)
    rw [hfound] at hmem
    obtain ⟨x, hx, heq⟩ := List.mem_map.1 hmem
    rw [← heq]
    exact h.outstanding.unmap x hx
  have hany : (((looked found).map Prod.fst).any fun x => x.lastInRequest && x.needUnmap) =
      (((looked found).any fun y => y.1.lastInRequest) && !a.dmaMapped) := by
    generalize looked found = ys at hneed
    induction ys with
    | nil => rfl
    | cons y ys ih =>
      rw [List.map_cons, List.any_cons, List.any_cons, ih fun z hz => hneed z (List.mem_cons_of_mem _ hz),
        hneed y List.mem_cons_self, Bool.and_or_distrib_right]
  have hsgt : w.sgt = u.sgt := hw.sgt.trans h.outstanding.sgt
  have htaken : w.resources = s.resources ++ (if a.dmaMapped then [] else [.mapped s.sgt.origNents]) ++
      [.allocated] := by
    rw [hw.resources, h.outstanding.resources, ← h.mapped.resources]
    rfl
  have hunmaps := hd.unmaps
  rw [hany, Bool.and_assoc] at hunmaps
  obtain ⟨hgone, hlabel⟩ := hunmaps.label (show w.sgt.nents ≠ 0 by rw [hsgt]; exact h.nents)
  refine ⟨hgone, ?_⟩
  rw [htaken, hsgt, h.mapped.nents, h.mapped.origNents] at hlabel
  show (unmapCall a v).resources ++ [.freed] = _
  unfold IoCall.settled IoCall.collectedNents
  rw [hlabel]
  split <;> simp

/-- Transfers that all completed have moved all the bytes. -/
theorem Enqueued.moved (h : Enqueued dev kernel a s u st) (hm : 0 < kernel.descBlenMax)
    (hfound : found.map Prod.fst = st.sent.map Sent.xfer) (hfine : ∀ y ∈ found, y.2.fine = true)
    (htotal : total (a.entries kernel s) < 2 ^ 32) :
    bytesOf false (looked found) = total (a.entries kernel s) := by
  have hlens := congrArg (List.map fun x : QueuedTransfer => x.len) hfound
  rw [List.map_map, List.map_map] at hlens
  have hok := h.carried.ok
  have hbytes : found.map (fun y => y.2.bytes false y.1) = found.map fun y => y.1.len := by
    refine List.map_congr_left fun y hy => ?_
    have hy := hfine y hy
    obtain ⟨x, f⟩ := y
    cases f with
    | completed results => rfl
    | failed | inFlight => cases hy
  unfold bytesOf
  rw [looked_all hfine, hbytes]
  calc (found.map fun y => y.1.len).sum
    _ = (st.sent.map fun x => x.xfer.len).sum := congrArg List.sum hlens
    _ = (sentBytes (s.engines a.key).dir st.sent).length := hok.sum_len hm htotal
    _ = total (a.entries kernel s) := by
      rw [hok.all_bytes hm (by rw [h.carried.length, h.done]), sgtBytes_length]

/-- **After a queued request**, whatever became of its transfers, its completion counts the bytes
of those before the first that did not complete, and gives the mapping and the request back, each
once.  The slots of the transfers behind that one stay in use. -/
theorem nowait_completes (h : xferSubmitNowait dev kernel a passes s = some r)
    (hqueued : r.ended = .queued) (hm : 0 < kernel.descBlenMax)
    (hidx : (s.engines a.key).descIdx < (s.engines a.key).descMax)
    (halign : (s.engines a.key).descBus % 4096 = 0)
    (hfit : (s.engines a.key).descBus + descSize * (s.engines a.key).descMax ≤ 2 ^ 64)
    (hw : Meanwhile a.key r.sys w) (hfound : found.map Prod.fst = r.sent.map Sent.xfer) :
    ∃ done v, xferCompletion dev a (pieces kernel.descBlenMax (a.entries kernel s)).length found w =
        some (((done : Nat) : Int), v) ∧
      done = bytesOf (s.engines a.key).hasResults (looked found) ∧
      ((s.engines a.key).hasResults = false → (∀ y ∈ found, y.2.fine = true) →
        total (a.entries kernel s) < 2 ^ 32 → done = total (a.entries kernel s)) ∧
      (v.engines a.key).descUsed =
        (s.engines a.key).descUsed + slotsOf (found.drop (looked found).length) ∧
      v.held = s.held ∧ (a.dmaMapped = false → v.sgt.nents = 0) ∧
      v.resources = s.resources ++ a.settled s.sgt.origNents (a.collectedNents kernel s found) := by
  obtain ⟨u, st, henqueued, hsys, hsent⟩ := xferSubmitNowait_enqueued h hqueued hm hidx halign hfit
  rw [hsys] at hw
  rw [hsent] at hfound
  obtain ⟨v, hrun, hdestroyed, hused⟩ := henqueued.turns hw hfound
  obtain ⟨htable, hledger⟩ := henqueued.gives_back hw hfound hdestroyed
  obtain ⟨serviced, hengine⟩ := hw.engine
  have hmagic : (w.engines a.key).magic = magicEngine := by
    rw [hengine]
    exact henqueued.carried.ring.magic.trans henqueued.magic
  refine ⟨_, (unmapCall a v).record .freed, ?_, rfl, fun hres hfine htotal => ?_, ?_, ?_, htable, hledger⟩
  · rw [@xferCompletion_known w dev a henqueued.h2c henqueued.c2h hmagic, hrun]
    rfl
  · rw [hres]
    exact henqueued.moved hm hfound hfine htotal
  · show ((unmapCall a v).engines a.key).descUsed = _
    rw [unmapCall_engines]
    exact hused
  · show (unmapCall a v).held = s.held
    rw [unmapCall_held, hdestroyed.held, hw.held, henqueued.outstanding.held]
    exact henqueued.mapped.held

end

theorem pair_length : (pieces 0x0fffffff [lineEntry, lineEntry]).length ≤ lastSlotEngine.room :=
  Nat.le_trans (length_pieces_le (by decide) lineEntry_wrap) (by decide)

/-- The transfers of the pair complete: its 16 bytes are reported, and the ring is free. -/
theorem nowait_completes_pair : ∃ r v,
    xferSubmitNowait knownDevice pairMapping writeCall (fun _ => servedPass) lastSlotSys = some r ∧
      xferCompletion knownDevice writeCall (pieces 0x0fffffff [lineEntry, lineEntry]).length
        (r.sent.map fun x => (x.xfer, Found.completed [])) r.sys = some (16, v) ∧
      (v.engines (true, 0)).descUsed = 0 ∧ v.held = [] ∧ v.sgt.nents = 0 := by
  obtain ⟨r, hr, -, hends⟩ := servedPass_ends
  have hmeanwhile : Meanwhile writeCall.key r.sys r.sys := by
    let e := r.sys.engines writeCall.key
    exact ⟨⟨⟨e.running, e.shutdown, e.descDequeued, e.status, e.transferList, e.regs⟩, rfl⟩, rfl, rfl, rfl⟩
  have hfine : ∀ y ∈ r.sent.map fun x => (x.xfer, Found.completed []), y.2.fine = true := by
    intro y hy
    obtain ⟨x, -, rfl⟩ := List.mem_map.1 hy
    rfl
  have hfound : (r.sent.map fun x => (x.xfer, Found.completed [])).map Prod.fst = r.sent.map Sent.xfer := by
    rw [List.map_map]
    rfl
  obtain ⟨done, v, hcall, -, hdone, hused, hheld, hnents, -⟩ := nowait_completes hr
    (hends.queued pair_length).1 (by decide) (by decide) (by decide) (by decide) hmeanwhile hfound
  rw [hdone rfl hfine (by decide)] at hcall
  rw [looked_all hfine, List.drop_length] at hused
  exact ⟨r, v, hr, hcall, hused, hheld, hnents rfl⟩

end FpgaDrm.Xdma
