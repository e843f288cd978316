import SimpleDisplay.Xdma.Transfer

/-!
# What a synchronous call sends

Whatever the card and the service of the engine do between the transfers of
`xdma_xfer_submit`: the transfers take the rows of the ring one after another and carry the
pieces of the request, each once and in order, and all of them unless a transfer ends the
call before (`submit_carries`).
-/

namespace FpgaDrm.Xdma

open Word Slots

/-! ## What was sent -/

/-- Its row of the ring. -/
def Sent.row (x : Sent) : Nat × Nat := (x.xfer.descIndex, x.xfer.descNum)

/-- Its descriptors, when it was handed over. -/
def Sent.descs (x : Sent) : List Desc :=
  (List.range x.xfer.descNum).map fun i => x.engine.desc (x.xfer.descIndex + i)

theorem Sent.length_descs (x : Sent) : x.descs.length = x.xfer.descNum := by
  unfold Sent.descs
  rw [List.length_map, List.length_range]

theorem Sent.getElem_descs (x : Sent) {i : Nat} (hi : i < x.descs.length) :
    x.descs[i] = x.engine.desc (x.xfer.descIndex + i) := by
  simp only [Sent.descs, List.getElem_map, List.getElem_range]

/-- A card that is started on it reads its descriptors and no others. -/
def Sent.Reads (x : Sent) : Prop :=
  ReadsExactly x.engine.descBus x.engine.desc
    (x.xfer.descBus, getNextAdj x.xfer.descAdjacent (pciDmaL x.xfer.descBus) + 1) x.descs

/-- The transfers carry the first of the pieces `ps`; `e` is the engine and `ep` the address on
the card before the first one. -/
structure SentOk (e : DmaEngine) (ep : Nat) (ps : List SwDesc) (sent : List Sent) : Prop where
  rows : sent.map Sent.row <+: Rows.rows e.descMax e.descIdx ps.length
  reads : ∀ x ∈ sent, x.Reads
  len : ∀ x ∈ sent, (x.descs.map Desc.bytes).sum < 2 ^ 32 → x.xfer.len = (x.descs.map Desc.bytes).sum
  carries : ∀ j (h : j < (sent.flatMap Sent.descs).length), ∃ h' : j < ps.length,
    Carries e (e.epAt ep (lens (ps.take j)))
      (e.cyclicResultBus + resultSize * ((e.descIdx + j) % e.descMax)) ps[j]
      (sent.flatMap Sent.descs)[j]

/-! ## How a transfer ended -/

def Sent.endedWell (x : Sent) : Bool :=
  match x.outcome with
  | some o => o.rv = 0
  | none => false

/-- It ended the whole request before its last piece. -/
def Sent.finishes (a : IoCall) (x : Sent) : Bool := x.outcome.any fun o => o.finishes a.eopFlush x.engine

/-- The two ways to end. -/
theorem Outcome.cases_rv {x : QueuedTransfer} {e : DmaEngine} (o : Outcome) :
    (o.rv = 0 ∧ (e.hasResults = false → o.bytes e x = x.len)) ∨ (o.rv < 0 ∧ o.bytes e x = 0) := by
  cases o with
  | completed results =>
    refine .inl ⟨rfl, fun hres => ?_⟩
    show (if e.hasResults then results.sum else x.len) = x.len
    rw [hres]
    rfl
  | serviced => exact .inl ⟨rfl, fun _ => rfl⟩
  | failed => exact .inr ⟨by decide, rfl⟩
  | servicedFailed => exact .inr ⟨by decide, rfl⟩
  | timedOut => exact .inr ⟨by decide, rfl⟩

theorem Sent.hasResults_of_finishes {a : IoCall} {x : Sent} (h : x.finishes a = true) :
    x.engine.hasResults = true := by
  rcases x with ⟨x, e, - | o⟩
  · cases h
  · have ho : o.finishes a.eopFlush e = true := h
    unfold Outcome.finishes at ho
    split at ho
    · exact (Bool.and_eq_true_iff.1 ho).1
    · cases ho

/-- The transfers of a loop whose last pass ended with `rv`: all ended well, but for the one
that the loop stops at. -/
structure Handed (rv : Int) (sent : List Sent) : Prop where
  parts : ∃ well rest, sent = well ++ rest ∧ (∀ x ∈ well, x.endedWell = true) ∧
    (∀ x ∈ rest, x.endedWell = false) ∧ rest.length = if rv < 0 then 1 else 0
  nonpos : rv ≤ 0

theorem Handed.nil : Handed 0 [] where
  parts := ⟨[], [], rfl, fun _ h => absurd h List.not_mem_nil, fun _ h => absurd h List.not_mem_nil, rfl⟩
  nonpos := Int.le_refl 0

/-- One more transfer, after which the loop has `rv'`. -/
theorem Handed.add {rv rv' : Int} {sent : List Sent} {x : Sent} (h : Handed rv sent) (hrv : 0 ≤ rv)
    (hnonpos : rv' ≤ 0) (hwell : x.endedWell = decide (rv' = 0)) : Handed rv' (sent ++ [x]) where
  parts := by
    obtain ⟨well, rest, rfl, hallwell, -, hrest⟩ := h.parts
    obtain rfl : rest = [] := List.eq_nil_of_length_eq_zero (by rw [hrest, if_neg (by omega)])
    rw [List.append_nil]
    by_cases hzero : rv' = 0
    · refine ⟨well ++ [x], [], (List.append_nil _).symm, fun y hy => ?_,
        fun y hy => absurd hy List.not_mem_nil, ?_⟩
      · rcases List.mem_append.1 hy with hy | hy
        · exact hallwell y hy
        · rw [List.mem_singleton.1 hy, hwell, decide_eq_true hzero]
      · rw [hzero]
        rfl
    · refine ⟨well, [x], rfl, hallwell, fun y hy => ?_, ?_⟩
      · rw [List.mem_singleton.1 hy, hwell, decide_eq_false hzero]
      · rw [if_pos (by omega)]
        rfl
  nonpos := hnonpos

/-! ## What a pass leaves alone -/

/-- The same ring: the fields that stay as `engine_init` sets them. -/
structure DmaEngine.SameRing (e e' : DmaEngine) : Prop where
  descBus : e'.descBus = e.descBus
  cyclicResultBus : e'.cyclicResultBus = e.cyclicResultBus
  descMax : e'.descMax = e.descMax
  dir : e'.dir = e.dir
  streaming : e'.streaming = e.streaming
  nonIncrAddr : e'.nonIncrAddr = e.nonIncrAddr
  magic : e'.magic = e.magic

theorem DmaEngine.SameRing.refl (e : DmaEngine) : e.SameRing e := ⟨rfl, rfl, rfl, rfl, rfl, rfl, rfl⟩

theorem DmaEngine.SameRing.trans {e e₁ e₂ : DmaEngine} (h : e.SameRing e₁) (h' : e₁.SameRing e₂) :
    e.SameRing e₂ where
  descBus := h'.descBus.trans h.descBus
  cyclicResultBus := h'.cyclicResultBus.trans h.cyclicResultBus
  descMax := h'.descMax.trans h.descMax
  dir := h'.dir.trans h.dir
  streaming := h'.streaming.trans h.streaming
  nonIncrAddr := h'.nonIncrAddr.trans h.nonIncrAddr
  magic := h'.magic.trans h.magic

theorem DmaEngine.SameRing.hasResults {e e' : DmaEngine} (h : e.SameRing e') :
    e'.hasResults = e.hasResults := by
  unfold DmaEngine.hasResults
  rw [h.streaming, h.dir]

/-- What `transfer_queue` leaves alone. -/
structure QueueFrame (key : Bool × Int) (s t : Sys) : Prop where
  ring : (s.engines key).SameRing (t.engines key)
  descIdx : (t.engines key).descIdx = (s.engines key).descIdx
  descUsed : (t.engines key).descUsed = (s.engines key).descUsed
  sgt : t.sgt = s.sgt
  held : t.held = s.held
  resources : t.resources = s.resources
  cbReq : t.cbReq = s.cbReq

namespace QueueFrame

variable {key : Bool × Int} {s t u : Sys}

theorem refl (key : Bool × Int) (s : Sys) : QueueFrame key s s := ⟨.refl _, rfl, rfl, rfl, rfl, rfl, rfl⟩

theorem trans (h : QueueFrame key s t) (h' : QueueFrame key t u) : QueueFrame key s u where
  ring := h.ring.trans h'.ring
  descIdx := h'.descIdx.trans h.descIdx
  descUsed := h'.descUsed.trans h.descUsed
  sgt := h'.sgt.trans h.sgt
  held := h'.held.trans h.held
  resources := h'.resources.trans h.resources
  cbReq := h'.cbReq.trans h.cbReq

theorem print (h : QueueFrame key s t) (format : String) : QueueFrame key s (t.print format) :=
  ⟨h.ring, h.descIdx, h.descUsed, h.sgt, h.held, h.resources, h.cbReq⟩

theorem locked {l : LockName} (h : QueueFrame key (s.acquire l) t) : QueueFrame key s (t.release l) :=
  ⟨h.ring, h.descIdx, h.descUsed, h.sgt, Sys.held_release h.held, h.resources, h.cbReq⟩

theorem setEngine {e : DmaEngine} (hring : (s.engines key).SameRing e)
    (hidx : e.descIdx = (s.engines key).descIdx) (hused : e.descUsed = (s.engines key).descUsed) :
    QueueFrame key s (s.setEngine key e) := by
  constructor
  case ring => rw [Sys.setEngine_self]; exact hring
  case descIdx => rw [Sys.setEngine_self]; exact hidx
  case descUsed => rw [Sys.setEngine_self]; exact hused
  all_goals rfl

end QueueFrame

theorem engineStart_frame (kernel : Kernel) (key : Bool × Int) (s : Sys) :
    QueueFrame key s (engineStart kernel key s).2 := by
  unfold engineStart
  dsimp only
  split
  · exact (QueueFrame.refl key s).print _
  · split
    · exact (QueueFrame.refl key s).print _
    · exact .setEngine ⟨rfl, rfl, rfl, rfl, rfl, rfl, rfl⟩ rfl rfl

theorem transferQueue_frame (kernel : Kernel) (key : Bool × Int) (x : QueuedTransfer) (s : Sys) :
    QueueFrame key s (transferQueue kernel key x s).2 := by
  unfold transferQueue
  split
  · exact (QueueFrame.refl key s).print _
  split
  · exact (QueueFrame.refl key s).print _
  dsimp only
  have hcpu : QueueFrame key (s.acquire .lock) ((s.acquire .lock).setEngine key
      { (s.acquire .lock).engines key with prevCpu := kernel.cpu }) :=
    .setEngine ⟨rfl, rfl, rfl, rfl, rfl, rfl, rfl⟩ rfl rfl
  split
  · exact (hcpu.print _).locked
  · generalize hu : Sys.setEngine _ key _ = u
    have hlist : QueueFrame key (s.acquire .lock) u := by
      rw [← hu]
      refine hcpu.trans (.setEngine ?_ ?_ ?_)
      all_goals rw [Sys.setEngine_self]
      exact ⟨rfl, rfl, rfl, rfl, rfl, rfl, rfl⟩
    have hstart := engineStart_frame kernel key u
    split
    · split
      next heq =>
        rw [heq] at hstart
        exact ((hlist.trans hstart).print _).locked
      next heq =>
        rw [heq] at hstart
        exact (hlist.trans hstart).locked
    · exact hlist.locked

/-! ## A pass -/

section

variable {a : IoCall} {st : SubmitState}

/-- The transfer of a pass, with the engine and the request after `transfer_init`. -/
def SubmitState.next (a : IoCall) (st : SubmitState) : DmaEngine × RequestCb × QueuedTransfer :=
  transferInit a.eopFlush (!a.dmaMapped) (st.sys.engines a.key) st.req

theorem transferDestroy_engine (key : Bool × Int) (x : QueuedTransfer) (s : Sys) :
    (transferDestroy key x s).engines key =
      { s.engines key with desc := descDone x.descIndex x.descNum (s.engines key).desc } := by
  unfold transferDestroy
  dsimp only
  split
  · exact Sys.setEngine_self _ _ _
  · exact Sys.setEngine_self _ _ _

/-- The transfer of a pass was not queued. -/
structure TurnRefused (a : IoCall) (st : SubmitState) (rv : Int) (t : SubmitState) : Prop where
  neg : rv < 0
  queued : QueueFrame a.key (st.sys.setEngine a.key (st.next a).1) t.sys
  req : t.req = (st.next a).2.1
  nents : t.nents = st.nents - (st.next a).2.2.descNum
  done : t.done = st.done
  sent : t.sent = st.sent ++ [⟨(st.next a).2.2, (st.next a).1, none⟩]

/-- The transfer of a pass was queued, waited for and destroyed; `u` is the state before it was
destroyed. -/
structure TurnWaited (a : IoCall) (turn : Turn) (st : SubmitState) (rv : Int) (t : SubmitState)
    (u : Sys) : Prop where
  rv : rv = turn.outcome.rv
  ring : (st.next a).1.SameRing (u.engines a.key)
  descIdx : (u.engines a.key).descIdx = (st.next a).1.descIdx
  descUsed : (u.engines a.key).descUsed = (st.next a).1.descUsed - (st.next a).2.2.descNum
  sgt : u.sgt = st.sys.sgt
  held : u.held = st.sys.held
  resources : u.resources = st.sys.resources
  sys : t.sys = transferDestroy a.key (st.next a).2.2 u
  req : t.req = (st.next a).2.1
  nents : t.nents = if turn.outcome.finishes a.eopFlush (st.next a).1 then 0
    else st.nents - (st.next a).2.2.descNum
  done : t.done = st.done + turn.outcome.bytes (st.next a).1 (st.next a).2.2
  sent : t.sent = st.sent ++ [⟨(st.next a).2.2, (st.next a).1, some turn.outcome⟩]

/-- What a pass can do. -/
theorem submitTurn_cases (a : IoCall) (turn : Turn) (st : SubmitState) :
    TurnRefused a st (submitTurn a turn st).1 (submitTurn a turn st).2 ∨
      ∃ u, TurnWaited a turn st (submitTurn a turn st).1 (submitTurn a turn st).2 u := by
  unfold submitTurn
  have hnext : transferInit a.eopFlush (!a.dmaMapped) (st.sys.engines a.key) st.req = st.next a := rfl
  rw [hnext]
  have hframe := transferQueue_frame turn.kernel a.key (st.next a).2.2
    (st.sys.setEngine a.key (st.next a).1)
  rcases hq : transferQueue turn.kernel a.key (st.next a).2.2 (st.sys.setEngine a.key (st.next a).1)
    with ⟨rv, s⟩
  rw [hq] at hframe
  dsimp only
  rw [hq]
  dsimp only at hframe ⊢
  split
  next hneg => exact .inl ⟨hneg, hframe.print _, rfl, rfl, rfl, rfl⟩
  next =>
    obtain ⟨hring, hidx, hused, hsgt, hheld, hresources, -⟩ := hframe
    rw [Sys.setEngine_self] at hring hidx hused
    generalize hw : (if (s.engines a.key).cmplthp then { s with woken := s.woken + 1 } else s) = w
    obtain ⟨hengines, hsgtw, hheldw, hresourcesw⟩ : w.engines = s.engines ∧ w.sgt = s.sgt ∧
        w.held = s.held ∧ w.resources = s.resources := by
      rw [← hw]
      split <;> exact ⟨rfl, rfl, rfl, rfl⟩
    rw [← hengines] at hring hidx hused
    let served := (w.engines a.key).serve (turn.service (w.engines a.key))
    refine .inr ⟨{ w.setEngine a.key
      { served with descUsed := served.descUsed - (st.next a).2.2.descNum } with
        log := w.log ++ turn.outcome.messages },
      rfl, ?_, ?_, ?_, hsgtw.trans hsgt, hheldw.trans hheld, hresourcesw.trans hresources,
      rfl, rfl, rfl, rfl, rfl⟩
    all_goals
      dsimp only
      rw [Sys.setEngine_self]
    · exact ⟨hring.descBus, hring.cyclicResultBus, hring.descMax, hring.dir, hring.streaming,
        hring.nonIncrAddr, hring.magic⟩
    · exact hidx
    · exact congrArg (· - ((st.next a).2.2.descNum : Int)) hused

/-- What every pass does. -/
structure TurnFrame (a : IoCall) (st t : SubmitState) : Prop where
  req : t.req = (st.next a).2.1
  nents : t.nents ≤ st.nents - (st.next a).2.2.descNum
  left : t.nents = st.nents - (st.next a).2.2.descNum ∨
    t.nents = 0 ∧ ∃ x ∈ t.sent.getLast?, x.finishes a = true
  sent : ∃ o, t.sent = st.sent ++ [⟨(st.next a).2.2, (st.next a).1, o⟩]
  ring : (st.next a).1.SameRing (t.sys.engines a.key)
  descIdx : (t.sys.engines a.key).descIdx = (st.next a).1.descIdx

theorem submitTurn_frame (a : IoCall) (turn : Turn) (st : SubmitState) :
    TurnFrame a st (submitTurn a turn st).2 := by
  rcases submitTurn_cases a turn st with h | ⟨u, h⟩
  · obtain ⟨hring, hidx, -⟩ := h.queued
    rw [Sys.setEngine_self] at hring hidx
    exact ⟨h.req, Nat.le_of_eq h.nents, .inl h.nents, ⟨_, h.sent⟩, hring, hidx⟩
  · refine ⟨h.req, ?_, ?_, ⟨_, h.sent⟩, ?_, ?_⟩
    · rw [h.nents]
      split
      · exact Nat.zero_le _
      · exact Nat.le_refl _
    · rw [h.nents, h.sent, List.getLast?_concat]
      split
      next hfinish => exact .inr ⟨rfl, _, rfl, hfinish⟩
      next => exact .inl rfl
    · rw [h.sys, transferDestroy_engine]
      exact ⟨h.ring.descBus, h.ring.cyclicResultBus, h.ring.descMax, h.ring.dir, h.ring.streaming,
        h.ring.nonIncrAddr, h.ring.magic⟩
    · rw [h.sys, transferDestroy_engine]
      exact h.descIdx

/-- How the transfer of a pass ended is what the pass returns. -/
theorem submitTurn_handed {rv : Int} (h : Handed rv st.sent) (hrv : 0 ≤ rv) (a : IoCall) (turn : Turn) :
    Handed (submitTurn a turn st).1 (submitTurn a turn st).2.sent := by
  rcases submitTurn_cases a turn st with hturn | ⟨u, hturn⟩
  · rw [hturn.sent]
    have hneg := hturn.neg
    exact h.add hrv (Int.le_of_lt hneg) (decide_eq_false (by omega)).symm
  · rw [hturn.sent]
    refine h.add hrv ?_ ?_
    · rw [hturn.rv]
      rcases @Outcome.cases_rv (st.next a).2.2 (st.next a).1 turn.outcome with ⟨hzero, -⟩ | ⟨hneg, -⟩
      · exact Int.le_of_eq hzero
      · exact Int.le_of_lt hneg
    · rw [hturn.rv]
      rfl

/-! ## What holds after any pass -/

/-- The transfers sent so far carry the pieces before `sw_desc_idx`. -/
structure Carried (a : IoCall) (ps : List SwDesc) (e : DmaEngine) (ep : Nat) (st : SubmitState) :
    Prop where
  sdesc : st.req.sdesc = ps
  cnt : st.req.swDescCnt = ps.length
  idx : st.req.swDescIdx ≤ ps.length
  nents : st.nents ≤ ps.length - st.req.swDescIdx
  left : st.nents = ps.length - st.req.swDescIdx ∨
    st.nents = 0 ∧ ∃ x ∈ st.sent.getLast?, x.finishes a = true
  ring : e.SameRing (st.sys.engines a.key)
  descIdx : (st.sys.engines a.key).descIdx = (e.descIdx + st.req.swDescIdx) % e.descMax
  epAddr : u64 st.req.epAddr = u64 (e.epAt ep (lens (ps.take st.req.swDescIdx)))
  rows : st.sent.map Sent.row ++ Rows.rows e.descMax ((e.descIdx + st.req.swDescIdx) % e.descMax)
    (ps.length - st.req.swDescIdx) = Rows.rows e.descMax e.descIdx ps.length
  length : (st.sent.flatMap Sent.descs).length = st.req.swDescIdx
  ok : SentOk e ep ps st.sent

theorem epAt_add (e : DmaEngine) (ep m n : Nat) : e.epAt (e.epAt ep m) n = e.epAt ep (m + n) := by
  unfold DmaEngine.epAt
  split
  · rfl
  · rw [Nat.add_assoc]

theorem epAt_congr {e e' : DmaEngine} (h : e.nonIncrAddr = e'.nonIncrAddr) : e.epAt = e'.epAt := by
  unfold DmaEngine.epAt
  rw [h]

/-- Only the direction and the kind of the engine matter. -/
theorem Carries.engine {e e' : DmaEngine} {ep bus : Nat} {p : SwDesc} {d : Desc}
    (h : Carries e ep bus p d) (hdir : e.dir = e'.dir) (hstr : e.streaming = e'.streaming) :
    Carries e' ep bus p d := by
  have hres : e'.hasResults = e.hasResults := by
    unfold DmaEngine.hasResults
    rw [hdir, hstr]
  refine ⟨h.bytes, ?_, ?_, ?_⟩
  · rw [← hdir]
    exact h.hostAddr
  · rw [← hdir, hres]
    exact h.epAddr
  · rw [hres]
    exact h.result

/-- One more transfer, which carries the next pieces. -/
theorem SentOk.append {e : DmaEngine} {ep n : Nat} {ps : List SwDesc} {sent : List Sent} {x : Sent}
    (h : SentOk e ep ps sent) (hn : (sent.flatMap Sent.descs).length = n)
    (hrows : (sent ++ [x]).map Sent.row <+: Rows.rows e.descMax e.descIdx ps.length) (hreads : x.Reads)
    (hlen : (x.descs.map Desc.bytes).sum < 2 ^ 32 → x.xfer.len = (x.descs.map Desc.bytes).sum)
    (hcarries : ∀ i (hi : i < x.descs.length), ∃ h' : n + i < ps.length,
      Carries e (e.epAt ep (lens (ps.take (n + i))))
        (e.cyclicResultBus + resultSize * ((e.descIdx + (n + i)) % e.descMax)) ps[n + i] x.descs[i]) :
    SentOk e ep ps (sent ++ [x]) where
  rows := hrows
  reads := by
    intro y hy
    rcases List.mem_append.1 hy with hy | hy
    · exact h.reads y hy
    · rw [List.mem_singleton.1 hy]
      exact hreads
  len := by
    intro y hy
    rcases List.mem_append.1 hy with hy | hy
    · exact h.len y hy
    · rw [List.mem_singleton.1 hy]
      exact hlen
  carries := by
    intro j hj
    simp only [List.flatMap_append, List.flatMap_singleton] at hj ⊢
    by_cases hold : j < (sent.flatMap Sent.descs).length
    · rw [List.getElem_append_left hold]
      exact h.carries j hold
    · have hlast : j - (sent.flatMap Sent.descs).length < x.descs.length := by
        rw [List.length_append] at hj
        omega
      have hplace : n + (j - (sent.flatMap Sent.descs).length) = j := by omega
      obtain ⟨hin, hcarry⟩ := hcarries _ hlast
      simp only [hplace] at hin hcarry
      rw [List.getElem_append_right (Nat.le_of_not_lt hold)]
      exact ⟨hin, hcarry⟩

namespace Carried

variable {ps : List SwDesc} {e : DmaEngine} {ep : Nat} (h : Carried a ps e ep st)
  (hidx : e.descIdx < e.descMax)
include h hidx

theorem slot_lt : (st.sys.engines a.key).descIdx < (st.sys.engines a.key).descMax := by
  rw [h.descIdx, h.ring.descMax]
  exact Nat.mod_lt _ (by omega)

/-- What `transfer_init` makes of the next pieces. -/
theorem initiated : Initiated a.eopFlush (!a.dmaMapped) (st.sys.engines a.key) st.req
    ((st.sys.engines a.key).nextPieces st.req) (st.next a) :=
  transferInit_initiated (h.slot_lt hidx) (h.cnt.trans (congrArg List.length h.sdesc).symm)

/-- The next transfer takes the next row. -/
theorem next_row (hleft : st.req.swDescIdx < ps.length) :
    let n := ((st.sys.engines a.key).nextPieces st.req).length
    0 < n ∧ st.req.swDescIdx + n ≤ ps.length ∧
      (st.sys.engines a.key).descIdx + n ≤ (st.sys.engines a.key).descMax ∧
      Rows.rows e.descMax ((e.descIdx + st.req.swDescIdx) % e.descMax) (ps.length - st.req.swDescIdx) =
        ((st.sys.engines a.key).descIdx, n) ::
          Rows.rows e.descMax ((e.descIdx + (st.req.swDescIdx + n)) % e.descMax)
            (ps.length - (st.req.swDescIdx + n)) := by
  have hlt := h.slot_lt hidx
  have hlen := length_nextPieces hlt (h.cnt.trans (congrArg List.length h.sdesc).symm)
  have hnum : (st.sys.engines a.key).nextNum st.req = _ := nextNum_eq hlt
  rw [h.cnt] at hnum
  dsimp only
  rw [hlen, hnum]
  rw [h.ring.descMax] at hlt ⊢
  rw [← h.descIdx]
  refine ⟨by omega, by omega, by omega, ?_⟩
  rw [Rows.rows, dif_neg (by omega)]
  congr 1
  have hmod : ∀ n, (e.descIdx + (st.req.swDescIdx + n)) % e.descMax =
      ((st.sys.engines a.key).descIdx + n) % e.descMax := by
    intro n
    rw [h.descIdx, Nat.mod_add_mod, Nat.add_assoc]
  rw [hmod]
  congr 1
  omega

omit hidx in
theorem nextPieces_eq : (st.sys.engines a.key).nextPieces st.req = (ps.drop st.req.swDescIdx).take
    ((st.sys.engines a.key).nextPieces st.req).length := by
  unfold DmaEngine.nextPieces
  rw [h.sdesc, List.length_take, ← List.take_take, List.take_length]

theorem next_desc (i : Nat) : (st.next a).1.desc ((st.next a).2.2.descIndex + i) =
    builtRing a.eopFlush (st.sys.engines a.key) st.req.epAddr ((st.sys.engines a.key).nextPieces st.req)
      ((st.sys.engines a.key).descIdx + i) := by
  rw [(h.initiated hidx).engine, (h.initiated hidx).descIndex]

/-- The descriptors of the next transfer carry the next pieces. -/
theorem next_carries (hleft : st.req.swDescIdx < ps.length) {i : Nat}
    (hi : i < ((st.sys.engines a.key).nextPieces st.req).length) :
    ∃ h' : st.req.swDescIdx + i < ps.length,
      Carries e (e.epAt ep (lens (ps.take (st.req.swDescIdx + i))))
        (e.cyclicResultBus + resultSize * ((e.descIdx + (st.req.swDescIdx + i)) % e.descMax))
        ps[st.req.swDescIdx + i] ((st.next a).1.desc ((st.next a).2.2.descIndex + i)) := by
  obtain ⟨-, hle, hinside, -⟩ := h.next_row hidx hleft
  have hpieces := h.nextPieces_eq
  rw [h.next_desc hidx]
  generalize (st.sys.engines a.key).nextPieces st.req = qs at *
  have hplace : st.req.swDescIdx + i < ps.length := by omega
  have hring : (st.sys.engines a.key).descIdx + i = (e.descIdx + (st.req.swDescIdx + i)) % e.descMax := by
    rw [h.descIdx, h.ring.descMax] at hinside
    rw [h.descIdx, ← Nat.add_assoc, ← Nat.mod_add_mod (e.descIdx + st.req.swDescIdx),
      Nat.mod_eq_of_lt (show (e.descIdx + st.req.swDescIdx) % e.descMax + i < e.descMax by omega)]
  have hpiece : qs[i] = ps[st.req.swDescIdx + i] := by
    rw [List.getElem_of_eq hpieces, List.getElem_take, List.getElem_drop]
  have htaken : lens (ps.take (st.req.swDescIdx + i)) =
      lens (ps.take st.req.swDescIdx) + lens (qs.take i) := by
    have hcut : qs.take i = (ps.drop st.req.swDescIdx).take i := by
      rw [hpieces, List.take_take, Nat.min_eq_left (Nat.le_of_lt hi)]
    rw [List.take_add, lens_append, hcut]
  refine ⟨hplace, ?_⟩
  rw [← hring, ← hpiece, htaken, ← epAt_add, ← h.ring.cyclicResultBus]
  have hmove := (@builtRing_placed (st.sys.engines a.key) a.eopFlush _ _ qs i hi h.epAddr).carries.engine
    h.ring.dir h.ring.streaming
  rwa [show (st.sys.engines a.key).epAt = e.epAt from epAt_congr h.ring.nonIncrAddr] at hmove

variable (halign : e.descBus % 4096 = 0) (hfit : e.descBus + descSize * e.descMax ≤ 2 ^ 64)
include halign hfit

/-- The next transfer reads as it should, and its descriptors carry the next pieces. -/
theorem next_sent (hleft : st.req.swDescIdx < ps.length) (o : Option Outcome) :
    let x : Sent := ⟨(st.next a).2.2, (st.next a).1, o⟩
    let n := ((st.sys.engines a.key).nextPieces st.req).length
    x.row = ((st.sys.engines a.key).descIdx, n) ∧ x.Reads ∧ x.descs.length = n ∧
      ((x.descs.map Desc.bytes).sum < 2 ^ 32 → x.xfer.len = (x.descs.map Desc.bytes).sum) ∧
      ∀ i (hi : i < x.descs.length), ∃ h' : st.req.swDescIdx + i < ps.length,
        Carries e (e.epAt ep (lens (ps.take (st.req.swDescIdx + i))))
          (e.cyclicResultBus + resultSize * ((e.descIdx + (st.req.swDescIdx + i)) % e.descMax))
          ps[st.req.swDescIdx + i] x.descs[i] := by
  obtain ⟨hpos, -, hinside, -⟩ := h.next_row hidx hleft
  have hinit := h.initiated hidx
  have hdesc := h.next_desc hidx
  have hcarries := fun i (hi : i < ((st.sys.engines a.key).nextPieces st.req).length) =>
    h.next_carries hidx hleft hi
  generalize (st.sys.engines a.key).nextPieces st.req = qs at *
  dsimp only
  have hlength : (Sent.descs ⟨(st.next a).2.2, (st.next a).1, o⟩).length = qs.length := by
    rw [Sent.length_descs, hinit.descNum]
  refine ⟨?_, ?_, hlength, fun hlt => ?_, fun i hi => ?_⟩
  · unfold Sent.row
    rw [hinit.descIndex, hinit.descNum]
  · have hreads := @builtRing_reads (st.sys.engines a.key) a.eopFlush st.req.epAddr qs hpos hinside
      (by rw [h.ring.descBus]; exact halign) (by rw [h.ring.descBus, h.ring.descMax]; exact hfit)
    unfold Sent.Reads Sent.descs
    dsimp only
    rw [hinit.engine, hinit.descBus, hinit.descAdjacent, hinit.descNum, hinit.descIndex]
    exact hreads
  · have hbytes : (Sent.descs ⟨(st.next a).2.2, (st.next a).1, o⟩).map Desc.bytes = qs.map SwDesc.len := by
      apply List.ext_getElem
      · rw [List.length_map, List.length_map, hlength]
      · intro i hi hi'
        rw [List.length_map] at hi'
        rw [List.getElem_map, List.getElem_map, Sent.getElem_descs, hdesc i]
        exact (@builtRing_placed (st.sys.engines a.key) a.eopFlush _ _ qs i hi' h.epAddr).carries.bytes
    rw [hbytes] at hlt ⊢
    exact hinit.len hlt
  · rw [Sent.getElem_descs]
    exact hcarries i (hlength ▸ hi)

/-- A pass with pieces left sends the next ones. -/
theorem pass {t : SubmitState} (hframe : TurnFrame a st t) (hmore : st.nents ≠ 0) :
    Carried a ps e ep t := by
  have hleft : st.req.swDescIdx < ps.length := by
    have hnents := h.nents
    omega
  obtain ⟨hpos, hle, -, hrow⟩ := h.next_row hidx hleft
  have hinit := h.initiated hidx
  have hpieces := h.nextPieces_eq
  obtain ⟨o, hsent⟩ := hframe.sent
  obtain ⟨hrowx, hreads, hlength, hlen, hcarries⟩ := h.next_sent hidx halign hfit hleft o
  generalize (st.sys.engines a.key).nextPieces st.req = qs at *
  have hi : t.req.swDescIdx = st.req.swDescIdx + qs.length := by
    rw [hframe.req, hinit.swDescIdx]
  have hrows : t.sent.map Sent.row ++ Rows.rows e.descMax
      ((e.descIdx + (st.req.swDescIdx + qs.length)) % e.descMax)
        (ps.length - (st.req.swDescIdx + qs.length)) = Rows.rows e.descMax e.descIdx ps.length := by
    rw [hsent, List.map_append, List.append_assoc, List.map_singleton, hrowx, List.singleton_append,
      ← hrow]
    exact h.rows
  constructor
  case sdesc => rw [hframe.req, hinit.sdesc, h.sdesc]
  case cnt => rw [hframe.req, hinit.swDescCnt, h.cnt]
  case idx => rw [hi]; exact hle
  case nents =>
    have hnents := hframe.nents
    have hbefore := h.nents
    rw [hinit.descNum] at hnents
    omega
  case left =>
    refine hframe.left.imp_left fun hnents => ?_
    have hbefore := h.left.resolve_right fun hfinished => hmore hfinished.1
    rw [hinit.descNum] at hnents
    omega
  case ring => exact (h.ring.trans (by rw [hinit.engine]; exact ⟨rfl, rfl, rfl, rfl, rfl, rfl, rfl⟩)).trans hframe.ring
  case descIdx =>
    rw [hframe.descIdx, hinit.engine, hi]
    dsimp only
    rw [h.descIdx, h.ring.descMax, Nat.mod_add_mod, Nat.add_assoc]
  case epAddr =>
    have hlens : lens (ps.take (st.req.swDescIdx + qs.length)) =
        lens (ps.take st.req.swDescIdx) + lens qs := by
      rw [List.take_add, lens_append, ← hpieces]
    rw [hframe.req, hinit.epAddr _ h.epAddr, hinit.swDescIdx, hlens, ← epAt_add, epAt_congr h.ring.nonIncrAddr]
  case rows =>
    rw [hi]
    exact hrows
  case length =>
    rw [hsent, List.flatMap_append, List.length_append, h.length, List.flatMap_singleton, hlength, hi]
  case ok =>
    rw [hsent] at hrows ⊢
    exact h.ok.append h.length ⟨_, hrows⟩ hreads hlen hcarries

end Carried

/-! ## The loop -/

/-- **The loop ends**, after a pass that failed or with nothing left, and what its passes keep
holds then. -/
theorem submitTurns_ends {turns : Nat → Turn} {P : Int → SubmitState → Prop}
    (hstep : ∀ rv st turn, P rv st → 0 ≤ rv → st.nents ≠ 0 →
      P (submitTurn a turn st).1 (submitTurn a turn st).2 ∧ (submitTurn a turn st).2.nents < st.nents)
    {fuel : Nat} {rv : Int} (hrv : 0 ≤ rv) (hfuel : st.nents ≤ fuel) (h : P rv st) :
    ∃ r, submitTurns a turns fuel rv st = some r ∧ P r.1 r.2 ∧ (r.1 < 0 ∨ r.2.nents = 0) := by
  induction fuel generalizing rv st with
  | zero =>
    have hdone : st.nents = 0 := by omega
    rw [submitTurns, if_pos hdone]
    exact ⟨_, rfl, h, .inr hdone⟩
  | succ fuel ih =>
    rw [submitTurns]
    by_cases hdone : st.nents = 0
    · rw [if_pos hdone]
      exact ⟨_, rfl, h, .inr hdone⟩
    · rw [if_neg hdone]
      obtain ⟨hnext, hless⟩ := hstep rv st (turns st.sent.length) h hrv hdone
      rcases hturn : submitTurn a (turns st.sent.length) st with ⟨rv', st'⟩
      rw [hturn] at hnext hless
      dsimp only at hless ⊢
      by_cases hneg : rv' < 0
      · rw [if_pos hneg]
        exact ⟨_, rfl, hnext, .inl hneg⟩
      · rw [if_neg hneg]
        exact ih (by omega) (by omega) hnext

theorem Carried.less {ps : List SwDesc} {e : DmaEngine} {ep : Nat} {t : SubmitState}
    (h : Carried a ps e ep st) (hidx : e.descIdx < e.descMax) (hframe : TurnFrame a st t)
    (hmore : st.nents ≠ 0) : t.nents < st.nents := by
  have hleft := h.nents
  obtain ⟨hpos, -, -, -⟩ := h.next_row hidx (by omega)
  have hinit := h.initiated hidx
  have hnents := hframe.nents
  rw [hinit.descNum] at hnents
  omega

end

/-! ## A call -/

section

variable {kernel : Kernel} {a : IoCall} {turns : Nat → Turn}

theorem mapped_entries (a : IoCall) (kernel : Kernel) (s : Sys) :
    (a.mapped kernel s).sgt.entries = a.entries kernel s := by
  unfold IoCall.mapped IoCall.entries
  split
  · rfl
  · exact List.take_length

theorem mapped_engines (a : IoCall) (kernel : Kernel) (s : Sys) :
    (a.mapped kernel s).engines = s.engines := by
  unfold IoCall.mapped
  split <;> rfl

/-- A call is refused before it takes anything, or has its scatter list mapped. -/
theorem begin_ways (a : IoCall) (dev : Device) (kernel : Kernel) (s : Sys) :
    (∃ rv log, rv < 0 ∧ a.begin dev kernel s = .error (rv, { s with log := log })) ∨
    ∃ log, (a.mapped kernel s).sgt.nents ≠ 0 ∧
      a.begin dev kernel s = .ok (a.mapped kernel { s with log := log }) := by
  unfold IoCall.begin
  cases a.devHndl with
  | none => exact .inl ⟨_, s.log, by decide, rfl⟩
  | some hndl =>
    dsimp only
    obtain ⟨log, hlog⟩ := debugCheckDevHndl_log dev hndl s
    rcases hcheck : debugCheckDevHndl dev hndl s with ⟨ret, s'⟩
    rw [hcheck] at hlog
    dsimp only at hlog ⊢
    subst hlog
    split
    · exact .inl ⟨_, _, by decide, rfl⟩
    split
    · exact .inl ⟨_, _, by decide, rfl⟩
    split
    · exact .inl ⟨_, _, by decide, rfl⟩
    unfold IoCall.map
    dsimp only
    split
    · exact .inl ⟨_, _, by decide, rfl⟩
    split
    · exact .inl ⟨_, _, by decide, rfl⟩
    split
    · exact .inl ⟨_, _, by decide, rfl⟩
    split
    · exact .inl ⟨_, _, by decide, rfl⟩
    split
    · exact .inl ⟨_, _, by decide, rfl⟩
    next hentries hnents =>
      refine .inr ⟨log, ?_, rfl⟩
      unfold IoCall.mapped
      by_cases hmap : a.dmaMapped = true
      · rw [if_pos hmap]
        exact fun hzero => hnents ⟨hmap, hzero⟩
      · rw [if_neg hmap]
        exact fun hzero => hentries ⟨by simpa using hmap, List.eq_nil_of_length_eq_zero hzero⟩

/-- No request is to be had, or it holds the pieces. -/
theorem initRequest_ways (hm : 0 < kernel.descBlenMax) (es : List SgEntry) (epAddr : Nat) (s : Sys) :
    (∃ log back, (back = [] ∨ back = [.allocated, .freed]) ∧ initRequest kernel es epAddr s =
      some (none, { s with log := log, resources := s.resources ++ back })) ∨
    ∃ req, req.sdesc = pieces kernel.descBlenMax es ∧
      req.swDescCnt = (pieces kernel.descBlenMax es).length ∧ req.swDescIdx = 0 ∧
      req.epAddr = epAddr ∧ initRequest kernel es epAddr s = some (some req, s.record .allocated) := by
  unfold initRequest requestAlloc
  rw [if_neg (by omega)]
  split_ifs with hmem
  · dsimp only
    split_ifs with hlong
    · refine .inl ⟨s.log ++ ["Cannot transfer more than supported length %d\n"], [.allocated, .freed],
        .inr rfl, ?_⟩
      simp [Sys.record, Sys.print]
    · exact .inr ⟨_, rfl, rfl, rfl, rfl, rfl⟩
  · refine .inl ⟨s.log ++ ["OOM, %u sw_desc, %u.\n"], [], .inl rfl, ?_⟩
    simp [Sys.print]

/-- The bus addresses of the bytes in the host's memory that a descriptor moves. -/
def Desc.busBytes (dir : Direction) (d : Desc) : List Nat :=
  (List.range d.bytes).map fun i => u64 (d.hostAddr dir + i)

theorem Carries.busBytes {e : DmaEngine} {ep bus : Nat} {p : SwDesc} {d : Desc} (h : Carries e ep bus p d) :
    d.busBytes e.dir = p.hostBytes := by
  unfold Desc.busBytes SwDesc.hostBytes
  rw [h.bytes, h.hostAddr]
  refine List.map_congr_left fun i _ => ?_
  unfold u64
  omega

/-- What was sent are the bytes of as many pieces. -/
theorem SentOk.busBytes {e : DmaEngine} {ep : Nat} {ps : List SwDesc} {sent : List Sent}
    (h : SentOk e ep ps sent) : (sent.flatMap Sent.descs).map (Desc.busBytes e.dir) =
      (ps.take (sent.flatMap Sent.descs).length).map SwDesc.hostBytes := by
  have hle : (sent.flatMap Sent.descs).length ≤ ps.length := by
    by_contra hlt
    obtain ⟨hin, -⟩ := h.carries ps.length (by omega)
    exact Nat.lt_irrefl _ hin
  apply List.ext_getElem
  · rw [List.length_map, List.length_map, List.length_take, Nat.min_eq_left hle]
  · intro j hj _
    rw [List.length_map] at hj
    obtain ⟨_, hcarries⟩ := h.carries j hj
    rw [List.getElem_map, List.getElem_map, List.getElem_take]
    exact hcarries.busBytes

/-- The first transfers. -/
theorem SentOk.left {e : DmaEngine} {ep : Nat} {ps : List SwDesc} {xs ys : List Sent}
    (h : SentOk e ep ps (xs ++ ys)) : SentOk e ep ps xs where
  rows := by
    have hrows := h.rows
    rw [List.map_append] at hrows
    exact (List.prefix_append _ _).trans hrows
  reads := fun x hx => h.reads x (List.mem_append_left _ hx)
  len := fun x hx => h.len x (List.mem_append_left _ hx)
  carries := fun j hj => by
    have hlt : j < ((xs ++ ys).flatMap Sent.descs).length := by
      rw [List.flatMap_append, List.length_append]
      omega
    obtain ⟨hin, hcarries⟩ := h.carries j hlt
    refine ⟨hin, ?_⟩
    simp only [List.flatMap_append, List.getElem_append_left hj] at hcarries
    exact hcarries

theorem SentOk.nil (e : DmaEngine) (ep : Nat) (ps : List SwDesc) : SentOk e ep ps [] where
  rows := List.nil_prefix
  reads := fun _ hx => absurd hx List.not_mem_nil
  len := fun _ hx => absurd hx List.not_mem_nil
  carries := fun j h => absurd h (Nat.not_lt_zero j)

/-- Before the first pass. -/
theorem Carried.start {ps : List SwDesc} {req : RequestCb} {s : Sys} (hsdesc : req.sdesc = ps)
    (hcnt : req.swDescCnt = ps.length) (hidx : req.swDescIdx = 0)
    (hslot : (s.engines a.key).descIdx < (s.engines a.key).descMax) :
    Carried a ps (s.engines a.key) req.epAddr ⟨s, req, req.swDescCnt, 0, []⟩ where
  sdesc := hsdesc
  cnt := hcnt
  idx := by rw [hidx]; exact Nat.zero_le _
  nents := by rw [hidx, hcnt]; exact Nat.le_refl _
  left := .inl (by rw [hidx, hcnt]; rfl)
  ring := .refl _
  descIdx := by rw [hidx, Nat.add_zero, Nat.mod_eq_of_lt hslot]
  epAddr := by
    rw [hidx]
    unfold DmaEngine.epAt
    split <;> rfl
  rows := by rw [hidx, Nat.add_zero, Nat.mod_eq_of_lt hslot]; rfl
  length := hidx.symm
  ok := .nil _ _ _

/-- The first bytes of the scatter list. -/
theorem SentOk.begins {e : DmaEngine} {ep : Nat} {es : List SgEntry} {sent : List Sent}
    (h : SentOk e ep (pieces kernel.descBlenMax es) sent) (hm : 0 < kernel.descBlenMax) :
    (sent.flatMap Sent.descs).flatMap (Desc.busBytes e.dir) <+: es.flatMap SgEntry.hostBytes := by
  obtain ⟨rest, hrest⟩ := List.take_prefix (sent.flatMap Sent.descs).length (pieces kernel.descBlenMax es)
  rw [List.flatMap_def, h.busBytes, ← List.flatMap_def, ← hostBytes_pieces hm]
  refine ⟨rest.flatMap SwDesc.hostBytes, ?_⟩
  rw [← List.flatMap_append, hrest]

/-- The transfers of a call whose request has `n` pieces. -/
structure HandsOver (a : IoCall) (n : Nat) (sent : List Sent) : Prop where
  /-- at most the last one did not end well -/
  well : ∀ x ∈ sent.dropLast, x.endedWell = true
  /-- they take all pieces, unless the last one ends the call -/
  all : (sent.flatMap Sent.descs).length = n ∨
    ∃ x ∈ sent.getLast?, x.endedWell = false ∨ x.finishes a = true

/-- When the loop has come to its end. -/
theorem Carried.handsOver {ps : List SwDesc} {e : DmaEngine} {ep : Nat} {rv : Int} {st : SubmitState}
    (h : Carried a ps e ep st) (hhanded : Handed rv st.sent) (hend : rv < 0 ∨ st.nents = 0) :
    HandsOver a ps.length st.sent := by
  obtain ⟨well, rest, hsent, hwell, hrest, hone⟩ := hhanded.parts
  by_cases hneg : rv < 0
  · rw [if_pos hneg] at hone
    obtain ⟨x, rfl⟩ := List.length_eq_one_iff.1 hone
    rw [hsent]
    refine ⟨?_, .inr ⟨x, ?_, .inl (hrest x (List.mem_singleton.2 rfl))⟩⟩
    · rw [List.dropLast_concat]
      exact hwell
    · rw [List.getLast?_concat]
      exact rfl
  · rw [if_neg hneg] at hone
    obtain rfl := List.eq_nil_of_length_eq_zero hone
    rw [List.append_nil] at hsent
    refine ⟨fun x hx => hwell x (hsent ▸ List.dropLast_subset _ hx), ?_⟩
    rcases h.left with hleft | ⟨-, x, hx, hfinish⟩
    · have hidx := h.idx
      have hnents := hend.resolve_left hneg
      rw [h.length]
      exact .inl (by omega)
    · exact .inr ⟨x, hx, .inr hfinish⟩

/-- What the loop keeps, from its first pass to its last. -/
theorem loop_carries {req : RequestCb} {ps : List SwDesc} {s : Sys} (hsdesc : req.sdesc = ps)
    (hcnt : req.swDescCnt = ps.length) (hzero : req.swDescIdx = 0)
    (hidx : (s.engines a.key).descIdx < (s.engines a.key).descMax)
    (halign : (s.engines a.key).descBus % 4096 = 0)
    (hfit : (s.engines a.key).descBus + descSize * (s.engines a.key).descMax ≤ 2 ^ 64) :
    ∃ r, submitTurns a turns req.swDescCnt 0 ⟨s, req, req.swDescCnt, 0, []⟩ = some r ∧
      (Carried a ps (s.engines a.key) req.epAddr r.2 ∧ Handed r.1 r.2.sent) ∧ (r.1 < 0 ∨ r.2.nents = 0) :=
  submitTurns_ends (P := fun rv st => Carried a ps (s.engines a.key) req.epAddr st ∧ Handed rv st.sent)
    (fun _ st turn h hrv hmore => have hframe := submitTurn_frame a turn st
      ⟨⟨h.1.pass hidx halign hfit hframe hmore, submitTurn_handed h.2 hrv a turn⟩,
        h.1.less hidx hframe hmore⟩)
    (Int.le_refl 0) (Nat.le_refl _) ⟨Carried.start hsdesc hcnt hzero hidx, .nil⟩

/-- The state when the loop of a call begins. -/
def IoCall.entered (a : IoCall) (kernel : Kernel) (s : Sys) : Sys :=
  ((a.mapped kernel s).record .allocated).acquire .descLock

theorem entered_engines (a : IoCall) (kernel : Kernel) (s : Sys) :
    (a.entered kernel s).engines = s.engines := mapped_engines a kernel s

/-- A call passes its checks, and there is a request for it. -/
def IoCall.Granted (a : IoCall) (dev : Device) (kernel : Kernel) (s : Sys) : Prop :=
  ∃ u req v, a.begin dev kernel s = .ok u ∧
    initRequest kernel u.sgt.entries a.epAddr u = some (some req, v)

/-- The three ways of a call: it takes nothing, it gets no request, or its loop runs. -/
theorem xferSubmit_ways (dev : Device) (hm : 0 < kernel.descBlenMax) (a : IoCall)
    (turns : Nat → Turn) (s : Sys) :
    (∃ rv log, rv < 0 ∧ ¬ a.Granted dev kernel s ∧
      xferSubmit dev kernel a turns s = some ⟨rv, { s with log := log }, []⟩) ∨
    (∃ log log' back, (a.mapped kernel s).sgt.nents ≠ 0 ∧ (back = [] ∨ back = [.allocated, .freed]) ∧
      ¬ a.Granted dev kernel s ∧ xferSubmit dev kernel a turns s = some ⟨-ENOMEM,
        unmapCall a { a.mapped kernel { s with log := log } with
          log := log', resources := (a.mapped kernel { s with log := log }).resources ++ back }, []⟩) ∨
    ∃ log req, (a.mapped kernel s).sgt.nents ≠ 0 ∧ a.Granted dev kernel s ∧
      req.sdesc = pieces kernel.descBlenMax (a.entries kernel s) ∧
      req.swDescCnt = (pieces kernel.descBlenMax (a.entries kernel s)).length ∧ req.swDescIdx = 0 ∧
      req.epAddr = a.epAddr ∧ xferSubmit dev kernel a turns s =
        (submitTurns a turns req.swDescCnt 0
          ⟨a.entered kernel { s with log := log }, req, req.swDescCnt, 0, []⟩).map fun r =>
            ⟨if r.2.done ≠ 0 then r.2.done else r.1,
              (unmapCall a (r.2.sys.release .descLock)).record .freed, r.2.sent⟩ := by
  unfold xferSubmit
  rcases begin_ways a dev kernel s with ⟨rv, log, hneg, heq⟩ | ⟨log, hnents, heq⟩
  · rw [heq]
    refine .inl ⟨rv, log, hneg, ?_, rfl⟩
    rintro ⟨u, _, _, hbegin, -⟩
    rw [heq] at hbegin
    cases hbegin
  have hbegin := heq
  rw [heq]
  dsimp only
  unfold xferMapped
  rw [← mapped_entries a kernel s]
  have hsgt : (a.mapped kernel { s with log := log }).sgt = (a.mapped kernel s).sgt := by
    unfold IoCall.mapped
    split <;> rfl
  rcases initRequest_ways hm (a.mapped kernel { s with log := log }).sgt.entries a.epAddr
    (a.mapped kernel { s with log := log }) with ⟨log', back, hback, hreq⟩ |
      ⟨req, hsdesc, hcnt, hzero, hep, hreq⟩
  · have hno : ¬ a.Granted dev kernel s := by
      rintro ⟨u, _, _, hu, hsome⟩
      rw [hbegin, Except.ok.injEq] at hu
      rw [← hu, hreq] at hsome
      cases hsome
    rw [hreq]
    exact .inr (.inl ⟨log, log', back, hnents, hback, hno, rfl⟩)
  · have hgranted : a.Granted dev kernel s := ⟨_, req, _, hbegin, hreq⟩
    rw [hreq]
    rw [hsgt] at hsdesc hcnt
    refine .inr (.inr ⟨log, req, hnents, hgranted, hsdesc, hcnt, hzero, hep, ?_⟩)
    dsimp only
    show _ = (submitTurns a turns req.swDescCnt 0 ⟨((a.mapped kernel { s with log := log }).record
      .allocated).acquire .descLock, req, req.swDescCnt, 0, []⟩).map _
    cases submitTurns a turns req.swDescCnt 0 _ <;> rfl

/-- **What a synchronous call sends.**  It returns, when each of its waits ends (with a
`timeout_ms` of 0 or less nothing bounds them).  Its transfers lie one after another round the
ring, the card reads just their descriptors, and these carry the pieces of the scatter list and
the bytes that it begins with.  A call that is granted hands over all pieces, unless a transfer
does not end well or completes the request early; any other sends nothing. -/
theorem submit_carries {dev : Device} {s : Sys} (hm : 0 < kernel.descBlenMax)
    (hidx : (s.engines a.key).descIdx < (s.engines a.key).descMax)
    (halign : (s.engines a.key).descBus % 4096 = 0)
    (hfit : (s.engines a.key).descBus + descSize * (s.engines a.key).descMax ≤ 2 ^ 64) :
    ∃ r, xferSubmit dev kernel a turns s = some r ∧
      SentOk (s.engines a.key) a.epAddr (pieces kernel.descBlenMax (a.entries kernel s)) r.sent ∧
      (r.sent.flatMap Sent.descs).flatMap (Desc.busBytes (s.engines a.key).dir) <+:
        (a.entries kernel s).flatMap SgEntry.hostBytes ∧
      (a.Granted dev kernel s →
        HandsOver a (pieces kernel.descBlenMax (a.entries kernel s)).length r.sent) ∧
      (¬ a.Granted dev kernel s → r.sent = []) := by
  suffices h : ∃ r, xferSubmit dev kernel a turns s = some r ∧
      SentOk (s.engines a.key) a.epAddr (pieces kernel.descBlenMax (a.entries kernel s)) r.sent ∧
      (a.Granted dev kernel s →
        HandsOver a (pieces kernel.descBlenMax (a.entries kernel s)).length r.sent) ∧
      (¬ a.Granted dev kernel s → r.sent = []) by
    obtain ⟨r, hr, hok, hall⟩ := h
    exact ⟨r, hr, hok, hok.begins hm, hall⟩
  rcases xferSubmit_ways dev hm a turns s with ⟨_, _, -, hno, heq⟩ | ⟨_, _, _, -, -, hno, heq⟩ |
    ⟨log, req, -, hgranted, hsdesc, hcnt, hzero, hep, heq⟩
  · exact ⟨_, heq, .nil _ _ _, fun hyes => absurd hyes hno, fun _ => rfl⟩
  · exact ⟨_, heq, .nil _ _ _, fun hyes => absurd hyes hno, fun _ => rfl⟩
  · have hengine : (a.entered kernel { s with log := log }).engines = s.engines := entered_engines _ _ _
    rw [heq]
    generalize a.entered kernel { s with log := log } = u at *
    rw [← hengine] at hidx halign hfit ⊢
    obtain ⟨r, hturns, ⟨hcarried, hhanded⟩, hend⟩ :=
      @loop_carries a turns req _ u hsdesc hcnt hzero hidx halign hfit
    rw [hturns]
    exact ⟨_, rfl, hep ▸ hcarried.ok, fun _ => hcarried.handsOver hhanded hend,
      fun hno => absurd hgranted hno⟩

end

/-! The last slot of the ring is next, and two entries are to be sent. -/

def lastSlotEngine : DmaEngine := { restingEngine with descIdx := 0x7ff, streaming := false }

def lastSlotSys : Sys := { restingSys with engines := fun _ => lastSlotEngine }

def pairMapping : Kernel := { lineMapping with dmaMapSg := [lineEntry, lineEntry] }

def writeCall : IoCall := ⟨some 1, 0, true, 0x1000, false, false⟩

/-- The engine stops, and the transfer is completed. -/
def completedTurn : Turn where
  kernel := pairMapping
  service := fun e => ⟨false, e.shutdown, 1, 0, [], e.regs⟩
  outcome := .completed []

theorem writeCall_granted : writeCall.Granted knownDevice pairMapping lastSlotSys :=
  ⟨_, _, _, rfl, initRequest_fits (by decide) (by decide) (by decide)⟩

theorem submit_carries_pair :
    ∃ r, xferSubmit knownDevice pairMapping writeCall (fun _ => completedTurn) lastSlotSys = some r ∧
      SentOk lastSlotEngine 0x1000 (pieces 0x0fffffff [lineEntry, lineEntry]) r.sent ∧
      (r.sent.flatMap Sent.descs).flatMap (Desc.busBytes .toDevice) <+:
        [lineEntry, lineEntry].flatMap SgEntry.hostBytes ∧
      HandsOver writeCall (pieces 0x0fffffff [lineEntry, lineEntry]).length r.sent := by
  obtain ⟨r, hr, hok, hbytes, hall, -⟩ :=
    @submit_carries pairMapping writeCall (fun _ => completedTurn) knownDevice lastSlotSys
      (by decide) (by decide) (by decide) (by decide)
  exact ⟨r, hr, hok, hbytes, hall writeCall_granted⟩

end FpgaDrm.Xdma
