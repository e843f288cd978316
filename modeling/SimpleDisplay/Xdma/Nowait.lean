import SimpleDisplay.Xdma.Accounts

/-!
# Requests that nobody waits for

`xdma_xfer_submit_nowait` queues the transfers of a request one after another.  There are two of
them in `struct xdma_request_cb`, and the call neither counts them nor looks at `desc_used`.
Where its transfers fit, and where they keep off one another, is `nowait_fits`.

`desc_lock` is not taken: no other call is to use the engine meanwhile.
-/

namespace FpgaDrm.Xdma

open Word

/-! ## `xdma_xfer_submit_nowait` -/

/-- The entries of `tfer[]`. -/
def tferCount : Nat := 2

/-- A pass of the loop; the engine is served afterwards. -/
def nowaitTurn (a : IoCall) (pass : Pass) (st : SubmitState) : Int × SubmitState :=
  let (e, req, x) := transferInit a.eopFlush (!a.dmaMapped) (st.sys.engines a.key) st.req
  match transferQueue pass.kernel a.key x (st.sys.setEngine a.key e) with
  | (rv, s) =>
    (rv, { st with
      sys := if rv < 0 then s.print "unable to submit %s, %d.\n"
        else s.setEngine a.key ((s.engines a.key).serve (pass.service (s.engines a.key)))
      req := req
      nents := st.nents - x.descNum
      sent := st.sent ++ [⟨x, e, none⟩] })

inductive NowaitEnd
  | queued
  | refused (rv : Int)
  /-- an entry after the last one of `tfer[]` is written -/
  | overrun

/-- `while (nents)`, with what is left of `tfer[]`. -/
def nowaitTurns (a : IoCall) (passes : Nat → Pass) : (left : Nat) → SubmitState →
    NowaitEnd × SubmitState
  | 0, st => if st.nents = 0 then (.queued, st) else (.overrun, st)
  | left + 1, st =>
    if st.nents = 0 then (.queued, st)
    else
      match nowaitTurn a (passes st.sent.length) st with
      | (rv, st) => if rv < 0 then (.refused rv, st) else nowaitTurns a passes left st

/-- How the call ends, with a record of what was sent; `queued` returns `-EIOCBQUEUED`. -/
structure Nowaited where
  ended : NowaitEnd
  sys : Sys
  sent : List Sent

/-- From the mapped scatter list on. -/
def nowaitMapped (kernel : Kernel) (a : IoCall) (passes : Nat → Pass) (s : Sys) : Option Nowaited :=
  match initRequest kernel s.sgt.entries a.epAddr s with
  | none => none
  | some (none, s) => some ⟨.refused (-ENOMEM), unmapCall a s, []⟩
  | some (some req, s) =>
    match nowaitTurns a passes tferCount ⟨s, req, req.swDescCnt, 0, []⟩ with
    | (.refused rv, st) => some ⟨.refused rv, (unmapCall a st.sys).record .freed, st.sent⟩
    | (ended, st) => some ⟨ended, st.sys, st.sent⟩

/-- `xdma_xfer_submit_nowait`. -/
def xferSubmitNowait (dev : Device) (kernel : Kernel) (a : IoCall) (passes : Nat → Pass) (s : Sys) :
    Option Nowaited :=
  match a.begin dev kernel s with
  | .error (rv, s) => some ⟨.refused rv, s, []⟩
  | .ok s => nowaitMapped kernel a passes s

/-! ## A pass -/

section

variable {a : IoCall} {st : SubmitState} {ps : List SwDesc} {e : DmaEngine} {ep : Nat}

/-- What a pass leaves alone: the service of the engine writes none of it either. -/
theorem nowaitTurn_queues (a : IoCall) (pass : Pass) (st : SubmitState) :
    QueueFrame a.key (st.sys.setEngine a.key (st.next a).1) (nowaitTurn a pass st).2.sys := by
  unfold nowaitTurn
  have hnext : transferInit a.eopFlush (!a.dmaMapped) (st.sys.engines a.key) st.req = st.next a := rfl
  rw [hnext]
  have hframe := transferQueue_frame pass.kernel a.key (st.next a).2.2
    (st.sys.setEngine a.key (st.next a).1)
  rcases hq : transferQueue pass.kernel a.key (st.next a).2.2 (st.sys.setEngine a.key (st.next a).1)
    with ⟨rv, s⟩
  rw [hq] at hframe
  dsimp only
  rw [hq]
  dsimp only at hframe ⊢
  split
  · exact hframe.print _
  · exact hframe.trans (.setEngine ⟨rfl, rfl, rfl, rfl, rfl, rfl, rfl⟩ rfl rfl)

theorem nowaitTurn_frame (a : IoCall) (pass : Pass) (st : SubmitState) :
    TurnFrame a st (nowaitTurn a pass st).2 := by
  obtain ⟨hring, hidx, -⟩ := nowaitTurn_queues a pass st
  rw [Sys.setEngine_self] at hring hidx
  exact ⟨rfl, Nat.le_refl _, .inl rfl, ⟨_, rfl⟩, hring, hidx⟩

/-- What a pass returns. -/
theorem nowaitTurn_ret (a : IoCall) (pass : Pass) (st : SubmitState) :
    (nowaitTurn a pass st).1 = queueVerdict pass.kernel (st.next a).2.2.descNum (st.next a).1 := by
  have hret : (nowaitTurn a pass st).1 = (transferQueue pass.kernel a.key (st.next a).2.2
    (st.sys.setEngine a.key (st.next a).1)).1 := rfl
  rw [hret, transferQueue_ret, Sys.setEngine_self]

/-- A pass counts down the pieces of its transfer. -/
theorem nowaitTurn_left (h : Carried a ps e ep st) (hidx : e.descIdx < e.descMax)
    (hleft : st.nents = ps.length - st.req.swDescIdx) (pass : Pass) :
    (nowaitTurn a pass st).2.nents = ps.length - (nowaitTurn a pass st).2.req.swDescIdx := by
  have hinit := h.initiated hidx
  have hnents : (nowaitTurn a pass st).2.nents = st.nents - (st.next a).2.2.descNum := rfl
  rw [hnents, (nowaitTurn_frame a pass st).req, hinit.swDescIdx, hinit.descNum, hleft]
  omega

/-- The engine after a pass that was not refused is as its service left it. -/
theorem nowaitTurn_shutdown {pass : Pass} (h : 0 ≤ (nowaitTurn a pass st).1) :
    ∃ e, ((nowaitTurn a pass st).2.sys.engines a.key).shutdown = (pass.service e).shutdown := by
  unfold nowaitTurn at h ⊢
  dsimp only at h ⊢
  rw [if_neg (by omega), Sys.setEngine_self]
  exact ⟨_, rfl⟩

/-! ## The loop -/

/-- What every pass keeps, the loop keeps. -/
theorem nowaitTurns_keeps {passes : Nat → Pass} {P : SubmitState → Prop}
    (hpass : ∀ st pass, P st → st.nents ≠ 0 → P (nowaitTurn a pass st).2) (left : Nat) (h : P st) :
    P (nowaitTurns a passes left st).2 := by
  induction left generalizing st with
  | zero =>
    rw [nowaitTurns]
    split <;> exact h
  | succ left ih =>
    rw [nowaitTurns]
    split
    · exact h
    next hmore =>
      have hnext := hpass st (passes st.sent.length) h hmore
      dsimp only
      split
      · exact hnext
      · exact ih hnext

theorem nowaitTurns_queued {passes : Nat → Pass} {left : Nat} {t : SubmitState}
    (h : nowaitTurns a passes left st = (.queued, t)) : t.nents = 0 := by
  induction left generalizing st with
  | zero =>
    rw [nowaitTurns] at h
    split at h
    · obtain ⟨-, rfl⟩ := Prod.mk.inj h
      assumption
    · cases congrArg Prod.fst h
  | succ left ih =>
    rw [nowaitTurns] at h
    split at h
    · obtain ⟨-, rfl⟩ := Prod.mk.inj h
      assumption
    · dsimp only at h
      split at h
      · cases congrArg Prod.fst h
      · exact ih h

/-- Nothing of a pass refuses the transfer of the next one. -/
def Pass.Stays (pass : Pass) : Prop :=
  pass.kernel.offlineAtQueue = false ∧ ∀ e, (pass.service e).shutdown &&& engineShutdownRequest = 0

/-- What the loop keeps: it counts down the pieces that are left, and the engine is open. -/
structure NowaitInv (a : IoCall) (ps : List SwDesc) (e : DmaEngine) (ep : Nat) (st : SubmitState) :
    Prop where
  carried : Carried a ps e ep st
  left : st.nents = ps.length - st.req.swDescIdx
  opened : (st.sys.engines a.key).shutdown &&& engineShutdownRequest = 0

section

variable (hidx : e.descIdx < e.descMax) (halign : e.descBus % 4096 = 0)
  (hfit : e.descBus + descSize * e.descMax ≤ 2 ^ 64)
include hidx halign hfit

theorem NowaitInv.pass (h : NowaitInv a ps e ep st) {pass : Pass} (hstays : pass.Stays)
    (hmore : st.nents ≠ 0) :
    (nowaitTurn a pass st).1 = 0 ∧ NowaitInv a ps e ep (nowaitTurn a pass st).2 ∧
      (nowaitTurn a pass st).2.sent.length = st.sent.length + 1 := by
  have hcarried := h.carried
  have hframe := nowaitTurn_frame a pass st
  have hleft := hcarried.nents
  obtain ⟨hpos, hle, -, -⟩ := hcarried.next_row hidx (by omega)
  have hinit := hcarried.initiated hidx
  have hret : (nowaitTurn a pass st).1 = 0 := by
    have hopen : (st.next a).1.shutdown &&& engineShutdownRequest = 0 := by
      rw [hinit.engine]
      exact h.opened
    have hgoes : ¬ Leaving pass.kernel (st.next a).1 := by
      rintro (hoff | hshut)
      · rw [hstays.1] at hoff
        cases hoff
      · exact hshut hopen
    rw [nowaitTurn_ret]
    unfold queueVerdict
    rw [hinit.descNum, if_neg (by omega), if_neg hgoes]
  refine ⟨hret, ⟨hcarried.pass hidx halign hfit hframe hmore,
    nowaitTurn_left hcarried hidx h.left pass, ?_⟩, ?_⟩
  · obtain ⟨_, hshut⟩ := nowaitTurn_shutdown (Int.le_of_eq hret.symm)
    rw [hshut]
    exact hstays.2 _
  · obtain ⟨_, hsent⟩ := hframe.sent
    rw [hsent, List.length_append]
    rfl

/-- The loop queues everything, or comes to the end of `tfer[]` first. -/
theorem nowaitTurns_ends {passes : Nat → Pass} (hstays : ∀ i, (passes i).Stays) (left : Nat)
    (h : NowaitInv a ps e ep st) :
    NowaitInv a ps e ep (nowaitTurns a passes left st).2 ∧
      (((nowaitTurns a passes left st).1 = .queued ∧ (nowaitTurns a passes left st).2.nents = 0 ∧
          (nowaitTurns a passes left st).2.sent.length ≤ st.sent.length + left) ∨
        ((nowaitTurns a passes left st).1 = .overrun ∧ (nowaitTurns a passes left st).2.nents ≠ 0 ∧
          (nowaitTurns a passes left st).2.sent.length = st.sent.length + left)) := by
  induction left generalizing st with
  | zero =>
    rw [nowaitTurns]
    by_cases hdone : st.nents = 0
    · rw [if_pos hdone]
      exact ⟨h, .inl ⟨rfl, hdone, Nat.le_refl _⟩⟩
    · rw [if_neg hdone]
      exact ⟨h, .inr ⟨rfl, hdone, rfl⟩⟩
  | succ left ih =>
    rw [nowaitTurns]
    by_cases hdone : st.nents = 0
    · rw [if_pos hdone]
      exact ⟨h, .inl ⟨rfl, hdone, Nat.le_add_right _ _⟩⟩
    · obtain ⟨hret, hnext, hlength⟩ := h.pass hidx halign hfit (hstays st.sent.length) hdone
      rw [if_neg hdone]
      dsimp only
      rw [if_neg (by omega)]
      have hrest := ih hnext
      rw [hlength] at hrest
      rwa [Nat.add_right_comm, Nat.add_assoc] at hrest

end

end

/-! ## A call -/

section

variable {dev : Device} {kernel : Kernel} {a : IoCall} {passes : Nat → Pass} {s t : Sys}

/-- The slots up to the end of the ring, and all of them once more. -/
def DmaEngine.room (e : DmaEngine) : Nat := e.descMax - e.descIdx + e.descMax

/-- How a call ends whose transfers are not refused: they fit in `tfer[]`, or overrun it. -/
structure EndsByRoom (e : DmaEngine) (ps : List SwDesc) (r : Nowaited) : Prop where
  queued : ps.length ≤ e.room → r.ended = .queued ∧
    r.sent.map Sent.row = Rows.rows e.descMax e.descIdx ps.length
  overrun : e.room < ps.length → r.ended = .overrun

theorem begin_mapped (h : a.begin dev kernel s = .ok t) :
    t.engines = s.engines ∧ t.sgt.entries = a.entries kernel s := by
  rcases begin_ways a dev kernel s with ⟨_, _, -, heq⟩ | ⟨log, -, heq⟩
  · rw [heq] at h
    cases h
  · rw [heq] at h
    obtain rfl := Except.ok.inj h
    exact ⟨mapped_engines a kernel { s with log := log }, mapped_entries a kernel { s with log := log }⟩

/-- The loop of a call. -/
theorem nowaitTurns_fits {e : DmaEngine} {ep : Nat} {ps : List SwDesc} {req : RequestCb}
    (hidx : e.descIdx < e.descMax) (halign : e.descBus % 4096 = 0)
    (hfit : e.descBus + descSize * e.descMax ≤ 2 ^ 64) (hstays : ∀ i, (passes i).Stays)
    (h : NowaitInv a ps e ep ⟨t, req, req.swDescCnt, 0, []⟩) :
    let r := nowaitTurns a passes tferCount ⟨t, req, req.swDescCnt, 0, []⟩
    SentOk e ep ps r.2.sent ∧ EndsByRoom e ps ⟨r.1, r.2.sys, r.2.sent⟩ := by
  dsimp only
  obtain ⟨hinv, hways⟩ := nowaitTurns_ends hidx halign hfit hstays tferCount h
  generalize nowaitTurns a passes tferCount ⟨t, req, req.swDescCnt, 0, []⟩ = r at *
  have hrows := hinv.carried.rows
  have hleft := hinv.left
  have hcount := @Rows.length_rows_le_two_iff e.descMax e.descIdx ps.length hidx
  have hlength := congrArg List.length hrows
  rw [List.length_append, List.length_map] at hlength
  refine ⟨hinv.carried.ok, ?_⟩
  rcases hways with ⟨hended, hnents, hsent⟩ | ⟨hended, hnents, hsent⟩
  · have hnone : ps.length - r.2.req.swDescIdx = 0 := by omega
    rw [hnone, Rows.rows_zero, List.append_nil] at hrows
    rw [hnone, Rows.rows_zero] at hlength
    have hroom : ps.length ≤ e.room := hcount.1 (by
      rw [← hlength]
      exact hsent)
    exact ⟨fun _ => ⟨hended, hrows⟩, fun hover => absurd hroom (by omega)⟩
  · have hmore := @Rows.length_rows_pos e.descMax ((e.descIdx + r.2.req.swDescIdx) % e.descMax)
      (ps.length - r.2.req.swDescIdx) (Nat.mod_lt _ (by omega)) (by omega)
    have hover : ¬ ps.length ≤ e.room := fun hroom => by
      have htwo := hcount.2 hroom
      have hsent : r.2.sent.length = 0 + 2 := hsent
      omega
    exact ⟨fun hroom => absurd hroom hover, fun _ => hended⟩

/-- How a call ends whose scatter list is mapped. -/
theorem xferSubmitNowait_ends (hbegin : a.begin dev kernel s = .ok t) (hm : 0 < kernel.descBlenMax)
    (hmem : kernel.kzalloc ∨ kernel.vmalloc)
    (hwrap : ∀ e ∈ a.entries kernel s, e.len + kernel.descBlenMax ≤ 2 ^ 32)
    (hidx : (s.engines a.key).descIdx < (s.engines a.key).descMax)
    (halign : (s.engines a.key).descBus % 4096 = 0)
    (hfit : (s.engines a.key).descBus + descSize * (s.engines a.key).descMax ≤ 2 ^ 64)
    (hopen : (s.engines a.key).shutdown &&& engineShutdownRequest = 0)
    (hstays : ∀ i, (passes i).Stays) :
    let ps := pieces kernel.descBlenMax (a.entries kernel s)
    ∃ r, xferSubmitNowait dev kernel a passes s = some r ∧
      SentOk (s.engines a.key) a.epAddr ps r.sent ∧ EndsByRoom (s.engines a.key) ps r := by
  obtain ⟨hengines, hentries⟩ := begin_mapped hbegin
  have hreq := @initRequest_fits kernel t.sgt.entries a.epAddr t hm hmem (hentries ▸ hwrap)
  rw [hentries] at hreq
  generalize hreqq : (⟨a.epAddr, u32 (total (a.entries kernel s)), 0,
    (pieces kernel.descBlenMax (a.entries kernel s)).length,
    pieces kernel.descBlenMax (a.entries kernel s)⟩ : RequestCb) = req at hreq
  generalize pieces kernel.descBlenMax (a.entries kernel s) = ps at *
  obtain ⟨hep, hzero, hcnt, hsdesc⟩ : req.epAddr = a.epAddr ∧ req.swDescIdx = 0 ∧
      req.swDescCnt = ps.length ∧ req.sdesc = ps := by
    rw [← hreqq]
    exact ⟨rfl, rfl, rfl, rfl⟩
  have hsame : (t.record .allocated).engines = s.engines := hengines
  rw [← hsame] at hidx halign hfit hopen ⊢
  have hinv : NowaitInv a ps ((t.record .allocated).engines a.key) a.epAddr
      ⟨t.record .allocated, req, req.swDescCnt, 0, []⟩ :=
    ⟨hep ▸ Carried.start hsdesc hcnt hzero hidx, by rw [hzero, hcnt]; rfl, hopen⟩
  obtain ⟨hok, hfits⟩ := nowaitTurns_fits hidx halign hfit hstays hinv
  unfold xferSubmitNowait nowaitMapped
  rw [hbegin]
  dsimp only
  rw [hentries, hreq]
  dsimp only
  rcases hloop : nowaitTurns a passes tferCount ⟨t.record .allocated, req, req.swDescCnt, 0, []⟩ with
    ⟨ended, st⟩
  rw [hloop] at hok hfits
  cases ended with
  | queued | overrun => exact ⟨_, rfl, hok, hfits⟩
  | refused rv =>
    by_cases hroom : ps.length ≤ ((t.record .allocated).engines a.key).room
    · cases (hfits.queued hroom).1
    · cases hfits.overrun (by omega)

/-- **Where a request fits** whose transfers are not refused.  The two entries of `tfer[]` take as
many pieces as there are slots up to the end of the ring and once round it; with one piece more
the call writes behind them.  Slots are taken twice, and so descriptors lost that the card is
still to read, as soon as there are more pieces than slots. -/
theorem nowait_fits (hbegin : a.begin dev kernel s = .ok t) (hm : 0 < kernel.descBlenMax)
    (hmem : kernel.kzalloc ∨ kernel.vmalloc)
    (hwrap : ∀ e ∈ a.entries kernel s, e.len + kernel.descBlenMax ≤ 2 ^ 32)
    (hidx : (s.engines a.key).descIdx < (s.engines a.key).descMax)
    (halign : (s.engines a.key).descBus % 4096 = 0)
    (hfit : (s.engines a.key).descBus + descSize * (s.engines a.key).descMax ≤ 2 ^ 64)
    (hopen : (s.engines a.key).shutdown &&& engineShutdownRequest = 0)
    (hstays : ∀ i, (passes i).Stays) :
    let ps := pieces kernel.descBlenMax (a.entries kernel s)
    ∃ r, xferSubmitNowait dev kernel a passes s = some r ∧
      SentOk (s.engines a.key) a.epAddr ps r.sent ∧ EndsByRoom (s.engines a.key) ps r ∧
      (r.ended = .queued → (((r.sent.map Sent.row).flatMap Rows.slots).Nodup ↔
        ps.length ≤ (s.engines a.key).descMax)) := by
  obtain ⟨r, hr, hok, hfits⟩ := xferSubmitNowait_ends hbegin hm hmem hwrap hidx halign hfit hopen hstays
  refine ⟨r, hr, hok, hfits, fun hqueued => ?_⟩
  generalize pieces kernel.descBlenMax (a.entries kernel s) = ps at *
  by_cases hroom : ps.length ≤ (s.engines a.key).room
  · rw [(hfits.queued hroom).2]
    exact Rows.nodup_rows_iff hidx
  · have hended : r.ended = .overrun := hfits.overrun (by omega)
    rw [hqueued] at hended
    cases hended

end

/-- The engine stops, and stays open. -/
def servedPass : Pass where
  kernel := pairMapping
  service := fun e => ⟨false, engineShutdownNone, 1, 0, [], e.regs⟩

theorem servedPass_stays : servedPass.Stays :=
  ⟨rfl, fun _ => show engineShutdownNone &&& engineShutdownRequest = 0 by decide⟩

theorem lineEntry_wrap : ∀ e ∈ [lineEntry, lineEntry], e.len + 0x0fffffff ≤ 2 ^ 32 := by decide

theorem servedPass_ends :
    let ps := pieces 0x0fffffff [lineEntry, lineEntry]
    ∃ r, xferSubmitNowait knownDevice pairMapping writeCall (fun _ => servedPass) lastSlotSys = some r ∧
      SentOk lastSlotEngine 0x1000 ps r.sent ∧ EndsByRoom lastSlotEngine ps r :=
  @xferSubmitNowait_ends knownDevice pairMapping writeCall (fun _ => servedPass) lastSlotSys _ rfl
    (by decide) (.inl rfl) lineEntry_wrap (by decide) (by decide) (by decide) (by decide) fun _ =>
      servedPass_stays

theorem nowait_fits_pair :
    let ps := pieces 0x0fffffff [lineEntry, lineEntry]
    ∃ r, xferSubmitNowait knownDevice pairMapping writeCall (fun _ => servedPass) lastSlotSys = some r ∧
      SentOk lastSlotEngine 0x1000 ps r.sent ∧ EndsByRoom lastSlotEngine ps r ∧
      (r.ended = .queued → (((r.sent.map Sent.row).flatMap Rows.slots).Nodup ↔ ps.length ≤ 0x800)) :=
  @nowait_fits knownDevice pairMapping writeCall (fun _ => servedPass) lastSlotSys _ rfl (by decide)
    (.inl rfl) lineEntry_wrap (by decide) (by decide) (by decide) (by decide) fun _ => servedPass_stays

end FpgaDrm.Xdma
