import Mathlib.Algebra.Order.BigOperators.Group.List
import Mathlib.Algebra.Order.Ring.Nat
import SimpleDisplay.Xdma.Sends

/-!
# What a synchronous call reports and gives back

A call of `xdma_xfer_submit` reports the bytes of the transfers that ended well
(`submit_reports`).  It gives back its locks, its mapping and its request, and the slots of its
transfers unless the last one could not be queued (`submit_gives_back`).
-/

namespace FpgaDrm.Xdma

open Word

/-! ## How a transfer ended -/

/-- What it adds to `done`. -/
def Sent.bytes (x : Sent) : Nat :=
  match x.outcome with
  | some o => o.bytes x.engine x.xfer
  | none => 0

/-- The slots that stay in `desc_used`. -/
def Sent.kept (x : Sent) : Nat := if x.outcome.isNone then x.xfer.descNum else 0

/-- `transfer_destroy` unmaps the scatter list. -/
def Sent.unmaps (x : Sent) : Bool := x.outcome.isSome && x.xfer.lastInRequest

theorem Sent.bytes_badly {x : Sent} (h : x.endedWell = false) : x.bytes = 0 := by
  rcases x with ⟨x, e, - | o⟩
  · rfl
  · rcases @Outcome.cases_rv x e o with ⟨hrv, -⟩ | ⟨-, hbytes⟩
    · exact absurd (decide_eq_true hrv) (Bool.eq_false_iff.1 h)
    · exact hbytes

theorem Sent.bytes_well {x : Sent} (h : x.endedWell = true) (hres : x.engine.hasResults = false) :
    x.bytes = x.xfer.len := by
  rcases x with ⟨x, e, - | o⟩
  · cases h
  · rcases @Outcome.cases_rv x e o with ⟨-, hbytes⟩ | ⟨hrv, -⟩
    · exact hbytes hres
    · have hzero : o.rv = 0 := of_decide_eq_true h
      omega

/-! ## A pass -/

/-- The mapping of `s` is given back in `t` when `gone` holds. -/
structure Unmaps (gone : Bool) (s t : Sys) : Prop where
  resources : t.resources = s.resources ++ if gone then [.unmapped s.sgt.nents] else []
  sgt : t.sgt = if gone then { s.sgt with nents := 0 } else s.sgt

theorem transferDestroy_unmaps (key : Bool × Int) (x : QueuedTransfer) (s : Sys) :
    Unmaps (x.lastInRequest && (x.needUnmap && decide (s.sgt.nents ≠ 0))) s (transferDestroy key x s) ∧
      (transferDestroy key x s).held = s.held := by
  unfold transferDestroy
  dsimp only
  generalize hu : Sys.setEngine s key _ = u
  obtain ⟨hsgt, hheld, hresources⟩ : u.sgt = s.sgt ∧ u.held = s.held ∧ u.resources = s.resources := by
    rw [← hu]
    exact ⟨rfl, rfl, rfl⟩
  rw [← hsgt, ← hheld, ← Bool.and_assoc]
  by_cases hgone : (x.lastInRequest && x.needUnmap && decide (u.sgt.nents ≠ 0)) = true
  · rw [if_pos hgone, hgone]
    refine ⟨⟨?_, ?_⟩, rfl⟩
    · rw [← hresources, ← hsgt]
      rfl
    · rw [← hsgt]
      rfl
  · rw [if_neg hgone, Bool.eq_false_iff.2 hgone]
    refine ⟨⟨?_, ?_⟩, rfl⟩
    · rw [← hresources]
      exact (List.append_nil _).symm
    · rw [← hsgt]
      rfl

/-- The books of a call after a pass that ended with `rv`; they began in `s`, and there are `n`
pieces. -/
structure Booked (a : IoCall) (s : Sys) (n : Nat) (rv : Int) (st : SubmitState) : Prop where
  handed : Handed rv st.sent
  done : st.done = (st.sent.map Sent.bytes).sum
  kind : ∀ x ∈ st.sent, x.engine.hasResults = (s.engines a.key).hasResults
  descUsed : (st.sys.engines a.key).descUsed = (s.engines a.key).descUsed + (st.sent.map Sent.kept).sum
  held : st.sys.held = s.held
  last : ∀ x ∈ st.sent, x.xfer.lastInRequest = true → n ≤ st.req.swDescIdx
  unmaps : Unmaps (st.sent.any Sent.unmaps && (!a.dmaMapped && decide (s.sgt.nents ≠ 0))) s st.sys

section

variable {a : IoCall} {st : SubmitState} {s : Sys} {ps : List SwDesc} {e : DmaEngine} {ep : Nat}

theorem Booked.start (a : IoCall) (s : Sys) (n : Nat) (req : RequestCb) :
    Booked a s n 0 ⟨s, req, req.swDescCnt, 0, []⟩ where
  handed := .nil
  done := rfl
  kind := fun _ h => absurd h List.not_mem_nil
  descUsed := (Int.add_zero _).symm
  held := rfl
  last := fun _ h => absurd h List.not_mem_nil
  unmaps := ⟨(List.append_nil _).symm, rfl⟩

/-- One more transfer is entered. -/
theorem Booked.add {n : Nat} {rv rv' : Int} {t : SubmitState} {x : Sent} (h : Booked a s n rv st)
    (hleft : st.req.swDescIdx < n) (hsent : t.sent = st.sent ++ [x]) (hhanded : Handed rv' t.sent)
    (hdone : t.done = st.done + x.bytes) (hkind : x.engine.hasResults = (s.engines a.key).hasResults)
    (hused : (t.sys.engines a.key).descUsed = (st.sys.engines a.key).descUsed + x.kept)
    (hheld : t.sys.held = st.sys.held)
    (hlast : x.xfer.lastInRequest = true → n ≤ t.req.swDescIdx)
    (hunmaps : Unmaps (x.unmaps && (!a.dmaMapped && decide (st.sys.sgt.nents ≠ 0))) st.sys t.sys) :
    Booked a s n rv' t := by
  have hmem : ∀ y ∈ t.sent, y ∈ st.sent ∨ y = x := by
    intro y hy
    rw [hsent] at hy
    exact (List.mem_append.1 hy).imp_right List.mem_singleton.1
  -- while pieces are left, no transfer was the last one
  have hnone : st.sent.any Sent.unmaps = false := by
    rw [List.any_eq_false]
    intro y hy hunmaps
    have hover := h.last y hy (Bool.and_eq_true_iff.1 hunmaps).2
    omega
  obtain ⟨hresources, hsgt⟩ := h.unmaps
  rw [hnone, Bool.false_and] at hresources hsgt
  have hresources : st.sys.resources = s.resources := hresources.trans (List.append_nil _)
  have hsgt : st.sys.sgt = s.sgt := hsgt
  constructor
  case handed => exact hhanded
  case done => rw [hdone, h.done, hsent, List.map_append, List.sum_append, List.map_singleton, List.sum_singleton]
  case kind =>
    intro y hy
    rcases hmem y hy with hy | rfl
    · exact h.kind y hy
    · exact hkind
  case descUsed =>
    rw [hused, h.descUsed, hsent, List.map_append, List.sum_append, List.map_singleton, List.sum_singleton]
    omega
  case held => exact hheld.trans h.held
  case last =>
    intro y hy hyes
    rcases hmem y hy with hy | rfl
    · have hover := h.last y hy hyes
      omega
    · exact hlast hyes
  case unmaps =>
    obtain ⟨hrecord, htable⟩ := hunmaps
    rw [hresources, hsgt] at hrecord
    rw [hsgt] at htable
    rw [hsent, List.any_append, hnone, Bool.false_or, List.any_cons, List.any_nil, Bool.or_false]
    exact ⟨hrecord, htable⟩

/-- A pass keeps the books. -/
theorem Booked.turn {rv : Int} (h : Booked a s ps.length rv st) (hcarried : Carried a ps e ep st)
    (hidx : e.descIdx < e.descMax) (hring : (s.engines a.key).SameRing e) (hrv : 0 ≤ rv)
    (hmore : st.nents ≠ 0) (turn : Turn) :
    Booked a s ps.length (submitTurn a turn st).1 (submitTurn a turn st).2 := by
  have hleft : st.req.swDescIdx < ps.length := by
    have hnents := hcarried.nents
    omega
  have hinit := hcarried.initiated hidx
  have hkind : (st.next a).1.hasResults = (s.engines a.key).hasResults := by
    rw [← hring.hasResults, ← hcarried.ring.hasResults, hinit.engine]
    rfl
  have hused : (st.next a).1.descUsed = (st.sys.engines a.key).descUsed + (st.next a).2.2.descNum := by
    rw [hinit.engine, hinit.descNum]
  have hlast : (st.next a).2.2.lastInRequest = true → ps.length ≤ (st.next a).2.1.swDescIdx := by
    intro hyes
    rw [hinit.lastInRequest, decide_eq_true_iff, hcarried.cnt] at hyes
    rw [hinit.swDescIdx]
    exact Nat.le_of_eq hyes.symm
  have hhanded := submitTurn_handed h.handed hrv a turn
  rcases submitTurn_cases a turn st with hturn | ⟨u, hturn⟩
  · have hqueued := hturn.queued
    refine h.add hleft hturn.sent hhanded hturn.done hkind ?_
      hqueued.held (hturn.req ▸ hlast) ⟨?_, hqueued.sgt⟩
    · have hkeep := hqueued.descUsed
      rw [Sys.setEngine_self, hused] at hkeep
      exact hkeep
    · exact hqueued.resources.trans (List.append_nil _).symm
  · obtain ⟨hgone, hheld⟩ := transferDestroy_unmaps a.key (st.next a).2.2 u
    rw [← hturn.sys, hinit.unmap, hturn.sgt] at hgone
    rw [← hturn.sys] at hheld
    refine h.add hleft hturn.sent hhanded hturn.done hkind ?_
      (hheld.trans hturn.held) (hturn.req ▸ hlast) ?_
    · rw [hturn.sys, transferDestroy_engine]
      show (u.engines a.key).descUsed = (st.sys.engines a.key).descUsed + ((0 : Nat) : Int)
      rw [hturn.descUsed, hused]
      omega
    · obtain ⟨hrecord, htable⟩ := hgone
      rw [hturn.resources, hturn.sgt] at hrecord
      rw [hturn.sgt] at htable
      exact ⟨hrecord, htable⟩

end

/-! ## A call -/

section

variable {dev : Device} {kernel : Kernel} {a : IoCall} {turns : Nat → Turn} {s : Sys}

/-- What the loop of a call leaves. -/
theorem loop_booked {req : RequestCb} {ps : List SwDesc} (hsdesc : req.sdesc = ps)
    (hcnt : req.swDescCnt = ps.length) (hzero : req.swDescIdx = 0)
    (hidx : (s.engines a.key).descIdx < (s.engines a.key).descMax)
    (halign : (s.engines a.key).descBus % 4096 = 0)
    (hfit : (s.engines a.key).descBus + descSize * (s.engines a.key).descMax ≤ 2 ^ 64) :
    ∃ r, submitTurns a turns req.swDescCnt 0 ⟨s, req, req.swDescCnt, 0, []⟩ = some r ∧
      (Carried a ps (s.engines a.key) req.epAddr r.2 ∧ Booked a s ps.length r.1 r.2) ∧
      (r.1 < 0 ∨ r.2.nents = 0) :=
  submitTurns_ends (P := fun rv st =>
      Carried a ps (s.engines a.key) req.epAddr st ∧ Booked a s ps.length rv st)
    (fun _ st turn h hrv hmore => have hframe := submitTurn_frame a turn st
      ⟨⟨h.1.pass hidx halign hfit hframe hmore, h.2.turn h.1 hidx (.refl _) hrv hmore turn⟩,
        h.1.less hidx hframe hmore⟩)
    (Int.le_refl 0) (Nat.le_refl _) ⟨Carried.start hsdesc hcnt hzero hidx, .start a s ps.length req⟩

/-- The bytes in the host's memory that transfers move. -/
def sentBytes (dir : Direction) (sent : List Sent) : List Nat :=
  (sent.flatMap Sent.descs).flatMap (Desc.busBytes dir)

theorem length_sentBytes (dir : Direction) (sent : List Sent) :
    (sentBytes dir sent).length = ((sent.flatMap Sent.descs).map Desc.bytes).sum := by
  unfold sentBytes
  rw [List.length_flatMap]
  congr 1
  refine List.map_congr_left fun d _ => ?_
  unfold Desc.busBytes
  rw [List.length_map, List.length_range]

/-- What the return value says of the transfers, of which those in `well` ended well. -/
structure Reports (dir : Direction) (buffer : List Nat) (r : Submitted) (well rest : List Sent) : Prop where
  sent : r.sent = well ++ rest
  endedWell : ∀ x ∈ well, x.endedWell = true
  failed : ∀ x ∈ rest, x.endedWell = false
  one : rest.length ≤ 1
  /-- they moved the first bytes of the buffer -/
  moved : sentBytes dir well <+: buffer
  /-- and these are counted -/
  counted : 0 ≤ r.ret → r.ret = (sentBytes dir well).length
  /-- all of them, unless a transfer failed -/
  all : 0 ≤ r.ret → rest = [] → sentBytes dir well = buffer
  /-- an error says that no transfer ended well -/
  error : r.ret < 0 → sentBytes dir well = []

theorem Reports.none {dir : Direction} {buffer : List Nat} {r : Submitted} (hsent : r.sent = [])
    (hret : r.ret < 0) : Reports dir buffer r [] [] where
  sent := hsent
  endedWell := fun _ h => absurd h List.not_mem_nil
  failed := fun _ h => absurd h List.not_mem_nil
  one := Nat.zero_le 1
  moved := List.nil_prefix
  counted := fun h => absurd hret (by omega)
  all := fun h => absurd hret (by omega)
  error := fun _ => rfl

/-- Transfers are as long as their descriptors, while the request is under 4 GiB. -/
theorem SentOk.sum_len {es : List SgEntry} {e : DmaEngine} {ep : Nat} {sent : List Sent}
    (hok : SentOk e ep (pieces kernel.descBlenMax es) sent) (hm : 0 < kernel.descBlenMax)
    (htotal : total es < 2 ^ 32) :
    (sent.map fun x => x.xfer.len).sum = (sentBytes e.dir sent).length := by
  have hle : (sentBytes e.dir sent).length ≤ total es := by
    rw [← sgtBytes_length]
    exact (hok.begins hm).length_le
  rw [length_sentBytes, List.map_flatMap, List.flatMap_def, List.sum_flatten, List.map_map] at hle ⊢
  congr 1
  refine List.map_congr_left fun x hx => hok.len x hx ?_
  have hone := List.single_le_sum (fun _ _ => Nat.zero_le _) _
    (List.mem_map_of_mem (f := List.sum ∘ fun x : Sent => x.descs.map Desc.bytes) hx)
  exact Nat.lt_of_le_of_lt (Nat.le_trans hone hle) htotal

/-- All the pieces are all the bytes. -/
theorem SentOk.all_bytes {es : List SgEntry} {e : DmaEngine} {ep : Nat} {sent : List Sent}
    (hok : SentOk e ep (pieces kernel.descBlenMax es) sent) (hm : 0 < kernel.descBlenMax)
    (hall : (pieces kernel.descBlenMax es).length ≤ (sent.flatMap Sent.descs).length) :
    sentBytes e.dir sent = es.flatMap SgEntry.hostBytes := by
  unfold sentBytes
  rw [List.flatMap_def, hok.busBytes, ← List.flatMap_def, List.take_of_length_le hall,
    hostBytes_pieces hm]

/-- The count of the transfers that ended well is the number of their bytes. -/
theorem Booked.done_eq {es : List SgEntry} {e : DmaEngine} {ep n : Nat} {rv : Int} {st : SubmitState}
    {well rest : List Sent} (h : Booked a s n rv st) (hm : 0 < kernel.descBlenMax)
    (hok : SentOk e ep (pieces kernel.descBlenMax es) well) (hsent : st.sent = well ++ rest)
    (hwell : ∀ x ∈ well, x.endedWell = true) (hrest : ∀ x ∈ rest, x.endedWell = false)
    (hres : (s.engines a.key).hasResults = false) (htotal : total es < 2 ^ 32) :
    st.done = (sentBytes e.dir well).length := by
  have hbytes : well.map Sent.bytes = well.map fun x => x.xfer.len := by
    refine List.map_congr_left fun x hx => ?_
    have hkind := h.kind x (hsent ▸ List.mem_append_left _ hx)
    exact Sent.bytes_well (hwell x hx) (hkind.trans hres)
  have hzero : (rest.map Sent.bytes).sum = 0 := by
    rw [List.sum_eq_zero]
    intro n hn
    obtain ⟨x, hx, rfl⟩ := List.mem_map.1 hn
    exact Sent.bytes_badly (hrest x hx)
  rw [h.done, hsent, List.map_append, List.sum_append, hzero, Nat.add_zero, hbytes,
    hok.sum_len hm htotal]

/-- **What a synchronous call reports** of a buffer of less than 4 GiB, on an engine without
results: the bytes of the transfers that ended well, which are the first of the buffer.  An
error says that none did; one that was stopped may have moved bytes all the same. -/
theorem submit_reports (hm : 0 < kernel.descBlenMax)
    (hidx : (s.engines a.key).descIdx < (s.engines a.key).descMax)
    (halign : (s.engines a.key).descBus % 4096 = 0)
    (hfit : (s.engines a.key).descBus + descSize * (s.engines a.key).descMax ≤ 2 ^ 64)
    (hres : (s.engines a.key).hasResults = false) (htotal : total (a.entries kernel s) < 2 ^ 32) :
    ∃ r well rest, xferSubmit dev kernel a turns s = some r ∧
      Reports (s.engines a.key).dir ((a.entries kernel s).flatMap SgEntry.hostBytes) r well rest := by
  rcases xferSubmit_ways dev hm a turns s with ⟨_, _, hneg, -, heq⟩ | ⟨_, _, _, -, -, -, heq⟩ |
    ⟨log, req, -, -, hsdesc, hcnt, hzero, hep, heq⟩
  · exact ⟨_, [], [], heq, .none rfl hneg⟩
  · exact ⟨_, [], [], heq, .none rfl (show -ENOMEM < 0 by decide)⟩
  have hengine : (a.entered kernel { s with log := log }).engines = s.engines := entered_engines _ _ _
  rw [heq]
  generalize a.entered kernel { s with log := log } = u at *
  rw [← hengine] at hidx halign hfit hres ⊢
  obtain ⟨r, hturns, ⟨hcarried, hbooked⟩, hend⟩ :=
    @loop_booked a turns u req _ hsdesc hcnt hzero hidx halign hfit
  obtain ⟨well, rest, hsent, hwell, hrest, hone⟩ := hbooked.handed.parts
  have hok := hcarried.ok
  rw [hsent] at hok
  have hdone := hbooked.done_eq hm hok.left hsent hwell hrest hres htotal
  have hnonpos := hbooked.handed.nonpos
  rw [hturns]
  refine ⟨_, well, rest, rfl, ⟨hsent, hwell, hrest, ?_, hok.left.begins hm, fun hret => ?_,
    fun hret hnil => ?_, fun hret => ?_⟩⟩
  · rw [hone]
    split
    · exact Nat.le_refl 1
    · exact Nat.zero_le 1
  · dsimp only at hret ⊢
    by_cases hnone : r.2.done = 0
    · rw [if_neg (not_not.2 hnone)] at hret ⊢
      omega
    · rw [if_pos hnone, hdone]
  · obtain rfl := hnil
    rw [List.append_nil] at hsent
    have hnents : r.2.nents = 0 := hend.resolve_left fun hneg => by
      rw [if_pos hneg] at hone
      cases hone
    have hleft := hcarried.left.resolve_right fun ⟨_, x, hx, hfinish⟩ => by
      rw [← hbooked.kind x (List.mem_of_mem_getLast? hx), Sent.hasResults_of_finishes hfinish] at hres
      cases hres
    have hlength := hcarried.length
    rw [hsent] at hlength
    rw [List.append_nil] at hok
    exact hok.all_bytes hm (by omega)
  · dsimp only at hret
    by_cases hnone : r.2.done = 0
    · exact List.eq_nil_of_length_eq_zero (hdone.symm.trans hnone)
    · rw [if_pos hnone] at hret
      omega

/-! ## What it gives back -/

/-- What a call can take and give back, when it unmaps `n` entries. -/
def IoCall.ledger (a : IoCall) (origNents n : Nat) : List (List Resource) :=
  if a.dmaMapped then [[], [.allocated, .freed]]
  else [[], [.mapped origNents, .unmapped n], [.mapped origNents, .allocated, .freed, .unmapped n],
    [.mapped origNents, .allocated, .unmapped n, .freed]]

/-- The entries that a call unmaps: `transfer_destroy` those that the mapping made, the label
those that were mapped. -/
def IoCall.unmappedNents (a : IoCall) (kernel : Kernel) (s : Sys) (r : Submitted) : Nat :=
  if r.sent.any Sent.unmaps then (a.mapped kernel s).sgt.nents else s.sgt.origNents

theorem unmapCall_mapped {t : Sys} (hmap : a.dmaMapped = true) : unmapCall a t = t := by
  unfold unmapCall
  rw [if_neg (by rw [hmap]; exact fun h => absurd h.1 (by decide))]

theorem unmapCall_engines (t : Sys) : (unmapCall a t).engines = t.engines := by
  unfold unmapCall
  split <;> rfl

theorem unmapCall_held (t : Sys) : (unmapCall a t).held = t.held := by
  unfold unmapCall
  split <;> rfl

theorem unmapCall_unmaps {t : Sys} (hmap : a.dmaMapped = false) (hnents : t.sgt.nents ≠ 0) :
    (unmapCall a t).resources = t.resources ++ [.unmapped t.sgt.origNents] ∧
      (unmapCall a t).sgt.nents = 0 := by
  unfold unmapCall
  rw [if_pos ⟨by rw [hmap]; rfl, hnents⟩]
  exact ⟨rfl, rfl⟩

theorem unmapCall_gone {t : Sys} (hnents : t.sgt.nents = 0) : unmapCall a t = t := by
  unfold unmapCall
  rw [if_neg (fun h => h.2 hnents)]

/-- A mapping that `transfer_destroy` may have given back is gone after the label: what
`transfer_destroy` unmaps are the entries that the mapping made, what the label unmaps are those
that were mapped. -/
theorem Unmaps.label {last : Bool} {u t : Sys}
    (h : Unmaps (last && (!a.dmaMapped && decide (u.sgt.nents ≠ 0))) u t) (hnents : u.sgt.nents ≠ 0) :
    (a.dmaMapped = false → (unmapCall a t).sgt.nents = 0) ∧
      (unmapCall a t).resources = u.resources ++
        if a.dmaMapped then [] else [.unmapped (if last then u.sgt.nents else u.sgt.origNents)] := by
  obtain ⟨hrecord, htable⟩ := h
  rw [decide_eq_true hnents, Bool.and_true] at hrecord htable
  cases hmap : a.dmaMapped with
  | true =>
    rw [hmap, Bool.not_true, Bool.and_false] at hrecord
    rw [unmapCall_mapped hmap]
    exact ⟨fun hnot => absurd hnot (by decide), hrecord⟩
  | false =>
    rw [hmap, Bool.not_false, Bool.and_true] at hrecord htable
    cases hlast : last with
    | true =>
      rw [hlast] at hrecord htable
      have hgone : t.sgt.nents = 0 := by
        rw [htable]
        rfl
      rw [unmapCall_gone hgone]
      exact ⟨fun _ => hgone, hrecord⟩
    | false =>
      rw [hlast] at hrecord htable
      obtain ⟨hunmap, hgone⟩ := unmapCall_unmaps hmap (show t.sgt.nents ≠ 0 by rw [htable]; exact hnents)
      refine ⟨fun _ => hgone, ?_⟩
      rw [hunmap, hrecord, htable]
      exact congrArg (· ++ _) (List.append_nil _)

/-- What the mapping changes. -/
structure Mapped (a : IoCall) (kernel : Kernel) (s u : Sys) : Prop where
  engines : u.engines = s.engines
  held : u.held = s.held
  nents : u.sgt.nents = (a.mapped kernel s).sgt.nents
  origNents : u.sgt.origNents = s.sgt.origNents
  resources : u.resources = s.resources ++ if a.dmaMapped then [] else [.mapped s.sgt.origNents]

theorem mapped_mapped (a : IoCall) (kernel : Kernel) (s : Sys) (log : List String) :
    Mapped a kernel s (a.mapped kernel { s with log := log }) := by
  unfold IoCall.mapped
  by_cases hmap : a.dmaMapped = true
  · rw [if_pos hmap]
    refine ⟨rfl, rfl, ?_, rfl, ?_⟩
    · unfold IoCall.mapped
      rw [if_pos hmap]
    · rw [if_pos hmap, List.append_nil]
  · rw [if_neg hmap]
    refine ⟨rfl, rfl, ?_, rfl, ?_⟩
    · unfold IoCall.mapped
      rw [if_neg hmap]
    · rw [if_neg hmap]
      rfl

theorem ledger_mapped (hmap : a.dmaMapped = true) (origNents n : Nat) :
    a.ledger origNents n = [[], [.allocated, .freed]] := by
  unfold IoCall.ledger
  rw [if_pos hmap]

theorem ledger_unmapped (hmap : a.dmaMapped = false) (origNents n : Nat) :
    a.ledger origNents n = [[], [.mapped origNents, .unmapped n],
      [.mapped origNents, .allocated, .freed, .unmapped n],
      [.mapped origNents, .allocated, .unmapped n, .freed]] := by
  unfold IoCall.ledger
  rw [if_neg (by rw [hmap]; decide)]

/-- A call that gets no request. -/
theorem unmapCall_ledger {u : Sys} {back : List Resource} {log : List String}
    (h : Mapped a kernel s u) (hnents : u.sgt.nents ≠ 0)
    (hback : back = [] ∨ back = [.allocated, .freed]) :
    ∃ took ∈ a.ledger s.sgt.origNents s.sgt.origNents,
      (unmapCall a { u with log := log, resources := u.resources ++ back }).resources =
        s.resources ++ took := by
  have hresources := h.resources
  cases hmap : a.dmaMapped with
  | true =>
    rw [hmap, if_pos rfl, List.append_nil] at hresources
    rw [ledger_mapped hmap, unmapCall_mapped hmap]
    refine ⟨back, ?_, congrArg (· ++ back) hresources⟩
    rcases hback with rfl | rfl <;> decide
  | false =>
    rw [hmap, if_neg (by decide)] at hresources
    have hunmap := (@unmapCall_unmaps a { u with log := log, resources := u.resources ++ back } hmap hnents).1
    dsimp only at hunmap
    rw [ledger_unmapped hmap, hunmap, h.origNents, hresources]
    refine ⟨.mapped s.sgt.origNents :: back ++ [.unmapped s.sgt.origNents], ?_, by simp⟩
    rcases hback with rfl | rfl <;> simp

/-- A call whose loop has run from `u` on. -/
theorem Booked.ledger {u : Sys} {n : Nat} {rv : Int} {st : SubmitState} (h : Mapped a kernel s u)
    (hnents : u.sgt.nents ≠ 0)
    (hbooked : Booked a ((u.record .allocated).acquire .descLock) n rv st) :
    ∃ took ∈ a.ledger s.sgt.origNents (if st.sent.any Sent.unmaps then u.sgt.nents else s.sgt.origNents),
      ((unmapCall a (st.sys.release .descLock)).record .freed).resources = s.resources ++ took := by
  obtain ⟨hrecord, htable⟩ := hbooked.unmaps
  generalize hw : (u.record .allocated).acquire .descLock = w at hrecord htable
  obtain ⟨hsgt, htaken⟩ : w.sgt = u.sgt ∧ w.resources = s.resources ++
      (if a.dmaMapped then [] else [.mapped s.sgt.origNents]) ++ [.allocated] := by
    rw [← hw, ← h.resources]
    exact ⟨rfl, rfl⟩
  have hreleased : Unmaps (st.sent.any Sent.unmaps && (!a.dmaMapped && decide (w.sgt.nents ≠ 0))) w
    (st.sys.release .descLock) := ⟨hrecord, htable⟩
  have hlabel := (hreleased.label (show w.sgt.nents ≠ 0 by rw [hsgt]; exact hnents)).2
  rw [htaken, hsgt, h.origNents] at hlabel
  generalize (if st.sent.any Sent.unmaps then u.sgt.nents else s.sgt.origNents) = n at *
  show ∃ took ∈ _, (unmapCall a (st.sys.release .descLock)).resources ++ [.freed] = _
  rw [hlabel]
  cases hmap : a.dmaMapped with
  | true =>
    rw [ledger_mapped hmap]
    exact ⟨[.allocated, .freed], by decide, by simp⟩
  | false =>
    rw [ledger_unmapped hmap]
    exact ⟨[.mapped s.sgt.origNents, .allocated, .unmapped n, .freed], by simp, by simp⟩

/-- **A synchronous call gives back what it takes**: its locks, its mapping and its request, each
once, whatever the card does; and the slots of its transfers, unless one could not be queued. -/
theorem submit_gives_back (hm : 0 < kernel.descBlenMax)
    (hidx : (s.engines a.key).descIdx < (s.engines a.key).descMax)
    (halign : (s.engines a.key).descBus % 4096 = 0)
    (hfit : (s.engines a.key).descBus + descSize * (s.engines a.key).descMax ≤ 2 ^ 64) :
    ∃ r, xferSubmit dev kernel a turns s = some r ∧ r.sys.held = s.held ∧
      (r.sys.engines a.key).descUsed = (s.engines a.key).descUsed + (r.sent.map Sent.kept).sum ∧
      ∃ took ∈ a.ledger s.sgt.origNents (a.unmappedNents kernel s r),
        r.sys.resources = s.resources ++ took := by
  rcases xferSubmit_ways dev hm a turns s with ⟨_, _, hneg, -, heq⟩ |
    ⟨log, log', back, hnents, hback, -, heq⟩ | ⟨log, req, hnents, -, hsdesc, hcnt, hzero, hep, heq⟩
  · refine ⟨_, heq, rfl, (Int.add_zero _).symm, [], ?_, (List.append_nil _).symm⟩
    unfold IoCall.ledger
    split <;> exact List.mem_cons_self
  · have hmapped := mapped_mapped a kernel s log
    generalize a.mapped kernel { s with log := log } = u at *
    rw [← hmapped.nents] at hnents
    refine ⟨_, heq, ?_, ?_, unmapCall_ledger hmapped hnents hback⟩
    · rw [unmapCall_held]
      exact hmapped.held
    · rw [unmapCall_engines]
      dsimp only
      rw [hmapped.engines]
      exact (Int.add_zero _).symm
  · have hmapped := mapped_mapped a kernel s log
    unfold IoCall.entered at heq
    generalize a.mapped kernel { s with log := log } = u at *
    rw [← hmapped.nents] at hnents
    have hengines : ((u.record .allocated).acquire .descLock).engines = s.engines := hmapped.engines
    rw [← hengines] at hidx halign hfit
    obtain ⟨r, hturns, ⟨-, hbooked⟩, -⟩ := @loop_booked a turns _ req _ hsdesc hcnt hzero hidx halign hfit
    rw [hturns] at heq
    refine ⟨_, heq, ?_, ?_, ?_⟩
    · show (unmapCall a (r.2.sys.release .descLock)).held = s.held
      rw [unmapCall_held, Sys.held_release hbooked.held]
      exact hmapped.held
    · show ((unmapCall a (r.2.sys.release .descLock)).engines a.key).descUsed = _
      rw [unmapCall_engines, ← hengines]
      exact hbooked.descUsed
    · unfold IoCall.unmappedNents
      rw [← hmapped.nents]
      exact hbooked.ledger hmapped hnents

end

theorem submit_reports_pair : ∃ r well rest,
    xferSubmit knownDevice pairMapping writeCall (fun _ => completedTurn) lastSlotSys = some r ∧
      Reports .toDevice ([lineEntry, lineEntry].flatMap SgEntry.hostBytes) r well rest :=
  @submit_reports knownDevice pairMapping writeCall (fun _ => completedTurn) lastSlotSys
    (by decide) (by decide) (by decide) (by decide) (by decide) (by decide)

theorem submit_gives_back_pair :
    ∃ r, xferSubmit knownDevice pairMapping writeCall (fun _ => completedTurn) lastSlotSys = some r ∧
      r.sys.held = [] ∧
      (r.sys.engines (true, 0)).descUsed = 0 + (r.sent.map Sent.kept).sum ∧
      ∃ took ∈ writeCall.ledger 1 (writeCall.unmappedNents pairMapping lastSlotSys r),
        r.sys.resources = [] ++ took :=
  @submit_gives_back knownDevice pairMapping writeCall (fun _ => completedTurn) lastSlotSys
    (by decide) (by decide) (by decide) (by decide)

end FpgaDrm.Xdma
