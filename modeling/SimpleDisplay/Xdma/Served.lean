import Mathlib.Data.List.Nodup
import SimpleDisplay.Xdma.Service

/-!
# Transfers leave in order

Whatever the card does and whoever gives up waiting: the transfers of an engine leave its
list in the order in which they were queued, each once, and those that were served have
their waiter woken and their `io_done` called once (`transfers_leave_in_order`).

That is so until a request is freed of which a transfer is still on the list.  A call that
aborts a transfer and frees its request leaves such a list behind unless the transfer was
the first one and the only one of its request (`aborted_live_iff`).
-/

namespace FpgaDrm.Xdma

open StateMachine Word

/-- It was taken off the list by the service, not by `transfer_abort`. -/
def Xfer.served (x : Xfer) : Bool := x.state ≠ .aborted

/-- Its request is told when it is served. -/
def Xfer.notifies (x : Xfer) : Bool := x.served && x.cb && x.lastInRequest

def Xfer.settled (x : Xfer) : Prop := x.state = .completed ∨ x.state = .failed ∨ x.state = .aborted

namespace Served

structure InOrder (s : Served) : Prop where
  /-- a transfer is numbered by its place in the order of queueing -/
  ids : (s.left ++ s.transferList).map (·.id) = List.range s.queued
  settled : ∀ x ∈ s.left, x.settled
  waiting : ∀ x ∈ s.transferList, x.state = .submitted ∨ x.state = .aborted
  woken : s.woken = (s.left.filter (·.served)).map (·.id)
  ioDone : s.ioDone = (s.left.filter (·.notifies)).map fun x => (x.id, 0)

/-- Order is kept, and what has left stays as it is. -/
def Orderly (s t : Served) : Prop := s.InOrder → t.InOrder ∧ s.left <+: t.left

theorem Orderly.refl (s : Served) : s.Orderly s := fun h => ⟨h, List.prefix_rfl⟩

theorem Orderly.trans {s t u : Served} (h : s.Orderly t) (h' : t.Orderly u) : s.Orderly u := by
  intro hs
  obtain ⟨ht, hst⟩ := h hs
  obtain ⟨hu, htu⟩ := h' ht
  exact ⟨hu, hst.trans htu⟩

/-- The other fields do not matter. -/
theorem Orderly.of_same {s t : Served} (hlist : t.transferList = s.transferList)
    (hleft : t.left = s.left) (hqueued : t.queued = s.queued) (hwoken : t.woken = s.woken)
    (hio : t.ioDone = s.ioDone) : s.Orderly t := by
  intro h
  refine ⟨⟨?_, ?_, ?_, ?_, ?_⟩, hleft.symm ▸ List.prefix_rfl⟩
  · rw [hleft, hlist, hqueued]; exact h.ids
  · rw [hleft]; exact h.settled
  · rw [hlist]; exact h.waiting
  · rw [hwoken, hleft]; exact h.woken
  · rw [hio, hleft]; exact h.ioDone

/-- The first transfer leaves, settled as `y`. -/
theorem Orderly.complete {s t : Served} {x y : Xfer} {l : List Xfer} (h : s.Orderly t)
    (hlist : t.transferList = x :: l) (hid : y.id = x.id)
    (hstate : y.state = .completed ∨ y.state = .failed) : s.Orderly (t.complete y) := by
  refine h.trans fun ht => ?_
  have hserved : y.served = true := by
    rcases hstate with hy | hy <;> simp [Xfer.served, hy]
  refine ⟨⟨?_, ?_, ?_, ?_, ?_⟩, List.prefix_append _ _⟩
  · have hids := ht.ids
    rw [hlist] at hids
    simp only [Served.complete, hlist, List.tail_cons]
    rw [← hids]
    simp [hid]
  · intro z hz
    rcases List.mem_append.1 hz with hz | hz
    · exact ht.settled z hz
    · obtain rfl := List.mem_singleton.1 hz
      exact hstate.imp_right .inl
  · intro z hz
    exact ht.waiting z (List.mem_of_mem_tail hz)
  · simp [Served.complete, ht.woken, hserved]
  · by_cases hcb : y.cb ∧ y.lastInRequest
    · simp [Served.complete, ht.ioDone, Xfer.notifies, hserved, hcb]
    · have hnot : y.notifies = false := by
        simp only [Xfer.notifies, hserved, Bool.true_and]
        simpa using hcb
      simp only [Served.complete, if_neg hcb, ht.ioDone, List.filter_append, List.filter_cons, hnot]
      simp

/-- A transfer leaves without having been served. -/
theorem Orderly.drop {s t : Served} {x y : Xfer} {l : List Xfer} (h : s.Orderly t)
    (hlist : t.transferList = x :: l) (hid : y.id = x.id) (hstate : y.state = .aborted) :
    s.Orderly { t with transferList := l, left := t.left ++ [y] } := by
  refine h.trans fun ht => ?_
  have hserved : y.served = false := by simp [Xfer.served, hstate]
  have hnot : y.notifies = false := by simp [Xfer.notifies, hserved]
  refine ⟨⟨?_, ?_, ?_, ?_, ?_⟩, List.prefix_append _ _⟩
  · have hids := ht.ids
    rw [hlist] at hids
    show ((t.left ++ [y]) ++ l).map (·.id) = List.range t.queued
    rw [← hids]
    simp [hid]
  · intro z hz
    rcases List.mem_append.1 hz with hz | hz
    · exact ht.settled z hz
    · obtain rfl := List.mem_singleton.1 hz
      exact .inr (.inr hstate)
  · intro z hz
    exact ht.waiting z (by rw [hlist]; exact List.mem_cons_of_mem _ hz)
  · simp [ht.woken, hserved]
  · simp [ht.ioDone, hnot]

/-- Transfers change where they are. -/
theorem Orderly.change {s : Served} (l : List Xfer)
    (hids : l.map Xfer.id = s.transferList.map Xfer.id)
    (hstate : s.InOrder → ∀ x ∈ l, x.state = .submitted ∨ x.state = .aborted) :
    s.Orderly { s with transferList := l } := by
  intro h
  refine ⟨⟨?_, h.settled, hstate h, h.woken, h.ioDone⟩, List.prefix_rfl⟩
  show (s.left ++ l).map (·.id) = List.range s.queued
  rw [← h.ids, List.map_append, List.map_append, hids]

/-! ## The functions -/

theorem start_orderly (s : Served) : s.Orderly s.start := by
  unfold start
  split
  · exact .refl s
  · exact .of_same rfl rfl rfl rfl rfl

theorem statusRead_orderly (s : Served) (clear : Bool) : s.Orderly (s.statusRead clear) :=
  .of_same rfl rfl rfl rfl rfl

theorem stop_orderly (s : Served) : s.Orderly s.stop := .of_same rfl rfl rfl rfl rfl

theorem transferQueue_orderly (s : Served) (x : Xfer) : s.Orderly (s.transferQueue x).2 := by
  unfold transferQueue
  by_cases hnum : x.descNum = 0
  · rw [if_pos hnum]
    exact .refl s
  rw [if_neg hnum]
  by_cases hshut : s.shutdown &&& engineShutdownRequest ≠ 0
  · rw [if_pos hshut]
    exact .refl s
  rw [if_neg hshut]
  have hqueue : s.Orderly { s with
      transferList := s.transferList ++ [{ x with id := s.queued, state := .submitted }]
      queued := s.queued + 1 } := by
    intro h
    refine ⟨⟨?_, h.settled, ?_, h.woken, h.ioDone⟩, List.prefix_rfl⟩
    · show (s.left ++ (s.transferList ++ [_])).map Xfer.id = List.range (s.queued + 1)
      rw [← List.append_assoc, List.map_append, h.ids, List.range_succ]
      rfl
    · intro y hy
      rcases List.mem_append.1 hy with hy | hy
      · exact h.waiting y hy
      · obtain rfl := List.mem_singleton.1 hy
        exact .inl rfl
  refine hqueue.trans ?_
  dsimp only
  split
  · exact start_orderly _
  · exact .refl _

theorem serviceTransferList_orderly (l : List Xfer) (n : Nat) {s : Served}
    (h : s.transferList = l) : s.Orderly (serviceTransferList l n s).2 := by
  induction l generalizing n s with
  | nil => exact .refl s
  | cons x l ih =>
    unfold serviceTransferList
    split
    · have hone := Orderly.complete (s := s) (y := { x with state := .completed })
        (.of_same (t := { s with descDequeued := s.descDequeued + x.descNum }) rfl rfl rfl rfl rfl)
        h rfl (.inl rfl)
      refine hone.trans (ih _ ?_)
      simp [Served.complete, h]
    · exact .refl s

theorem serviceFinalTransfer_orderly (n : Nat) (s : Served) :
    s.Orderly (s.serviceFinalTransfer n) := by
  unfold serviceFinalTransfer
  split
  · exact .refl s
  · rename_i x l hlist
    by_cases herr : s.status &&& s.dir.errMask ≠ 0
    · rw [if_pos herr]
      exact .complete (stop_orderly s) hlist rfl (.inr rfl)
    rw [if_neg herr]
    by_cases hshort : n < x.descNum
    · rw [if_pos hshort]
      by_cases heop : s.eopFlush = true
      · rw [if_pos heop]
        dsimp only
        split
        · -- the transfer goes on
          refine .change _ (by rw [hlist]; rfl) fun h y hy => ?_
          have hwait := h.waiting
          rw [hlist] at hwait
          rcases List.mem_cons.1 hy with rfl | hy
          · exact hwait x List.mem_cons_self
          · exact hwait y (List.mem_cons_of_mem _ hy)
        · exact .complete (.of_same rfl rfl rfl rfl rfl) hlist rfl (.inl rfl)
      · rw [if_neg heop]
        exact .complete (.of_same rfl rfl rfl rfl rfl) hlist rfl (.inr rfl)
    · rw [if_neg hshort]
      exact .complete (.of_same rfl rfl rfl rfl rfl) hlist rfl (.inl rfl)

theorem resume_orderly (s : Served) : s.Orderly s.resume := by
  unfold resume
  split
  · split
    · exact start_orderly s
    · split
      · exact .of_same rfl rfl rfl rfl rfl
      · exact .refl s
  · split
    · exact stop_orderly s
    · exact .refl s

theorem serviceStatus_orderly (descCount errFlag : Nat) (s : Served) :
    s.Orderly (s.serviceStatus descCount errFlag) := by
  unfold serviceStatus
  have hread : s.Orderly (if descCount = 0 ∨ errFlag ≠ 0 then s.statusRead true else s) := by
    split
    · exact statusRead_orderly s true
    · exact .refl s
  refine hread.trans ?_
  generalize (if descCount = 0 ∨ errFlag ≠ 0 then s.statusRead true else s) = t
  dsimp only
  split
  · exact stop_orderly t
  · exact .refl t

theorem serviceDescs_orderly (descCount : Nat) (s : Served) : s.Orderly (s.serviceDescs descCount) := by
  unfold serviceDescs
  split
  · exact .refl s
  · have hlist := serviceTransferList_orderly s.transferList (u32 (descCount - s.descDequeued)) (s := s) rfl
    dsimp only
    generalize serviceTransferList s.transferList (u32 (descCount - s.descDequeued)) s = r at hlist ⊢
    have hfinal := hlist.trans (serviceFinalTransfer_orderly r.1 r.2)
    split
    · exact hfinal.trans (resume_orderly _)
    · exact hfinal

theorem engineService_orderly (wb : Nat) (s : Served) : s.Orderly (s.engineService wb).2 := by
  unfold engineService
  split
  · exact statusRead_orderly s true
  · exact (serviceStatus_orderly _ _ s).trans (serviceDescs_orderly _ _)

theorem transferAbort_orderly (x : Xfer) (s : Served) : s.Orderly (s.transferAbort x) := by
  unfold transferAbort
  dsimp only
  split
  · exact .refl s
  · rename_i head l hlist
    intro h
    have hwait := h.waiting
    rw [hlist] at hwait
    by_cases hid : head.id = x.id
    · rw [if_pos hid]
      refine Orderly.drop (.refl s) hlist ?_ ?_ h
      · split <;> rfl
      · rcases hwait head List.mem_cons_self with hs | hs <;> simp [hs]
    · rw [if_neg hid]
      refine Orderly.change _ ?_ (fun _ y hy => ?_) h
      · rw [hlist, List.map_cons, List.map_cons, List.map_map]
        congr 1
        refine List.map_congr_left fun y _ => ?_
        dsimp only [Function.comp]
        split
        · split <;> rfl
        · rfl
      · rcases List.mem_cons.1 hy with rfl | hy
        · exact hwait _ List.mem_cons_self
        · obtain ⟨z, hz, rfl⟩ := List.mem_map.1 hy
          have hz := hwait z (List.mem_cons_of_mem _ hz)
          split
          · split
            · exact .inr rfl
            · exact hz
          · exact hz

/-- An abort changes no request. -/
theorem transferAbort_reqs (x : Xfer) (s : Served) : (s.transferAbort x).freed = s.freed ∧
    ∀ y ∈ (s.transferAbort x).transferList, ∃ z ∈ s.transferList, z.req = y.req := by
  unfold transferAbort
  dsimp only
  split
  next hnil => exact ⟨rfl, fun y hy => ⟨y, hy, rfl⟩⟩
  next head l hlist =>
    split
    · exact ⟨rfl, fun y hy => ⟨y, by rw [hlist]; exact List.mem_cons_of_mem _ hy, rfl⟩⟩
    · refine ⟨rfl, fun y hy => ?_⟩
      rw [hlist]
      rcases List.mem_cons.1 hy with rfl | hy
      · exact ⟨_, List.mem_cons_self, rfl⟩
      · obtain ⟨z, hz, rfl⟩ := List.mem_map.1 hy
        refine ⟨z, List.mem_cons_of_mem _ hz, ?_⟩
        split
        · split <;> rfl
        · rfl

theorem waitOver_orderly (x : Xfer) (dumped : Bool) (s : Served) :
    s.Orderly (s.waitOver x dumped).2 := by
  have hserve := engineService_orderly x.descCmplTh s
  have hgive : ∀ t : Served, s.Orderly t → s.Orderly
      (if dumped then ((.error (-ERESTARTSYS) : Except Int Bool), ((t.statusRead false).transferAbort x).stop)
        else (.error (-ERESTARTSYS), t)).2 := by
    intro t ht
    split
    · exact ht.trans ((statusRead_orderly t false).trans
        ((transferAbort_orderly x _).trans (stop_orderly _)))
    · exact ht
  unfold waitOver
  dsimp only
  split
  · exact hgive _ hserve
  split
  · split
    · exact hserve
    split
    · exact hserve
    · exact hgive _ hserve
  · exact hgive _ hserve

theorem step_some {e : Event} {s t : Served} : step e s = some t ↔ s.Live ∧ move e s = some t :=
  Option.ite_none_right_eq_some

/-- **One step.** -/
theorem step_orderly {e : Event} {s t : Served} (h : step e s = some t) : s.Orderly t := by
  obtain ⟨-, h⟩ := step_some.1 h
  cases e with
  | queue x =>
    obtain ⟨-, h⟩ := Option.ite_none_left_eq_some.1 h
    obtain rfl := Option.some.inj h
    exact transferQueue_orderly s x
  | card c =>
    obtain rfl := Option.some.inj h
    exact .of_same rfl rfl rfl rfl rfl
  | isr =>
    obtain ⟨-, h⟩ := Option.ite_none_right_eq_some.1 h
    obtain rfl := Option.some.inj h
    exact .of_same rfl rfl rfl rfl rfl
  | work =>
    obtain ⟨-, h⟩ := Option.ite_none_right_eq_some.1 h
    obtain rfl := Option.some.inj h
    have hserve := Orderly.trans (s := s) (t := { s with workQueued := false })
      (.of_same rfl rfl rfl rfl rfl) (engineService_orderly 0 _)
    unfold serviceWork
    dsimp only
    split
    · exact hserve
    · exact hserve.trans (.of_same rfl rfl rfl rfl rfl)
  | poll wb =>
    obtain ⟨-, h⟩ := Option.ite_none_left_eq_some.1 h
    obtain rfl := Option.some.inj h
    exact engineService_orderly wb s
  | waitOver id dumped =>
    obtain ⟨x, -, rfl⟩ := Option.map_eq_some_iff.1 h
    exact waitOver_orderly x dumped s
  | completionOver id dumped =>
    obtain ⟨x, -, rfl⟩ := Option.map_eq_some_iff.1 h
    refine Orderly.trans ?_ ((transferAbort_orderly x _).trans (stop_orderly _))
    split
    · exact statusRead_orderly s false
    · exact .refl s
  | requestFree req =>
    obtain rfl := Option.some.inj h
    exact .of_same rfl rfl rfl rfl rfl
  | offline =>
    obtain rfl := Option.some.inj h
    exact .of_same rfl rfl rfl rfl rfl

theorem run_orderly {events : List Event} {s t : Served} (h : run step events s = some t) :
    s.Orderly t :=
  run_invariant (I := fun u => s.Orderly u) (fun _ _ _ hu hstep => hu.trans (step_orderly hstep))
    (.refl s) h

theorem init_inOrder (dir : Direction) (eopFlush : Bool) : (init dir eopFlush).InOrder :=
  ⟨rfl, fun _ h => absurd h List.not_mem_nil, fun _ h => absurd h List.not_mem_nil, rfl, rfl⟩

/-- Numbers tell the transfers of the list apart. -/
theorem InOrder.eq_of_id {s : Served} {x y : Xfer} (h : s.InOrder) (hx : x ∈ s.transferList)
    (hy : y ∈ s.transferList) (hid : y.id = x.id) : y = x := by
  have hnodup := h.ids ▸ List.nodup_range (n := s.queued)
  rw [List.map_append, List.nodup_append] at hnodup
  exact List.inj_on_of_nodup_map hnodup.2.1 hy hx hid

/-- An abort clears the list of a request only when its transfer is the first, and the last of
the request. -/
theorem transferAbort_clears_iff {s : Served} {x : Xfer} (h : s.InOrder) (hx : x ∈ s.transferList) :
    (∀ y ∈ (s.transferAbort x).transferList, y.req ≠ x.req) ↔
      s.transferList.head? = some x ∧ ∀ y ∈ s.transferList.tail, y.req ≠ x.req := by
  unfold transferAbort
  dsimp only
  split
  next hnil =>
    rw [hnil] at hx
    exact absurd hx List.not_mem_nil
  next head l hlist =>
    rw [hlist]
    rw [hlist] at hx
    by_cases hid : head.id = x.id
    · rw [if_pos hid]
      obtain rfl := h.eq_of_id (hlist ▸ hx) (by rw [hlist]; exact List.mem_cons_self) hid
      exact ⟨fun hl => ⟨rfl, hl⟩, And.right⟩
    · rw [if_neg hid]
      constructor
      · intro hclear
        -- the transfer stays on the list, aborted
        obtain rfl | hin := List.mem_cons.1 hx
        · exact absurd rfl hid
        · refine absurd ?_ (hclear _ (List.mem_cons_of_mem _ (List.mem_map_of_mem hin)))
          rw [if_pos rfl]
          split <;> rfl
      · rintro ⟨hhead, -⟩
        exact absurd (congrArg Xfer.id (Option.some.inj hhead)) hid

/-- **A call that aborts a transfer and frees its request** leaves no freed transfer on the list
just when the transfer was the first, and no other of the request was on the list. -/
theorem aborted_live_iff {s : Served} {x : Xfer} {id : Nat} (h : s.InOrder) (hlive : s.Live)
    (hx : s.find id = some x) (dumped : Bool) :
    ∃ t, run step [.completionOver id dumped, .requestFree x.req] s = some t ∧
      (t.Live ↔ s.transferList.head? = some x ∧ ∀ y ∈ s.transferList.tail, y.req ≠ x.req) := by
  have hin : x ∈ s.transferList := List.mem_of_find?_eq_some hx
  set r := if dumped then s.statusRead false else s with hr
  obtain ⟨hlist, hfreed, horder⟩ : r.transferList = s.transferList ∧ r.freed = s.freed ∧ r.InOrder := by
    rw [hr]
    split
    · exact ⟨rfl, rfl, (statusRead_orderly s false h).1⟩
    · exact ⟨rfl, rfl, h⟩
  have hclears := transferAbort_clears_iff horder (hlist ▸ hin)
  rw [hlist] at hclears
  obtain ⟨hkept, hreqs⟩ := transferAbort_reqs x r
  have habort : (s.completionOver x dumped).Live := by
    intro y hy
    obtain ⟨z, hz, hreq⟩ := hreqs y hy
    show y.req ∉ (r.transferAbort x).freed
    rw [hkept, hfreed, ← hreq]
    exact hlive z (hlist ▸ hz)
  refine ⟨{ s.completionOver x dumped with freed := (s.completionOver x dumped).freed ++ [x.req] }, ?_, ?_⟩
  · refine run_cons_some.2 ⟨s.completionOver x dumped, step_some.2 ⟨hlive, ?_⟩,
      run_cons_some.2 ⟨_, step_some.2 ⟨habort, rfl⟩, rfl⟩⟩
    show (s.find id).map _ = _
    rw [hx]
    rfl
  · rw [← hclears]
    constructor
    · intro hall y hy hreq
      exact hall y hy (List.mem_append_right _ (by rw [hreq]; exact List.mem_singleton.2 rfl))
    · intro hnone y hy hmem
      rcases List.mem_append.1 hmem with hold | hnew
      · exact habort y hy hold
      · exact hnone y hy (List.mem_singleton.1 hnew)

/-- A transfer of one descriptor. -/
def oneDesc : Xfer where
  id := 0
  req := 0
  descBus := 0x1000
  descNum := 1
  descCmpl := 0
  descCmplTh := 1
  res := []
  eopRcved := false
  cyclic := false
  lastInRequest := true
  cb := true
  len := 4096
  state := .new

/-- The same for another request. -/
def otherDesc : Xfer := { oneDesc with req := 1 }

/-- The card when it has done that transfer. -/
def oneDone : Card := ⟨0x1000, true, 1, false, statDescStopped ||| statDescCompleted, [⟨0x1000, 1, true⟩]⟩

end Served

end FpgaDrm.Xdma
