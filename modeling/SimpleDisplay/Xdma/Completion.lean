import SimpleDisplay.Xdma.Accounts

/-!
# The end of a request that nobody waited for

`xdma_xfer_completion` looks at the transfers of a request one after another, up to the first
that did not complete.  What it returns and gives back is `completionTurns_settles`; after an
accepted frame, whatever became of it, the engine's slots are free again and all that the frame
took is given back (`frame_completes`).
-/

namespace FpgaDrm.Xdma

open Word

/-! ## `xdma_xfer_completion` -/

/-- What it finds of a transfer. -/
inductive Found
  /-- with the lengths of the results -/
  | completed (results : List Nat)
  | failed
  /-- it is aborted, and the engine stopped -/
  | inFlight (stopped : DmaEngine → Serviced)

namespace Found

/-- `rv` is 0. -/
def fine : Found → Bool
  | completed _ => true
  | _ => false

def bytes (f : Found) (hasResults : Bool) (x : QueuedTransfer) : Nat :=
  match f with
  | completed results => if hasResults then results.sum else x.len
  | _ => 0

def messages : Found → List String
  | completed _ => []
  | failed => ["xfer 0x%p,%u, failed, ep 0x%llx.\n"]
  | inFlight _ => ["xfer 0x%p,%u, s 0x%x timed out, ep 0x%llx.\n"]

def stop (f : Found) (e : DmaEngine) : DmaEngine :=
  match f with
  | inFlight stopped => e.serve (stopped e)
  | _ => e

end Found

/-- The body of the loop. -/
def completionTurn (key : Bool × Int) (x : QueuedTransfer) (f : Found) (s : Sys) : Sys :=
  let s := s.setEngine key (f.stop (s.engines key))
  let s := transferDestroy key x { s with log := s.log ++ f.messages }
  let e := s.engines key
  s.setEngine key { e with descUsed := e.descUsed - x.descNum }

/-- `while (nents)`; `none` when it looks behind the transfers. -/
def completionTurns (key : Bool × Int) : List (QueuedTransfer × Found) → (nents : Int) →
    (done : Nat) → Sys → Option (Nat × Sys)
  | [], nents, done, s => if nents = 0 then some (done, s) else none
  | (x, f) :: xs, nents, done, s =>
    if nents = 0 then some (done, s)
    else
      let done := done + f.bytes (s.engines key).hasResults x
      let s := completionTurn key x f s
      if f.fine then completionTurns key xs (nents - x.descNum) done s else some (done, s)

/-- `xdma_xfer_completion`, of a request with `sw_desc_cnt` and its transfers. -/
def xferCompletion (dev : Device) (a : IoCall) (swDescCnt : Nat)
    (found : List (QueuedTransfer × Found)) (s : Sys) : Option (Int × Sys) :=
  if a.write ∧ a.channel ≥ dev.h2cChannelMax then some (-EINVAL, s.print "H2C channel %d >= %d.\n")
  else if !a.write ∧ a.channel ≥ dev.c2hChannelMax then
    some (-EINVAL, s.print "C2H channel %d >= %d.\n")
  else if (s.engines a.key).magic ≠ magicEngine then
    some (-EINVAL, s.print "%s has invalid magic number %lx\n")
  else
    (completionTurns a.key found swDescCnt 0 s).map fun r =>
      (r.1, (unmapCall a r.2).record .freed)

/-! ## A pass -/

/-- `t` is `s` after the transfers `xs` were looked at and destroyed. -/
structure Destroyed (key : Bool × Int) (xs : List QueuedTransfer) (s t : Sys) : Prop where
  ring : (s.engines key).SameRing (t.engines key)
  descUsed : (t.engines key).descUsed = (s.engines key).descUsed - ((xs.map (·.descNum)).sum : Nat)
  held : t.held = s.held
  unmaps : Unmaps ((xs.any fun x => x.lastInRequest && x.needUnmap) && decide (s.sgt.nents ≠ 0)) s t

section

variable {key : Bool × Int} {xs ys : List QueuedTransfer} {s t u : Sys}

theorem Destroyed.refl (key : Bool × Int) (s : Sys) : Destroyed key [] s s where
  ring := .refl _
  descUsed := (Int.sub_zero _).symm
  held := rfl
  unmaps := ⟨(List.append_nil _).symm, rfl⟩

/-- The mapping is given back once. -/
theorem Unmaps.trans {c d : Bool} (h : Unmaps (c && decide (s.sgt.nents ≠ 0)) s t)
    (h' : Unmaps (d && decide (t.sgt.nents ≠ 0)) t u) :
    Unmaps ((c || d) && decide (s.sgt.nents ≠ 0)) s u := by
  obtain ⟨hres, hsgt⟩ := h
  obtain ⟨hres', hsgt'⟩ := h'
  cases hc : c && decide (s.sgt.nents ≠ 0) with
  | true =>
    obtain ⟨rfl, hnents⟩ := Bool.and_eq_true_iff.1 hc
    rw [hc, if_pos rfl] at hres hsgt
    have hgone : (d && decide (t.sgt.nents ≠ 0)) = false := by
      rw [hsgt]
      simp
    rw [hgone, if_neg (by decide)] at hres' hsgt'
    rw [Bool.true_or, Bool.true_and, hnents]
    refine ⟨?_, hsgt'.trans hsgt⟩
    rw [hres', hres, List.append_nil]
    rfl
  | false =>
    rw [hc, if_neg (by decide)] at hres hsgt
    rw [List.append_nil] at hres
    rw [hsgt, hres] at hres'
    rw [hsgt] at hsgt'
    have hor : ((c || d) && decide (s.sgt.nents ≠ 0)) = (d && decide (s.sgt.nents ≠ 0)) := by
      rw [Bool.and_or_distrib_right, hc, Bool.false_or]
    rw [hor]
    exact ⟨hres', hsgt'⟩

theorem Destroyed.trans (h : Destroyed key xs s t) (h' : Destroyed key ys t u) :
    Destroyed key (xs ++ ys) s u where
  ring := h.ring.trans h'.ring
  descUsed := by
    rw [h'.descUsed, h.descUsed, List.map_append, List.sum_append]
    omega
  held := h'.held.trans h.held
  unmaps := by
    rw [List.any_append]
    exact h.unmaps.trans h'.unmaps

theorem Found.stop_keeps (f : Found) (e : DmaEngine) :
    e.SameRing (f.stop e) ∧ (f.stop e).descUsed = e.descUsed := by
  cases f with
  | completed | failed => exact ⟨.refl e, rfl⟩
  | inFlight stopped => exact ⟨⟨rfl, rfl, rfl, rfl, rfl, rfl, rfl⟩, rfl⟩

theorem completionTurn_destroys (key : Bool × Int) (x : QueuedTransfer) (f : Found) (s : Sys) :
    Destroyed key [x] s (completionTurn key x f s) := by
  obtain ⟨hring, hused⟩ := f.stop_keeps (s.engines key)
  unfold completionTurn
  dsimp only
  generalize hu : ({ s.setEngine key (f.stop (s.engines key)) with
    log := (s.setEngine key (f.stop (s.engines key))).log ++ f.messages } : Sys) = u
  obtain ⟨hengine, hsgt, hheld, hresources⟩ : u.engines key = f.stop (s.engines key) ∧ u.sgt = s.sgt ∧
      u.held = s.held ∧ u.resources = s.resources := by
    rw [← hu]
    exact ⟨Sys.setEngine_self _ _ _, rfl, rfl, rfl⟩
  obtain ⟨⟨hrecord, htable⟩, hlocks⟩ := transferDestroy_unmaps key x u
  rw [hresources, hsgt] at hrecord
  rw [hsgt] at htable
  have hany : ([x].any fun x => x.lastInRequest && x.needUnmap) = (x.lastInRequest && x.needUnmap) :=
    Bool.or_false _
  constructor
  case ring =>
    rw [Sys.setEngine_self, transferDestroy_engine, hengine]
    exact ⟨hring.descBus, hring.cyclicResultBus, hring.descMax, hring.dir, hring.streaming,
      hring.nonIncrAddr, hring.magic⟩
  case descUsed =>
    rw [Sys.setEngine_self, transferDestroy_engine, hengine]
    show (f.stop (s.engines key)).descUsed - (x.descNum : Int) = _
    rw [hused, List.map_singleton, List.sum_singleton]
  case held => exact hlocks.trans hheld
  case unmaps =>
    rw [hany, Bool.and_assoc]
    exact ⟨hrecord, htable⟩

theorem xferCompletion_known {dev : Device} {a : IoCall}
    (hh2c : ¬ (a.write ∧ a.channel ≥ dev.h2cChannelMax))
    (hc2h : ¬ (!a.write ∧ a.channel ≥ dev.c2hChannelMax))
    (hmagic : (s.engines a.key).magic = magicEngine) (swDescCnt : Nat)
    (found : List (QueuedTransfer × Found)) :
    xferCompletion dev a swDescCnt found s = (completionTurns a.key found swDescCnt 0 s).map fun r =>
      ((r.1 : Int), (unmapCall a r.2).record .freed) := by
  unfold xferCompletion
  rw [if_neg hh2c, if_neg hc2h, if_neg (not_not.2 hmagic)]

/-- The transfers that are looked at: up to the first that did not complete. -/
def looked : List (QueuedTransfer × Found) → List (QueuedTransfer × Found)
  | [] => []
  | (x, f) :: xs => if f.fine then (x, f) :: looked xs else [(x, f)]

/-- **The loop** counts the transfers that it looks at, and destroys them. -/
theorem completionTurns_settles {found : List (QueuedTransfer × Found)}
    (hpos : ∀ y ∈ found, 0 < y.1.descNum) (done : Nat) (s : Sys) :
    ∃ t, completionTurns key found ((found.map fun y => y.1.descNum).sum : Nat) done s =
        some (done + ((looked found).map fun y => y.2.bytes (s.engines key).hasResults y.1).sum, t) ∧
      Destroyed key ((looked found).map Prod.fst) s t := by
  induction found generalizing done s with
  | nil => exact ⟨s, rfl, .refl key s⟩
  | cons y found ih =>
    obtain ⟨x, f⟩ := y
    have hx := hpos (x, f) List.mem_cons_self
    have hturn := completionTurn_destroys key x f s
    rw [List.map_cons, List.sum_cons, completionTurns, if_neg (by omega), looked]
    dsimp only
    cases hf : f.fine with
    | false =>
      rw [if_neg (by decide), if_neg (by decide), List.map_singleton, List.sum_singleton]
      exact ⟨_, rfl, hturn⟩
    | true =>
      obtain ⟨t, hrun, hrest⟩ := ih (fun y hy => hpos y (List.mem_cons_of_mem _ hy))
        (done + f.bytes (s.engines key).hasResults x) (completionTurn key x f s)
      rw [hturn.ring.hasResults] at hrun
      have hnents : ((x.descNum + (found.map fun y => y.1.descNum).sum : Nat) : Int) - x.descNum =
          ((found.map fun y => y.1.descNum).sum : Nat) := by omega
      rw [if_pos rfl, if_pos rfl, hnents, hrun, List.map_cons, List.sum_cons, Nat.add_assoc]
      exact ⟨t, rfl, hturn.trans hrest⟩

end

/-! ## An accepted frame -/

section

variable {kernel : Kernel} {key : Bool × Int} {x : QueuedTransfer} {s t u : Sys}

theorem engineStart_list (kernel : Kernel) (key : Bool × Int) (s : Sys) :
    ((engineStart kernel key s).2.engines key).transferList = (s.engines key).transferList := by
  unfold engineStart
  dsimp only
  split
  · rfl
  · split
    · rfl
    · dsimp only
      rw [Sys.setEngine_self]
      rfl

/-- An accepted transfer is the last one on the list. -/
theorem transferQueue_list (h : 0 ≤ (transferQueue kernel key x s).1) :
    ((transferQueue kernel key x s).2.engines key).transferList =
      (s.engines key).transferList ++ [{ x with state := .submitted }] := by
  unfold transferQueue at h ⊢
  split at h
  · exact absurd h (show ¬ 0 ≤ -EINVAL by decide)
  next hnum =>
  rw [if_neg hnum]
  split at h
  · exact absurd h (show ¬ 0 ≤ -EBUSY by decide)
  next honline =>
  rw [if_neg honline]
  dsimp only at h ⊢
  split at h
  · exact absurd h (show ¬ 0 ≤ -EBUSY by decide)
  next hopen =>
  rw [if_neg hopen]
  generalize hu : Sys.setEngine _ key _ = u
  have hlist : (u.engines key).transferList =
      (s.engines key).transferList ++ [{ x with state := .submitted }] := by
    rw [← hu, Sys.setEngine_self]
    rfl
  have hstart := engineStart_list kernel key u
  split
  · split
    next heq =>
      rw [heq] at hstart
      exact hstart.trans hlist
    next heq =>
      rw [heq] at hstart
      exact hstart.trans hlist
  · exact hlist

end

section

variable {dev : Device} {kernel : Kernel} {a : Submission} {x : QueuedTransfer} {s t u v : Sys}

theorem queueLines_queued {descCount : Nat} {x : QueuedTransfer}
    (h : queueLines kernel a descCount x s = (-EIOCBQUEUED, t)) :
    0 ≤ (transferQueue kernel a.key x s).1 ∧
      t.engines = (transferQueue kernel a.key x s).2.engines ∧
      t.sgt = (transferQueue kernel a.key x s).2.sgt ∧
      t.held = (transferQueue kernel a.key x s).2.held.erase .descLock ∧
      t.resources = (transferQueue kernel a.key x s).2.resources ∧
      t.cbReq = (transferQueue kernel a.key x s).2.cbReq := by
  have hne : (transferQueue kernel a.key x s).1 ≠ -EIOCBQUEUED := by
    rw [transferQueue_ret]
    exact queueVerdict_ne _ _
  unfold queueLines at h
  generalize transferQueue kernel a.key x s = r at *
  obtain ⟨rv, u⟩ := r
  dsimp only at h hne ⊢
  split at h
  · have hfst := congrArg Prod.fst h
    rw [unlockDesc_fst] at hfst
    exact absurd hfst hne
  next hrv =>
    obtain rfl := (Prod.mk.inj h).2
    refine ⟨Int.not_lt.1 hrv, ?_⟩
    split <;> exact ⟨rfl, rfl, rfl, rfl, rfl⟩

/-- What queueing a transfer leaves, on a list that was empty. -/
theorem queueLines_leaves {descCount : Nat} {x : QueuedTransfer}
    (h : queueLines kernel a descCount x s = (-EIOCBQUEUED, t))
    (hempty : (s.engines a.key).transferList = []) :
    (s.engines a.key).SameRing (t.engines a.key) ∧
      (t.engines a.key).transferList = [{ x with state := .submitted }] ∧
      (t.engines a.key).descUsed = (s.engines a.key).descUsed ∧ t.sgt = s.sgt ∧
      t.held = s.held.erase .descLock ∧ t.resources = s.resources ∧ t.cbReq = s.cbReq := by
  obtain ⟨hret, hengines, hsgt, hheld, hresources, hcb⟩ := queueLines_queued h
  have hlist := transferQueue_list hret
  have hframe := transferQueue_frame kernel a.key x s
  rw [hempty, List.nil_append] at hlist
  rw [hengines, hsgt, hheld, hresources, hcb, hframe.held]
  exact ⟨hframe.ring, hlist, hframe.descUsed, hframe.sgt, rfl, hframe.resources, hframe.cbReq⟩

/-- The state after an accepted frame with the transfer `x`. -/
structure Accepted (dev : Device) (a : Submission) (s t : Sys) (x : QueuedTransfer) : Prop where
  h2c : ¬ (a.write ∧ a.channel ≥ dev.h2cChannelMax)
  c2h : ¬ (!a.write ∧ a.channel ≥ dev.c2hChannelMax)
  magic : (t.engines a.key).magic = magicEngine
  dir : (t.engines a.key).dir = .toDevice
  list : (t.engines a.key).transferList = [x]
  descUsed : (t.engines a.key).descUsed = x.descNum
  cbReq : t.cbReq = some ⟨a.epAddr, u32 (a.lineSize * a.lineCount : Nat), x.descNum⟩
  pos : 0 < x.descNum
  last : x.lastInRequest = true
  unmap : x.needUnmap = !a.dmaMapped
  len : x.len = a.lineSize * a.lineCount
  held : t.held = s.held
  nents : t.sgt.nents ≠ 0
  resources : t.resources = s.resources ++
    (if a.dmaMapped then [] else [.mapped s.sgt.origNents]) ++ [.allocated]

theorem submitLines_accepted (h : submitLines dev kernel a s = some (-EIOCBQUEUED, t))
    (h32 : a.lineSize * a.lineCount < 2 ^ 32) : ∃ x, Accepted dev a s t x := by
  obtain ⟨hl, hc, hh2c, hc2h, n, s', hcount, hmax, hprep, hreq⟩ := submitLines_queued h
  have hcut := countLineDescriptors_eq hl hc kernel.descBlenMax s'.sgt.entries
  rw [hcount] at hcut
  split at hcut
  swap
  · cases hcut
  next hfits =>
    obtain ⟨hm, htotal⟩ := hfits
    obtain rfl := Except.ok.inj hcut
    have hle := segments_length_le hl hm s'.sgt.entries
    have hpos := segments_length_pos hl hm (htotal.symm ▸ Nat.mul_pos hl hc)
    have hwrap : u32 (segments a.lineSize kernel.descBlenMax 0 s'.sgt.entries).length =
        (segments a.lineSize kernel.descBlenMax 0 s'.sgt.entries).length := by
      rw [u32_natCast]
      omega
    rw [hwrap] at hreq hprep
    generalize (segments a.lineSize kernel.descBlenMax 0 s'.sgt.entries).length = n at *
    have hlen : (a.filled kernel n (s'.engines a.key) s'.sgt.entries).len = a.lineSize * a.lineCount := by
      have hsum := segments_len hl hm s'.sgt.entries
      have hlt : 0 + ((segments a.lineSize kernel.descBlenMax 0 s'.sgt.entries).map (·.len)).sum < 2 ^ 32 := by
        rw [hsum, htotal, Nat.zero_add]
        exact h32
      unfold Submission.filled
      rw [foldl_len hlt, hsum, htotal]
      exact Nat.zero_add _
    obtain ⟨hbusy, hqueue⟩ := submitRequest_built hl hm hreq
    obtain ⟨hfree, -, hempty⟩ := idle_of_busy hbusy
    obtain ⟨hring, hlist, hused, hsgt, hheld, hresources, hcb⟩ := queueLines_leaves hqueue
      (by simpa [Sys.setEngine, Sys.release, Submission.builtEngine] using hempty)
    have hbuilt : ((((s'.acquire .descLock).acquire .lock).setEngine a.key
        (a.builtEngine kernel n (s'.engines a.key) s'.sgt.entries)).release .lock).engines a.key =
          a.builtEngine kernel n (s'.engines a.key) s'.sgt.entries := Sys.setEngine_self _ _ _
    rw [hbuilt] at hring hused
    refine ⟨_, ⟨hh2c, hc2h, hring.magic.trans ?_, hring.dir.trans ?_, hlist, ?_, ?_, hpos, rfl, rfl, hlen,
      ?_, ?_, ?_⟩⟩
    · exact (congrArg DmaEngine.magic (congrFun hprep.engines a.key)).trans hprep.magic
    · exact (congrArg DmaEngine.dir (congrFun hprep.engines a.key)).trans hprep.dir
    · rw [hused]
      show (s'.engines a.key).descUsed + (n : Int) = n
      rw [hfree, Int.zero_add]
    · rw [hcb]
      exact hprep.cbReq
    · rw [hheld]
      exact hprep.held
    · rw [hsgt]
      exact hprep.nents
    · rw [hresources]
      exact hprep.resources

/-! ## Its completion -/

/-- The call of `xdma_xfer_completion` for it. -/
def Submission.ioCall (a : Submission) : IoCall :=
  ⟨a.devHndl, a.channel, a.write, a.epAddr, a.dmaMapped, false⟩

/-- Nothing but the service of the engine has happened between `t` and `u`. -/
structure Meanwhile (key : Bool × Int) (t u : Sys) : Prop where
  engine : ∃ v, u.engines key = (t.engines key).serve v
  sgt : u.sgt = t.sgt
  held : u.held = t.held
  resources : u.resources = t.resources

/-- What an accepted frame takes and gives back. -/
def Submission.frameLedger (a : Submission) (origNents nents : Nat) : List Resource :=
  if a.dmaMapped then [.allocated, .freed]
  else [.mapped origNents, .allocated, .unmapped nents, .freed]

/-- It is looked at, and destroyed. -/
theorem Accepted.turn (hx : Accepted dev a s t x) (hu : Meanwhile a.key t u) (f : Found) :
    ∃ v, completionTurns a.key [(x, f)] x.descNum 0 u =
        some (if f.fine then a.lineSize * a.lineCount else 0, v) ∧ Destroyed a.key [x] u v := by
  obtain ⟨serviced, hengine⟩ := hu.engine
  have hpos : ∀ y ∈ [(x, f)], 0 < y.1.descNum := by
    intro y hy
    obtain rfl := List.mem_singleton.1 hy
    exact hx.pos
  obtain ⟨v, hrun, hdestroyed⟩ := @completionTurns_settles a.key [(x, f)] hpos 0 u
  have hlooked : looked [(x, f)] = [(x, f)] := by
    rw [looked]
    split <;> rfl
  rw [hlooked] at hrun hdestroyed
  simp only [List.map_singleton, List.sum_singleton, Nat.zero_add] at hrun hdestroyed
  have hres : (u.engines a.key).hasResults = false := by
    rw [hengine]
    unfold DmaEngine.hasResults DmaEngine.serve
    dsimp only
    rw [hx.dir]
    exact Bool.and_false _
  have hbytes : f.bytes false x = if f.fine then a.lineSize * a.lineCount else 0 := by
    rw [← hx.len]
    cases f <;> rfl
  rw [hres, hbytes] at hrun
  exact ⟨v, hrun, hdestroyed⟩

/-- The mapping is given back by `transfer_destroy`: the label finds no entries any more. -/
theorem Accepted.gives_back (hx : Accepted dev a s t x) (hu : Meanwhile a.key t u)
    (h : Destroyed a.key [x] u v) :
    (a.dmaMapped = false → (unmapCall a.ioCall v).sgt.nents = 0) ∧
      ((unmapCall a.ioCall v).record .freed).resources =
        s.resources ++ a.frameLedger s.sgt.origNents t.sgt.nents := by
  have hlast : ([x].any fun x => x.lastInRequest && x.needUnmap) = (true && !a.dmaMapped) := by
    rw [List.any_cons, List.any_nil, Bool.or_false, hx.last, hx.unmap]
  have hunmaps := h.unmaps
  rw [hlast, Bool.and_assoc] at hunmaps
  obtain ⟨hgone, hlabel⟩ := Unmaps.label (a := a.ioCall) hunmaps (show u.sgt.nents ≠ 0 by
    rw [hu.sgt]
    exact hx.nents)
  refine ⟨hgone, ?_⟩
  rw [hu.resources, hx.resources, hu.sgt] at hlabel
  show (unmapCall a.ioCall v).resources ++ [.freed] = _
  have hmap : a.ioCall.dmaMapped = a.dmaMapped := rfl
  unfold Submission.frameLedger
  rw [hlabel, hmap]
  split <;> simp

/-- Its completion as a whole. -/
theorem Accepted.completes (hx : Accepted dev a s t x) (hu : Meanwhile a.key t u) (f : Found) :
    ∃ v, xferCompletion dev a.ioCall x.descNum [(x, f)] u =
        some (((if f.fine then a.lineSize * a.lineCount else 0 : Nat) : Int), v) ∧
      (v.engines a.key).descUsed = 0 ∧ v.held = s.held ∧ (a.dmaMapped = false → v.sgt.nents = 0) ∧
      v.resources = s.resources ++ a.frameLedger s.sgt.origNents t.sgt.nents := by
  obtain ⟨serviced, hengine⟩ := hu.engine
  have hmagic : (u.engines a.key).magic = magicEngine := by
    rw [hengine]
    exact hx.magic
  obtain ⟨v, hrun, hdestroyed⟩ := hx.turn hu f
  obtain ⟨htable, hledger⟩ := hx.gives_back hu hdestroyed
  have hcall : xferCompletion dev a.ioCall x.descNum [(x, f)] u =
      some (((if f.fine then a.lineSize * a.lineCount else 0 : Nat) : Int),
        (unmapCall a.ioCall v).record .freed) := by
    rw [@xferCompletion_known u dev a.ioCall hx.h2c hx.c2h hmagic]
    show (completionTurns a.key [(x, f)] x.descNum 0 u).map _ = _
    rw [hrun]
    rfl
  refine ⟨_, hcall, ?_, ?_, htable, hledger⟩
  · show ((unmapCall a.ioCall v).engines a.key).descUsed = 0
    rw [unmapCall_engines, hdestroyed.descUsed, hengine]
    show (t.engines a.key).descUsed - _ = 0
    rw [hx.descUsed, List.map_singleton, List.sum_singleton, Int.sub_self]
  · show (unmapCall a.ioCall v).held = s.held
    rw [unmapCall_held, hdestroyed.held, hu.held, hx.held]

/-- **After an accepted frame**, whatever became of it, its completion returns the length of the
frame or nothing, no slot of the ring is in use any more, and the mapping and the request are
given back, each once. -/
theorem frame_completes (h : submitLines dev kernel a s = some (-EIOCBQUEUED, t))
    (h32 : a.lineSize * a.lineCount < 2 ^ 32) (hu : Meanwhile a.key t u) (f : Found) :
    ∃ x req v, (t.engines a.key).transferList = [x] ∧ t.cbReq = some req ∧
      xferCompletion dev a.ioCall req.swDescCnt [(x, f)] u =
        some (((if f.fine then a.lineSize * a.lineCount else 0 : Nat) : Int), v) ∧
      (v.engines a.key).descUsed = 0 ∧ v.held = s.held ∧ (a.dmaMapped = false → v.sgt.nents = 0) ∧
      v.resources = s.resources ++ a.frameLedger s.sgt.origNents t.sgt.nents := by
  obtain ⟨x, hx⟩ := submitLines_accepted h h32
  obtain ⟨v, hcompletes⟩ := hx.completes hu f
  exact ⟨x, _, v, hx.list, hx.cbReq, hcompletes⟩

end

/-- The frame of one line is completed as soon as it is queued. -/
theorem frame_completes_one : ∃ t,
    submitLines knownDevice lineMapping oneLine restingSys = some (-EIOCBQUEUED, t) ∧
      ∃ x req v, (t.engines (true, 0)).transferList = [x] ∧ t.cbReq = some req ∧
        xferCompletion knownDevice oneLine.ioCall req.swDescCnt [(x, .completed [])] t = some (8, v) ∧
        (v.engines (true, 0)).descUsed = 0 ∧ v.held = [] ∧
        (oneLine.dmaMapped = false → v.sgt.nents = 0) ∧
        v.resources = [] ++ oneLine.frameLedger 1 t.sgt.nents := by
  obtain ⟨t, ht⟩ := oneLine_accepted
  have hmeanwhile : Meanwhile oneLine.key t t := by
    let e := t.engines oneLine.key
    exact ⟨⟨⟨e.running, e.shutdown, e.descDequeued, e.status, e.transferList, e.regs⟩, rfl⟩, rfl, rfl, rfl⟩
  exact ⟨t, ht, frame_completes ht (by decide) hmeanwhile (.completed [])⟩

end FpgaDrm.Xdma
