import SimpleDisplay.Xdma.Submit

/-!
# A refused submission leaves nothing behind

Every exit of `submitLines` is one value of `verdict`, which looks at the engine's books
only (`submitLines_verdict`).  On each but the last, what was taken has been given back
(`LeavesNothing`), and the books are as before, so the next submission gets the verdict that
it would have got without the refused one.
-/

namespace FpgaDrm.Xdma

open Word Slots

/-! ## What may differ afterwards -/

/-- The engines differ in their scratch only: the ring, the next slot and `prev_cpu`. -/
def DmaEngine.SameBooks (e e' : DmaEngine) : Prop :=
  e' = { e with desc := e'.desc, descIdx := e'.descIdx, prevCpu := e'.prevCpu }

namespace DmaEngine.SameBooks

variable {e e₁ e₂ : DmaEngine}

theorem refl (e : DmaEngine) : e.SameBooks e := rfl

theorem scratch (e : DmaEngine) (desc : Nat → Desc) (descIdx prevCpu : Nat) :
    e.SameBooks { e with desc := desc, descIdx := descIdx, prevCpu := prevCpu } := rfl

theorem trans (h₁ : e.SameBooks e₁) (h₂ : e₁.SameBooks e₂) : e.SameBooks e₂ := by
  unfold SameBooks at h₁ h₂ ⊢
  rw [h₂, h₁]

theorem descUsed (h : e.SameBooks e₁) : e₁.descUsed = e.descUsed := by rw [h]

theorem running (h : e.SameBooks e₁) : e₁.running = e.running := by rw [h]

theorem transferList (h : e.SameBooks e₁) : e₁.transferList = e.transferList := by rw [h]

end DmaEngine.SameBooks

/-- Nothing but scratch and the printed lines differs. -/
structure Sys.Same (s s' : Sys) : Prop where
  engines : ∀ k, (s.engines k).SameBooks (s'.engines k)
  sgt : s'.sgt = s.sgt
  cbReq : s'.cbReq = s.cbReq
  held : s'.held = s.held
  resources : s'.resources = s.resources
  woken : s'.woken = s.woken

namespace Sys.Same

variable {s s₁ s₂ : Sys}

theorem refl (s : Sys) : s.Same s := ⟨fun _ => .refl _, rfl, rfl, rfl, rfl, rfl⟩

theorem trans (h₁ : s.Same s₁) (h₂ : s₁.Same s₂) : s.Same s₂ where
  engines k := (h₁.engines k).trans (h₂.engines k)
  sgt := h₂.sgt.trans h₁.sgt
  cbReq := h₂.cbReq.trans h₁.cbReq
  held := h₂.held.trans h₁.held
  resources := h₂.resources.trans h₁.resources
  woken := h₂.woken.trans h₁.woken

theorem print (h : s.Same s₁) (format : String) : s.Same (s₁.print format) :=
  ⟨h.1, h.2, h.3, h.4, h.5, h.6⟩

/-- An engine that keeps its books is put back. -/
theorem setEngine (h : s.Same s₁) {key : Bool × Int} {e : DmaEngine}
    (he : (s.engines key).SameBooks e) : s.Same (s₁.setEngine key e) := by
  refine ⟨?_, h.sgt, h.cbReq, h.held, h.resources, h.woken⟩
  intro k
  show (s.engines k).SameBooks (Function.update s₁.engines key e k)
  by_cases hk : k = key
  · rw [hk, Function.update_self]
    exact he
  · rw [Function.update_of_ne hk]
    exact h.engines k

end Sys.Same

theorem Sys.setEngine_self (s : Sys) (key : Bool × Int) (e : DmaEngine) :
    (s.setEngine key e).engines key = e := Function.update_self _ _ _

/-- A lock that is taken and given back. -/
theorem Sys.held_release {s s' : Sys} {l : LockName} (h : s'.held = (s.acquire l).held) :
    (s'.release l).held = s.held := by
  show s'.held.erase l = s.held
  rw [h]
  exact List.erase_cons_head _ _

/-- What a section under a lock leaves. -/
theorem Sys.Same.section {s s' : Sys} {l : LockName} (h : (s.acquire l).Same s') :
    s.Same (s'.release l) :=
  ⟨h.engines, h.sgt, h.cbReq, Sys.held_release h.held, h.resources, h.woken⟩

/-! ## `transfer_queue` -/

section

variable {kernel : Kernel} {key : Bool × Int} {transfer : QueuedTransfer} {s : Sys}

/-- `transfer_queue` finds the device or the engine on its way out. -/
def Leaving (kernel : Kernel) (e : DmaEngine) : Prop :=
  kernel.offlineAtQueue = true ∨ e.shutdown &&& engineShutdownRequest ≠ 0

instance (kernel : Kernel) (e : DmaEngine) : Decidable (Leaving kernel e) :=
  inferInstanceAs (Decidable (_ ∨ _))

/-- What `transfer_queue` returns. -/
def queueVerdict (kernel : Kernel) (descNum : Nat) (e : DmaEngine) : Int :=
  if descNum = 0 then -EINVAL else if Leaving kernel e then -EBUSY else 0

theorem transferQueue_refuses (h : queueVerdict kernel transfer.descNum (s.engines key) ≠ 0) :
    ∃ s', transferQueue kernel key transfer s =
      (queueVerdict kernel transfer.descNum (s.engines key), s') ∧ s.Same s' := by
  unfold queueVerdict at h ⊢
  unfold transferQueue
  by_cases hnum : transfer.descNum = 0
  · rw [if_pos hnum, if_pos hnum]
    exact ⟨_, rfl, (Sys.Same.refl s).print _⟩
  rw [if_neg hnum] at h ⊢
  rw [if_neg hnum]
  by_cases hleaving : Leaving kernel (s.engines key)
  swap
  · exact absurd (if_neg hleaving) h
  rw [if_pos hleaving]
  by_cases hoff : kernel.offlineAtQueue = true
  · rw [if_pos hoff]
    exact ⟨_, rfl, (Sys.Same.refl s).print _⟩
  · rw [if_neg hoff]
    refine ⟨_, if_pos (hleaving.resolve_left hoff), Sys.Same.section (Sys.Same.print ?_ _)⟩
    exact (Sys.Same.refl _).setEngine (.scratch _ _ _ _)

theorem transferQueue_accepts (h : queueVerdict kernel transfer.descNum (s.engines key) = 0) :
    (transferQueue kernel key transfer s).1 = 0 := by
  unfold queueVerdict at h
  split at h
  · cases h
  next hnum =>
    split at h
    · cases h
    next hleaving =>
      obtain ⟨honline, hshut⟩ := not_or.mp hleaving
      have hshut' : ¬ ((s.acquire .lock).engines key).shutdown &&& engineShutdownRequest ≠ 0 := hshut
      unfold transferQueue
      rw [if_neg hnum, if_neg honline]
      dsimp only
      rw [if_neg hshut']
      split
      · split <;> rfl
      · rfl

theorem queueVerdict_neg {descNum : Nat} {e : DmaEngine} (h : queueVerdict kernel descNum e ≠ 0) :
    queueVerdict kernel descNum e < 0 := by
  unfold queueVerdict at h ⊢
  split_ifs at h ⊢
  · decide
  · decide
  · exact absurd rfl h

end

/-! ## The cleanup labels -/

/-- The state `t` is `s` with everything given back, `back` being what that took. -/
structure Undone (s t : Sys) (back : List Resource) : Prop where
  engines : ∀ k, (s.engines k).SameBooks (t.engines k)
  cbReq : t.cbReq = none
  nents : t.sgt.nents = 0
  held : t.held = s.held
  resources : t.resources = s.resources ++ back
  woken : t.woken = s.woken

/-- What was taken before `s₁` is given back too. -/
theorem Undone.after {s s₁ t : Sys} {back : List Resource} (h : Undone s₁ t back)
    (taken : List Resource) (hengines : s₁.engines = s.engines) (hheld : s₁.held = s.held)
    (hwoken : s₁.woken = s.woken) (hres : s₁.resources = s.resources ++ taken) :
    Undone s t (taken ++ back) where
  engines := by
    rw [← hengines]
    exact h.engines
  cbReq := h.cbReq
  nents := h.nents
  held := h.held.trans hheld
  resources := by rw [h.resources, hres, List.append_assoc]
  woken := h.woken.trans hwoken

section

variable {a : Submission} {s s' : Sys} (hmap : a.dmaMapped = false) (hnents : s.sgt.nents ≠ 0)
include hmap hnents

theorem unmapSgl_eq (rv : Int) : unmapSgl a rv s =
    (rv, { s.record (.unmapped s.sgt.origNents) with sgt := { s.sgt with nents := 0 } }) := by
  unfold unmapSgl
  rw [if_pos ⟨by rw [hmap]; rfl, hnents⟩]

theorem unmapSgl_undoes (hreq : s.cbReq = none) (h : s.Same s') (rv : Int) :
    ∃ t, unmapSgl a rv s' = (rv, t) ∧ Undone s t [.unmapped s.sgt.origNents] := by
  rw [← h.sgt] at hnents
  refine ⟨_, unmapSgl_eq hmap hnents rv, h.engines, h.cbReq.trans hreq, rfl, h.held, ?_, h.woken⟩
  show s'.resources ++ [_] = _
  rw [h.resources, h.sgt]

theorem unlockDesc_undoes (h : (s.acquire .descLock).Same s') (rv : Int) :
    ∃ t, unlockDesc a rv s' = (rv, t) ∧ Undone s t [.freed, .unmapped s.sgt.origNents] := by
  have hsgt : s'.sgt = s.sgt := h.sgt
  have hreleased : (({ s'.release .descLock with cbReq := none }.record .freed).sgt).nents ≠ 0 := by
    show s'.sgt.nents ≠ 0
    rw [hsgt]
    exact hnents
  refine ⟨_, unmapSgl_eq hmap hreleased rv, h.engines, rfl, rfl, Sys.held_release h.held, ?_,
    h.woken⟩
  show s'.resources ++ [.freed] ++ [.unmapped s'.sgt.origNents] = _
  rw [h.resources, hsgt, List.append_assoc]
  rfl

end

/-! ## From the built transfer to the end -/

section

variable {kernel : Kernel} {a : Submission} {descCount : Nat} {transfer : QueuedTransfer} {s : Sys}

/-- A refused transfer gives its descriptors back. -/
theorem queueLines_refuses {e : DmaEngine}
    (hbooks : { e with descUsed := e.descUsed + descCount }.SameBooks (s.engines a.key))
    (h : queueVerdict kernel transfer.descNum (s.engines a.key) ≠ 0) :
    ∃ s', queueLines kernel a descCount transfer s =
        unlockDesc a (queueVerdict kernel transfer.descNum (s.engines a.key)) s' ∧
      (s.setEngine a.key e).Same s' := by
  obtain ⟨s₁, hqueue, hsame⟩ := transferQueue_refuses h
  unfold queueLines
  rw [hqueue]
  refine ⟨_, if_pos (queueVerdict_neg h), Sys.Same.section ?_⟩
  have he : e.SameBooks { s₁.engines a.key with
      descUsed := (s₁.engines a.key).descUsed - descCount
      desc := descDone transfer.descIndex descCount (s₁.engines a.key).desc } := by
    have hall := hbooks.trans (hsame.engines a.key)
    unfold DmaEngine.SameBooks at hall ⊢
    rw [hall]
    dsimp only
    rw [Int.add_sub_cancel]
  refine ⟨?_, hsame.sgt, hsame.cbReq, ?_, hsame.resources, hsame.woken⟩
  · intro k
    show (Function.update s.engines a.key e k).SameBooks (Function.update s₁.engines a.key _ k)
    by_cases hk : k = a.key
    · rw [hk, Function.update_self, Function.update_self]
      exact he
    · rw [Function.update_of_ne hk, Function.update_of_ne hk]
      exact hsame.engines k
  · show LockName.lock :: s₁.held = LockName.lock :: s.held
    rw [hsame.held]

theorem queueLines_accepts (h : queueVerdict kernel transfer.descNum (s.engines a.key) = 0) :
    (queueLines kernel a descCount transfer s).1 = -EIOCBQUEUED := by
  have hret := transferQueue_accepts h
  unfold queueLines
  split
  next rv s₁ hqueue =>
    rw [hqueue] at hret
    rw [if_neg (show ¬ rv < 0 by rw [show rv = 0 from hret]; decide)]

end

/-! ## The loops over the scatter list

`xdma_desc_control_set` is only given the low bits, so the loops write what `buildEntries`
says and have no other end.
-/

section

variable {b : Build} {s s' : BuildState}

theorem writeDesc_of_fill {addr len : Nat} (h : fillDesc b addr len s = .ok s') :
    writeDesc b addr len s = (.ok (), s') := by
  unfold writeDesc
  rw [h]

theorem writeEntry_of_build (n : Nat) {addr : Nat} (h : buildEntry b addr n s = some (.ok s')) :
    writeEntry b addr n s = some (.ok (), s') := by
  induction n using Nat.strongRecOn generalizing addr s with
  | ind n ih =>
    rw [buildEntry] at h
    rw [writeEntry]
    split at h
    next hn =>
      rw [if_pos hn]
      obtain rfl := Except.ok.inj (Option.some.inj h)
      rfl
    next hn =>
      rw [if_neg hn]
      dsimp only at h ⊢
      split at h
      · cases h
      next hlen =>
        rw [dif_neg hlen]
        split at h
        · cases h
        next hfill =>
          rw [writeDesc_of_fill hfill]
          exact ih _ (by omega) h

theorem writeEntries_of_build (es : List SgEntry) (h : buildEntries b es s = some (.ok s')) :
    writeEntries b es s = some (.ok (), s') := by
  induction es generalizing s with
  | nil =>
    obtain rfl := Except.ok.inj (Option.some.inj h)
    rfl
  | cons e es ih =>
    rw [buildEntries] at h
    rw [writeEntries]
    split at h
    next s₁ hentry =>
      rw [writeEntry_of_build e.len hentry]
      exact ih h
    next hne =>
      exact absurd h (hne _)

end

/-- The engine as `buildLines` sees it. -/
def DmaEngine.toEngine (e : DmaEngine) (hidx : e.descIdx < e.descMax) (hmax : e.descMax ≤ 0x800) :
    Engine where
  desc := e.desc
  descBus := e.descBus
  cyclicResultBus := e.cyclicResultBus
  descMax := e.descMax
  descIdx := e.descIdx
  descUsed := e.descUsed.toNat
  running := e.running
  transferList := e.transferList.map (·.toTransfer)
  descIdx_lt := hidx
  descMax_le := hmax

/-- The transfer that is queued is the one of `buildLines`. -/
theorem toEngine_buildLines (kernel : Kernel) (a : Submission) (descCount : Nat) {e : DmaEngine}
    (hidx : e.descIdx < e.descMax) (hmax : e.descMax ≤ 0x800) (hbusy : e.busy = false)
    {entries : List SgEntry} {t : BuildState}
    (h : buildEntries (a.build kernel (e.nextIdx descCount) descCount) entries
      ⟨e.linkedRing descCount, 0, a.lineSize, 0, 0⟩ = some (.ok t)) :
    ∃ eng, buildLines kernel.descBlenMax entries a.dmaMapped a.epAddr a.lineSize descCount
        (e.toEngine hidx hmax) =
          some (.ok (eng, { (e.newTransfer a descCount).toTransfer with len := t.len })) ∧
      eng.desc = setAdjacent (e.nextIdx descCount) descCount t.desc ∧
      eng.descIdx = (e.nextIdx descCount + descCount) % e.descMax := by
  have hidle : (e.toEngine hidx hmax).idle = true := by
    unfold DmaEngine.busy at hbusy
    simp only [Bool.or_eq_false_iff, decide_eq_false_iff_not, not_not] at hbusy
    obtain ⟨⟨hused, hrun⟩, hlist⟩ := hbusy
    show ((e.descUsed.toNat = 0 : Bool) && !e.running &&
      (e.transferList.map (·.toTransfer)).isEmpty) = true
    simp_all
  unfold buildLines
  rw [hidle]
  simp only [Bool.not_true, Bool.false_eq_true, if_false]
  split
  next hnone => exact absurd (hnone.symm.trans h) (by simp)
  next herror => exact absurd (herror.symm.trans h) (by simp)
  next t' hok =>
    obtain rfl : t' = t := Except.ok.inj (Option.some.inj (hok.symm.trans h))
    exact ⟨_, rfl, rfl, rfl⟩

/-! ## The verdict -/

/-- A call that returns `rv`, and leaves a state like `P` unless the frame was queued. -/
def Ends (r : Option (Int × Sys)) (rv : Int) (P : Sys → Prop) : Prop :=
  ∃ t, r = some (rv, t) ∧ (rv ≠ -EIOCBQUEUED → P t)

theorem Ends.mono {r : Option (Int × Sys)} {rv : Int} {P Q : Sys → Prop} (h : Ends r rv P)
    (hpq : ∀ t, P t → Q t) : Ends r rv Q := by
  obtain ⟨t, hr, hp⟩ := h
  exact ⟨t, hr, fun hrv => hpq t (hp hrv)⟩

def requestVerdict (kernel : Kernel) (descCount : Nat) (e : DmaEngine) : Int :=
  if e.busy then -EBUSY
  else if queueVerdict kernel descCount e ≠ 0 then queueVerdict kernel descCount e
  else -EIOCBQUEUED

section

variable {kernel : Kernel} {a : Submission} {s : Sys} (hmap : a.dmaMapped = false)
  (hnents : s.sgt.nents ≠ 0)
include hmap hnents

/-- The built transfer is queued, or all of it is undone. -/
theorem queueLines_ends {descCount : Nat} {transfer : QueuedTransfer}
    {e : DmaEngine} (hbooks : DmaEngine.SameBooks { s.engines a.key with
      descUsed := (s.engines a.key).descUsed + descCount } e) :
    Ends (some (queueLines kernel a descCount transfer
        ((((s.acquire .descLock).acquire .lock).setEngine a.key e).release .lock)))
      (if queueVerdict kernel transfer.descNum (s.engines a.key) ≠ 0 then
        queueVerdict kernel transfer.descNum (s.engines a.key) else -EIOCBQUEUED)
      (Undone s · [.freed, .unmapped s.sgt.origNents]) := by
  set s₁ := (((s.acquire .descLock).acquire .lock).setEngine a.key e).release .lock with hs₁
  have hengine : s₁.engines a.key = e := Sys.setEngine_self _ _ _
  have hverdict : queueVerdict kernel transfer.descNum (s₁.engines a.key) =
      queueVerdict kernel transfer.descNum (s.engines a.key) := by
    rw [hengine, hbooks]
    rfl
  rw [← hengine] at hbooks
  by_cases h : queueVerdict kernel transfer.descNum (s.engines a.key) ≠ 0
  · rw [if_pos h, ← hverdict]
    obtain ⟨s', hqueue, hsame⟩ := queueLines_refuses hbooks (hverdict ▸ h)
    have hback : (s.acquire .descLock).Same (s₁.setEngine a.key (s.engines a.key)) := by
      refine ⟨?_, rfl, rfl, ?_, rfl, rfl⟩
      · intro k
        rw [hs₁]
        show (s.engines k).SameBooks
          (Function.update (Function.update s.engines a.key e) a.key (s.engines a.key) k)
        rw [Function.update_idem, Function.update_eq_self]
        exact .refl _
      · exact List.erase_cons_head LockName.lock (s.acquire .descLock).held
    obtain ⟨t, ht, hundone⟩ := unlockDesc_undoes hmap hnents (hback.trans hsame) _
    exact ⟨t, congrArg some (hqueue.trans ht), fun _ => hundone⟩
  · rw [if_neg h]
    rw [not_not, ← hverdict] at h
    have hret : (queueLines kernel a descCount transfer s₁).1 = -EIOCBQUEUED := queueLines_accepts h
    exact ⟨_, congrArg some (Prod.ext hret rfl), fun hne => absurd rfl hne⟩

theorem submitRequest_ends (descCount : Nat) (hl : 0 < a.lineSize) (hm : 0 < kernel.descBlenMax) :
    Ends (submitRequest kernel a descCount s) (requestVerdict kernel descCount (s.engines a.key))
      (Undone s · [.freed, .unmapped s.sgt.origNents]) := by
  unfold submitRequest requestVerdict
  dsimp only
  have hbusy : ((s.acquire .descLock).acquire .lock).engines a.key = s.engines a.key := rfl
  rw [hbusy]
  by_cases hb : (s.engines a.key).busy = true
  · rw [if_pos hb, if_pos hb]
    have hsame : (s.acquire .descLock).Same (((s.acquire .descLock).acquire .lock).release .lock) :=
      Sys.Same.section (.refl _)
    obtain ⟨t, ht, hundone⟩ := unlockDesc_undoes hmap hnents hsame (-EBUSY)
    exact ⟨t, congrArg some ht, fun _ => hundone⟩
  rw [if_neg hb, if_neg hb]
  have hstart : BuildState.At (a.build kernel ((s.engines a.key).nextIdx descCount) descCount) 0
      ⟨(s.engines a.key).linkedRing descCount, 0, a.lineSize, 0, 0⟩ :=
    ⟨by rw [Nat.zero_mod]; rfl, (Nat.zero_div _).symm⟩
  rw [writeEntries_of_build _ (buildEntries_eq hl hm _ 0 hstart)]
  exact queueLines_ends hmap hnents rfl

end

/-- The line geometry fits the mapped entries. -/
def Fits (kernel : Kernel) (a : Submission) (entries : List SgEntry) : Prop :=
  0 < kernel.descBlenMax ∧ total entries = a.lineSize * a.lineCount

instance (kernel : Kernel) (a : Submission) (entries : List SgEntry) :
    Decidable (Fits kernel a entries) :=
  inferInstanceAs (Decidable (_ ∧ _))

/-- The descriptors that they need. -/
def Submission.descCount (a : Submission) (kernel : Kernel) (entries : List SgEntry) : Nat :=
  u32 (segments a.lineSize kernel.descBlenMax 0 entries).length

def mappedVerdict (kernel : Kernel) (a : Submission) (e : DmaEngine)
    (entries : List SgEntry) : Int :=
  if ¬ Fits kernel a entries then -EINVAL
  else if e.descMax < a.descCount kernel entries then -EINVAL
  else if ¬ (kernel.kzalloc ∨ kernel.vmalloc) then -ENOMEM
  else requestVerdict kernel (a.descCount kernel entries) e

theorem submitMapped_ends {kernel : Kernel} {a : Submission} {s : Sys} (hmap : a.dmaMapped = false)
    (hnents : s.sgt.nents ≠ 0) (hreq : s.cbReq = none) (hl : 0 < a.lineSize)
    (hc : 0 < a.lineCount) :
    Ends (submitMapped kernel a s) (mappedVerdict kernel a (s.engines a.key) s.sgt.entries)
      fun t => Undone s t [.unmapped s.sgt.origNents] ∨
        Undone s t [.allocated, .freed, .unmapped s.sgt.origNents] := by
  have hunmap : ∀ {s'} (rv : Int), s.Same s' → Ends (some (unmapSgl a rv s')) rv
      fun t => Undone s t [.unmapped s.sgt.origNents] ∨
        Undone s t [.allocated, .freed, .unmapped s.sgt.origNents] := by
    intro s' rv hsame
    obtain ⟨t, ht, hundone⟩ := unmapSgl_undoes hmap hnents hreq hsame rv
    exact ⟨t, congrArg some ht, fun _ => .inl hundone⟩
  unfold submitMapped mappedVerdict
  rw [countLineDescriptors_eq hl hc]
  unfold Fits Submission.descCount
  by_cases hfits : 0 < kernel.descBlenMax ∧ total s.sgt.entries = a.lineSize * a.lineCount
  swap
  · rw [if_neg hfits, if_pos hfits]
    exact hunmap _ (.refl s)
  rw [if_pos hfits, if_neg (not_not.mpr hfits)]
  dsimp only
  set count := (segments a.lineSize kernel.descBlenMax 0 s.sgt.entries).length
  by_cases hmax : (s.engines a.key).descMax < u32 count
  · rw [if_pos hmax, if_pos hmax]
    exact hunmap _ ((Sys.Same.refl s).print _)
  rw [if_neg hmax, if_neg hmax]
  unfold requestAlloc
  by_cases hmem : kernel.kzalloc = true ∨ kernel.vmalloc = true
  swap
  · rw [if_neg hmem, if_pos hmem]
    exact hunmap _ ((Sys.Same.refl s).print _)
  rw [if_pos hmem, if_neg (not_not.mpr hmem)]
  obtain ⟨t, ht, hundone⟩ := @submitRequest_ends kernel a
    { s.record .allocated with
      cbReq := some ⟨a.epAddr, u32 (a.lineSize * a.lineCount : Nat), u32 count⟩ }
    hmap hnents (u32 count) hl hfits.1
  exact ⟨t, ht, fun hrv => .inr ((hundone hrv).after [.allocated] rfl rfl rfl rfl)⟩

def engineVerdict (kernel : Kernel) (a : Submission) (e : DmaEngine) : Int :=
  if e.magic ≠ magicEngine then -EINVAL
  else if kernel.offlineAtEntry then -EBUSY
  else if e.dir ≠ a.dir then -EINVAL
  else if !a.write ∨ !e.streaming then -EINVAL
  else if kernel.dmaMapSg.length = 0 then - EIO
  else mappedVerdict kernel a e kernel.dmaMapSg

/-- What a refused call can have taken and given back. -/
def balanced (origNents : Nat) : List (List Resource) :=
  [[], [.mapped origNents, .unmapped origNents],
    [.mapped origNents, .allocated, .freed, .unmapped origNents]]

/-- Everything is given back, whatever it was. -/
def Restored (s t : Sys) : Prop := ∃ back ∈ balanced s.sgt.origNents, Undone s t back

theorem Sys.Same.restored {s t : Sys} (h : s.Same t) (hreq : s.cbReq = none)
    (hnents : s.sgt.nents = 0) : Restored s t := by
  refine ⟨[], by simp [balanced], h.engines, h.cbReq.trans hreq, ?_, h.held, ?_, h.woken⟩
  · rw [h.sgt]
    exact hnents
  · rw [List.append_nil]
    exact h.resources

theorem Sys.Same.restored_trans {s s₁ t : Sys} (h : s.Same s₁) (ht : Restored s₁ t) :
    Restored s t := by
  obtain ⟨back, hback, hundone⟩ := ht
  rw [h.sgt] at hback
  refine ⟨back, hback, fun k => (h.engines k).trans (hundone.engines k), hundone.cbReq,
    hundone.nents, hundone.held.trans h.held, ?_, hundone.woken.trans h.woken⟩
  rw [hundone.resources, h.resources]

section

variable {kernel : Kernel} {a : Submission} {s : Sys} (hmap : a.dmaMapped = false)
  (hnents : s.sgt.nents = 0) (hreq : s.cbReq = none) (hl : 0 < a.lineSize) (hc : 0 < a.lineCount)
include hmap hnents hreq hl hc

theorem submitEngine_ends : Ends (submitEngine kernel a s)
    (engineVerdict kernel a (s.engines a.key)) (Restored s) := by
  have hprint : ∀ (rv : Int) (format : String),
      Ends (some (rv, s.print format)) rv (Restored s) := fun rv format =>
    ⟨_, rfl, fun _ => ((Sys.Same.refl s).print format).restored hreq hnents⟩
  unfold submitEngine engineVerdict
  dsimp only
  by_cases hmagic : (s.engines a.key).magic ≠ magicEngine
  · rw [if_pos hmagic, if_pos hmagic]
    exact hprint _ _
  rw [if_neg hmagic, if_neg hmagic]
  by_cases hoff : kernel.offlineAtEntry = true
  · rw [if_pos hoff, if_pos hoff]
    exact hprint _ _
  rw [if_neg hoff, if_neg hoff]
  by_cases hdir : (s.engines a.key).dir ≠ a.dir
  · rw [if_pos hdir, if_pos hdir]
    exact hprint _ _
  rw [if_neg hdir, if_neg hdir]
  by_cases hstream : (!a.write) = true ∨ (!(s.engines a.key).streaming) = true
  · rw [if_pos hstream, if_pos hstream]
    exact hprint _ _
  rw [if_neg hstream, if_neg hstream, hmap, Bool.not_false, if_pos rfl]
  cases hsg : kernel.dmaMapSg with
  | nil => exact hprint _ _
  | cons entry entries =>
    rw [if_neg (by simp)]
    set s₁ : Sys := { s.record (.mapped s.sgt.origNents) with
      sgt := { s.sgt with sgl := entry :: entries, nents := (entry :: entries).length } } with hs₁
    have hentries : s₁.sgt.entries = entry :: entries := List.take_length
    have hends := @submitMapped_ends kernel a s₁ hmap (by simp [hs₁]) hreq hl hc
    rw [hentries] at hends
    refine hends.mono ?_
    rintro t (h | h)
    · exact ⟨[.mapped s.sgt.origNents, .unmapped s.sgt.origNents], by simp [balanced],
        h.after [.mapped s.sgt.origNents] rfl rfl rfl rfl⟩
    · exact ⟨[.mapped s.sgt.origNents, .allocated, .freed, .unmapped s.sgt.origNents],
        by simp [balanced], h.after [.mapped s.sgt.origNents] rfl rfl rfl rfl⟩

end

/-- `debug_check_dev_hndl` finds the handle. -/
def Device.knows (dev : Device) (hndl : Nat) : Bool :=
  match dev.pdev with
  | none => false
  | some pdev => (dev.registered.find? fun x => x.2 = pdev).any fun x => x.1 = hndl

/-- The result of a call with `dma_mapped` clear. -/
def verdict (dev : Device) (kernel : Kernel) (a : Submission) (e : DmaEngine) : Int :=
  if !a.cbHndl ∨ !a.sgt ∨ a.lineSize = 0 ∨ a.lineCount = 0 then -EINVAL
  else if !a.devHndl.any dev.knows then -EINVAL
  else if a.write ∧ a.channel ≥ dev.h2cChannelMax then -EINVAL
  else if !a.write ∧ a.channel ≥ dev.c2hChannelMax then -EINVAL
  else engineVerdict kernel a e

theorem debugCheckDevHndl_same (dev : Device) (hndl : Nat) (s : Sys) :
    s.Same (debugCheckDevHndl dev hndl s).2 := by
  unfold debugCheckDevHndl
  split
  · exact .refl s
  · split
    · exact (Sys.Same.refl s).print _
    · split
      · exact (Sys.Same.refl s).print _
      · exact .refl s

theorem debugCheckDevHndl_ret (dev : Device) (hndl : Nat) (s : Sys) :
    (debugCheckDevHndl dev hndl s).1 = if dev.knows hndl then 0 else -EINVAL := by
  unfold debugCheckDevHndl Device.knows
  cases dev.pdev with
  | none => rfl
  | some pdev =>
    dsimp only
    obtain hfind | ⟨xdev, hfind⟩ :=
      Option.eq_none_or_eq_some (dev.registered.find? fun x => x.2 = pdev)
    · simp [hfind]
    · by_cases h : xdev.1 = hndl <;> simp [hfind, h]

theorem SameBooks_verdict (dev : Device) (kernel : Kernel) (a : Submission) {e e₁ : DmaEngine}
    (h : e.SameBooks e₁) : verdict dev kernel a e₁ = verdict dev kernel a e := by
  rw [h]
  rfl

/-- Every call returns, with the verdict on its engine, and restores all unless the frame is
queued. -/
theorem submitLines_verdict (dev : Device) (kernel : Kernel) {a : Submission} {s : Sys}
    (hmap : a.dmaMapped = false) (hnents : s.sgt.nents = 0) (hreq : s.cbReq = none) :
    Ends (submitLines dev kernel a s) (verdict dev kernel a (s.engines a.key)) (Restored s) := by
  have hsame : ∀ {s'} (rv : Int), s.Same s' → Ends (some (rv, s')) rv (Restored s) :=
    fun rv h => ⟨_, rfl, fun _ => h.restored hreq hnents⟩
  unfold submitLines verdict
  by_cases hargs : (!a.cbHndl) = true ∨ (!a.sgt) = true ∨ a.lineSize = 0 ∨ a.lineCount = 0
  · rw [if_pos hargs, if_pos hargs]
    exact hsame _ (.refl s)
  rw [if_neg hargs, if_neg hargs]
  cases hhndl : a.devHndl with
  | none => exact hsame _ (.refl s)
  | some hndl =>
    have hret := debugCheckDevHndl_ret dev hndl s
    have hs := debugCheckDevHndl_same dev hndl s
    dsimp only
    generalize debugCheckDevHndl dev hndl s = r at hret hs ⊢
    rw [Option.any_some]
    by_cases hknown : dev.knows hndl = true
    swap
    · rw [if_neg hknown] at hret
      rw [hret, if_pos (show (-EINVAL : Int) < 0 by decide),
        if_pos (show (!dev.knows hndl) = true by simpa using hknown)]
      exact hsame _ hs
    rw [if_pos hknown] at hret
    rw [hret, if_neg (show ¬ (0 : Int) < 0 by decide),
      if_neg (show ¬ (!dev.knows hndl) = true by simpa using hknown)]
    by_cases hh2c : a.write = true ∧ a.channel ≥ dev.h2cChannelMax
    · rw [if_pos hh2c, if_pos hh2c]
      exact hsame _ (hs.print _)
    rw [if_neg hh2c, if_neg hh2c]
    by_cases hc2h : (!a.write) = true ∧ a.channel ≥ dev.c2hChannelMax
    · rw [if_pos hc2h, if_pos hc2h]
      exact hsame _ (hs.print _)
    rw [if_neg hc2h, if_neg hc2h]
    have hengine : engineVerdict kernel a (r.2.engines a.key) =
        engineVerdict kernel a (s.engines a.key) := by
      rw [hs.engines a.key]
      rfl
    have hends := @submitEngine_ends kernel a r.2 hmap (hs.sgt ▸ hnents)
      (hs.cbReq.trans hreq) (Nat.pos_of_ne_zero (by tauto)) (Nat.pos_of_ne_zero (by tauto))
    rw [hengine] at hends
    exact hends.mono fun t => hs.restored_trans

/-! ## A refused submission as a whole -/

/-- The state `t` shows no trace of a call that began in `s`. -/
structure LeavesNothing (s t : Sys) : Prop where
  descUsed : ∀ k, (t.engines k).descUsed = (s.engines k).descUsed
  running : ∀ k, (t.engines k).running = (s.engines k).running
  transferList : ∀ k, (t.engines k).transferList = (s.engines k).transferList
  cbReq : t.cbReq = none
  nents : t.sgt.nents = 0
  held : t.held = s.held
  resources : ∃ back ∈ balanced s.sgt.origNents, t.resources = s.resources ++ back

theorem Restored.leavesNothing {s t : Sys} (h : Restored s t) : LeavesNothing s t := by
  obtain ⟨back, hback, hundone⟩ := h
  exact ⟨fun k => (hundone.engines k).descUsed, fun k => (hundone.engines k).running,
    fun k => (hundone.engines k).transferList, hundone.cbReq, hundone.nents, hundone.held,
    back, hback, hundone.resources⟩

/-- The next call does not notice a refused one. -/
theorem Restored.next {s t : Sys} (h : Restored s t) (hnents : s.sgt.nents = 0)
    (hreq : s.cbReq = none) (dev : Device) (kernel : Kernel) {a : Submission}
    (hmap : a.dmaMapped = false) :
    (submitLines dev kernel a t).map Prod.fst = (submitLines dev kernel a s).map Prod.fst := by
  obtain ⟨back, -, hundone⟩ := h
  obtain ⟨s₁, hs₁, -⟩ := submitLines_verdict dev kernel hmap hnents hreq
  obtain ⟨t₁, ht₁, -⟩ := submitLines_verdict dev kernel hmap hundone.nents hundone.cbReq
  rw [hs₁, ht₁, SameBooks_verdict dev kernel a (hundone.engines a.key)]
  rfl

theorem submitFrameNowait_refused {dev : Device} {kernel : Kernel} {xdmaHndl : Option Nat}
    {h2cChannel streamEpAddr : Nat} {fpga : FrameUpload} {rv : Int} {s : Sys}
    (h : submitLines dev kernel (fpga.submission xdmaHndl h2cChannel streamEpAddr)
      fpga.start.xdma = some (rv, s)) (hrv : rv ≠ -EIOCBQUEUED) :
    ∃ ret fpga', submitFrameNowait dev kernel xdmaHndl h2cChannel streamEpAddr fpga =
        some (ret, fpga') ∧ ret < 0 ∧ fpga'.xdma = s ∧ fpga'.dmaInflight = false ∧
      fpga'.dmaCompletionPending = false := by
  unfold submitFrameNowait
  dsimp only
  rw [h]
  dsimp only
  rw [if_pos hrv]
  refine ⟨_, _, rfl, ?_, rfl, rfl, rfl⟩
  split
  · assumption
  · decide

/-- A submission that is not queued leaves nothing behind, in the engine or in the driver. -/
theorem refused_leaves_nothing (dev : Device) (kernel : Kernel) :
    (∀ (a : Submission) (s : Sys), a.dmaMapped = false → s.sgt.nents = 0 → s.cbReq = none →
      ∃ rv s', submitLines dev kernel a s = some (rv, s') ∧ (rv ≠ -EIOCBQUEUED →
        LeavesNothing s s' ∧
        ∀ dev₂ kernel₂ a₂, a₂.dmaMapped = false →
          (submitLines dev₂ kernel₂ a₂ s').map Prod.fst =
            (submitLines dev₂ kernel₂ a₂ s).map Prod.fst)) ∧
    ∀ (xdmaHndl : Option Nat) (h2cChannel streamEpAddr : Nat) (fpga : FrameUpload),
      ∃ rv s', submitLines dev kernel (fpga.submission xdmaHndl h2cChannel streamEpAddr)
          fpga.start.xdma = some (rv, s') ∧ (rv ≠ -EIOCBQUEUED →
        LeavesNothing fpga.start.xdma s' ∧
        ∃ ret fpga', submitFrameNowait dev kernel xdmaHndl h2cChannel streamEpAddr fpga =
            some (ret, fpga') ∧ ret < 0 ∧ fpga'.xdma = s' ∧ fpga'.dmaInflight = false ∧
          fpga'.dmaCompletionPending = false) := by
  constructor
  · intro a s hmap hnents hreq
    obtain ⟨s', hs', hrest⟩ := submitLines_verdict dev kernel hmap hnents hreq
    refine ⟨_, s', hs', fun hrv => ⟨(hrest hrv).leavesNothing, ?_⟩⟩
    intro dev₂ kernel₂ a₂ hmap₂
    exact (hrest hrv).next hnents hreq dev₂ kernel₂ hmap₂
  · intro xdmaHndl h2cChannel streamEpAddr fpga
    obtain ⟨s', hs', hrest⟩ := submitLines_verdict dev kernel
      (a := fpga.submission xdmaHndl h2cChannel streamEpAddr) (s := fpga.start.xdma) rfl rfl rfl
    exact ⟨_, s', hs', fun hrv => ⟨(hrest hrv).leavesNothing, submitFrameNowait_refused hs' hrv⟩⟩

/-! An idle engine, and a mapping that is shorter than the line. -/

def restingEngine : DmaEngine where
  magic := magicEngine
  dir := .toDevice
  streaming := true
  running := false
  nonIncrAddr := false
  shutdown := engineShutdownNone
  descDequeued := 0
  descMax := 0x800
  status := 0
  transferList := []
  cyclicResultBus := 0x8000
  prevCpu := 0
  descBus := 0x10000
  desc := fun _ => default
  descIdx := 0
  descUsed := 0
  xdmaPerf := false
  cmplthp := true
  regs := ⟨0, 0, 0, 0, 0, 0⟩

def restingSys : Sys := ⟨fun _ => restingEngine, ⟨[], 1, 0⟩, none, [], [], 0, []⟩

def knownDevice : Device := ⟨some 7, [(1, 7)], 1, 1⟩

def shortMapping : Kernel where
  descBlenMax := 0x0fffffff
  pollMode := false
  enableStC2hCredit := false
  offlineAtEntry := false
  offlineAtQueue := false
  dmaMapSg := [⟨0x100000, 4, by decide, by decide⟩]
  kzalloc := true
  vmalloc := true
  cpu := 0
  status := 0

def oneLine : Submission := ⟨true, some 1, 0, true, 0, true, false, 8, 1⟩

theorem refused_leaves_nothing_short : ∃ s',
    submitLines knownDevice shortMapping oneLine restingSys = some (-EINVAL, s') ∧
      LeavesNothing restingSys s' := by
  obtain ⟨rv, s', hs', hrest⟩ := (refused_leaves_nothing knownDevice shortMapping).1 oneLine
    restingSys rfl rfl rfl
  obtain ⟨t, ht, -⟩ := submitLines_verdict knownDevice shortMapping (a := oneLine) (s := restingSys)
    rfl rfl rfl
  have hverdict : verdict knownDevice shortMapping oneLine (restingSys.engines oneLine.key) =
      -EINVAL := by
    decide
  have hrv : rv = -EINVAL := by
    rw [hs', hverdict] at ht
    exact (Prod.mk.inj (Option.some.inj ht)).1
  rw [hrv] at hs' hrest
  exact ⟨s', hs', (hrest (by decide)).1⟩

end FpgaDrm.Xdma
