import SimpleDisplay.Xdma.Served

/-!
# What a completed transfer means

An engine without `eop_flush` that is served by its interrupt, and whose card works the
descriptors of a chain off one after another until it has done the last or meets an error.
Then the runs of the card that moved something are, in order, the transfers that have left,
and a transfer is `COMPLETED` just when its whole chain was done.

The chain at an address is that of the transfer on the list that was built there.  When the
transfer has left, the next one there may be of another length, as it is after a mode
change.
-/

namespace FpgaDrm.Xdma

open StateMachine Word

/-- What the card does by itself on a chain of `n` descriptors. -/
inductive Card.Next (errMask n : Nat) : Card → Card → Prop
  | advance (c : Card) : c.busy = true → c.count + 1 < n → Next errMask n c { c with count := c.count + 1 }
  | finish (c : Card) : c.busy = true → c.count + 1 = n →
      Next errMask n c { c with
        count := c.count + 1
        busy := false
        latched := c.latched ||| (statDescStopped ||| statDescCompleted)
        ended := c.ended ++ [⟨c.first, c.count + 1, true⟩] }
  | fail (c : Card) (errs : Nat) : c.busy = true → c.count < n →
      errs &&& errMask ≠ 0 → errs &&& statBusy = 0 →
      Next errMask n c { c with
        busy := false
        latched := c.latched ||| errs
        ended := c.ended ++ [⟨c.first, c.count, false⟩] }

def CardRun.moved (r : CardRun) : Bool := r.count ≠ 0

/-- A run on the chain of a transfer: it was without error just when it did the whole. -/
structure CardRun.On (x : Xfer) (r : CardRun) : Prop where
  first : r.first = x.descBus
  whole : r.ok = true ↔ r.count = x.descNum

/-- A transfer was told what became of its run. -/
structure Agrees (x : Xfer) (r : CardRun) : Prop extends CardRun.On x r where
  completed : x.state = .completed ↔ r.ok = true

namespace Served

/-- A transfer as `transfer_init` builds it, for an engine without `eop_flush`. -/
structure Built (x : Xfer) : Prop where
  le : x.descNum ≤ 0x800
  cmplTh : x.descCmplTh = x.descNum
  cyclic : x.cyclic = false

/-- Served by interrupts, with nobody giving up.  No chain is built over one of another length
whose transfer is on the list, and a request is freed when its transfers have left. -/
def Honest : Event → Served → Prop
  | .queue x, s => Built x ∧ ∀ y ∈ s.transferList, y.descBus = x.descBus → y.descNum = x.descNum
  | .card c, s =>
    ∃ x ∈ s.transferList, s.card.first = x.descBus ∧ Card.Next s.dir.errMask x.descNum s.card c
  | .isr, s => s.card.latched ≠ 0
  | .work, _ => True
  | .requestFree req, s => ∀ x ∈ s.transferList, x.req ≠ req
  | _, _ => False

/-- A transfer on the list. -/
structure Waits (x : Xfer) : Prop extends Built x where
  pos : 0 < x.descNum

/-- The transfers of a list, none of them freed, and one chain at an address. -/
structure Chains (freed : List Nat) (l : List Xfer) : Prop where
  waits : ∀ x ∈ l, Waits x
  live : ∀ x ∈ l, x.req ∉ freed
  same : ∀ x ∈ l, ∀ y ∈ l, x.descBus = y.descBus → x.descNum = y.descNum

theorem Chains.subset {freed : List Nat} {l l' : List Xfer} (h : Chains freed l) (hl : l' ⊆ l) :
    Chains freed l' :=
  ⟨fun x hx => h.waits x (hl hx), fun x hx => h.live x (hl hx),
    fun x hx y hy => h.same x (hl hx) y (hl hy)⟩

/-- The last run of the card, on the first transfer, failed before it had moved anything. -/
def Stalled (runs : List CardRun) (x : Xfer) : Prop := runs.getLast? = some ⟨x.descBus, 0, false⟩

/-- The engine and its card between two steps; `past` are the runs of the card that were
served. -/
inductive Phase (s : Served) (past : List CardRun) : Prop
  | idle : s.running = false → s.card.busy = false → s.card.latched = 0 → s.workQueued = false →
      s.card.ended = past → (∀ x ∈ s.transferList.head?, Stalled past x) → Phase s past
  | busy (x : Xfer) (l : List Xfer) : s.running = true → s.transferList = x :: l →
      s.card.first = x.descBus → s.descDequeued = 0 → s.card.busy = true →
      s.card.count < x.descNum → s.card.latched = 0 → s.workQueued = false →
      s.card.ended = past → s.status &&& s.dir.errMask = 0 → Phase s past
  | ended (x : Xfer) (l : List Xfer) (ok : Bool) : s.running = true → s.transferList = x :: l →
      s.card.first = x.descBus → s.descDequeued = 0 → s.card.busy = false →
      s.card.count ≤ x.descNum → s.card.latched ≠ 0 → s.card.latched &&& statBusy = 0 →
      (ok = true ↔ s.card.count = x.descNum) → (ok = true → s.card.latched &&& s.dir.errMask = 0) →
      (ok = false → s.card.latched &&& s.dir.errMask ≠ 0) →
      s.card.ended = past ++ [⟨x.descBus, s.card.count, ok⟩] → Phase s past

structure Truthful (s : Served) (past : List CardRun) : Prop where
  eopFlush : s.eopFlush = false
  chains : Chains s.freed s.transferList
  phase : Phase s past
  verdicts : List.Forall₂ Agrees s.left (past.filter (·.moved))

variable {s t : Served} {past : List CardRun}

/-- The interrupt mask and the freed requests do not matter. -/
theorem Truthful.same_work (h : Truthful s past) {freed : List Nat} (irq : Bool)
    (hchains : Chains freed s.transferList) :
    Truthful { s with irqEnabled := irq, freed := freed } past := by
  refine ⟨h.eopFlush, hchains, ?_, h.verdicts⟩
  cases h.phase with
  | idle h1 h2 h3 h4 h5 h6 => exact .idle h1 h2 h3 h4 h5 h6
  | busy x l h1 h2 h3 h4 h5 h6 h7 h8 h9 h10 => exact .busy x l h1 h2 h3 h4 h5 h6 h7 h8 h9 h10
  | ended x l ok h1 h2 h3 h4 h5 h6 h7 h8 h9 h10 h11 h12 =>
    exact .ended x l ok h1 h2 h3 h4 h5 h6 h7 h8 h9 h10 h11 h12

/-! ## The functions -/

/-- A start puts the card to work on the first transfer. -/
theorem start_phase {x : Xfer} {l : List Xfer} (hlist : s.transferList = x :: l)
    (hpos : 0 < x.descNum) (hlatched : s.card.latched = 0) (hwork : s.workQueued = false)
    (hended : s.card.ended = past) : Phase s.start past := by
  have hstart : s.start = { { s with
      shutdown := engineShutdownNone
      descDequeued := 0
      card := s.card.start x.descBus }.statusRead false with running := true } := by
    unfold start
    rw [hlist]
  rw [hstart]
  refine .busy x l rfl hlist rfl rfl rfl hpos hlatched hwork hended ?_
  show (s.card.latched ||| statBusy) &&& s.dir.errMask = 0
  rw [hlatched]
  cases s.dir <;> rfl

@[simp] theorem start_eopFlush (s : Served) : s.start.eopFlush = s.eopFlush := by
  unfold start; split <;> rfl

@[simp] theorem start_transferList (s : Served) : s.start.transferList = s.transferList := by
  unfold start; split <;> rfl

@[simp] theorem start_left (s : Served) : s.start.left = s.left := by
  unfold start; split <;> rfl

@[simp] theorem start_freed (s : Served) : s.start.freed = s.freed := by
  unfold start; split <;> rfl

theorem start_truthful {x : Xfer} {l : List Xfer} (heop : s.eopFlush = false)
    (hchains : Chains s.freed s.transferList) (hlist : s.transferList = x :: l)
    (hlatched : s.card.latched = 0) (hwork : s.workQueued = false) (hended : s.card.ended = past)
    (hverdicts : List.Forall₂ Agrees s.left (past.filter (·.moved))) : Truthful s.start past := by
  have hpos := (hchains.waits x (by rw [hlist]; exact List.mem_cons_self)).pos
  exact ⟨by simpa using heop, by simpa using hchains,
    start_phase hlist hpos hlatched hwork hended, by simpa using hverdicts⟩

/-- A transfer is put behind the others. -/
theorem Chains.queue {freed : List Nat} {l : List Xfer} {y : Xfer} (h : Chains freed l) (hy : Waits y)
    (hreq : y.req ∉ freed) (hsame : ∀ z ∈ l, z.descBus = y.descBus → z.descNum = y.descNum) :
    Chains freed (l ++ [y]) where
  waits := by
    intro z hz
    rcases List.mem_append.1 hz with hz | hz
    · exact h.waits z hz
    · obtain rfl := List.mem_singleton.1 hz
      exact hy
  live := by
    intro z hz
    rcases List.mem_append.1 hz with hz | hz
    · exact h.live z hz
    · obtain rfl := List.mem_singleton.1 hz
      exact hreq
  same := by
    intro z hz w hw hbus
    rcases List.mem_append.1 hz with hzl | hzy <;> rcases List.mem_append.1 hw with hwl | hwy
    · exact h.same z hzl w hwl hbus
    · obtain rfl := List.mem_singleton.1 hwy
      exact hsame z hzl hbus
    · obtain rfl := List.mem_singleton.1 hzy
      exact (hsame w hwl hbus.symm).symm
    · obtain rfl := List.mem_singleton.1 hzy
      obtain rfl := List.mem_singleton.1 hwy
      rfl

theorem transferQueue_truthful {x : Xfer} (h : Truthful s past) (hx : Built x) (hreq : x.req ∉ s.freed)
    (hsame : ∀ y ∈ s.transferList, y.descBus = x.descBus → y.descNum = x.descNum) :
    Truthful (s.transferQueue x).2 past := by
  unfold transferQueue
  by_cases hnum : x.descNum = 0
  · rw [if_pos hnum]
    exact h
  rw [if_neg hnum]
  by_cases hshut : s.shutdown &&& engineShutdownRequest ≠ 0
  · rw [if_pos hshut]
    exact h
  rw [if_neg hshut]
  dsimp only
  set y : Xfer := { x with id := s.queued, state := .submitted }
  have hchains : Chains s.freed (s.transferList ++ [y]) :=
    h.chains.queue ⟨⟨hx.le, hx.cmplTh, hx.cyclic⟩, Nat.pos_of_ne_zero hnum⟩ hreq hsame
  cases h.phase with
  | idle hrun hbusy hlatched hwork hended =>
    rw [hrun]
    -- the first transfer may be one that stood still until now
    obtain ⟨z, l, hlist⟩ : ∃ z l, s.transferList ++ [y] = z :: l := by
      cases s.transferList <;> simp
    exact start_truthful h.eopFlush hchains hlist hlatched hwork hended h.verdicts
  | busy z l hrun hlist hfirst hdeq hbusy hcount hlatched hwork hended hstatus =>
    rw [hrun]
    exact ⟨h.eopFlush, hchains, .busy z (l ++ [y]) rfl (by rw [hlist]; rfl) hfirst hdeq hbusy hcount
      hlatched hwork hended hstatus, h.verdicts⟩
  | ended z l ok hrun hlist hfirst hdeq hbusy hcount hlatched hbit hwhole hok herr hended =>
    rw [hrun]
    exact ⟨h.eopFlush, hchains, .ended z (l ++ [y]) ok rfl (by rw [hlist]; rfl) hfirst hdeq hbusy
      hcount hlatched hbit hwhole hok herr hended, h.verdicts⟩

theorem serviceStatus_ended (hbusy : s.card.busy = false) (hbit : s.card.latched &&& statBusy = 0) :
    s.serviceStatus 0 0 = (s.statusRead true).stop := by
  have hstatus : (s.statusRead true).status = s.card.latched := by
    simp [statusRead, Card.status, hbusy]
  show (if (s.statusRead true).status &&& statBusy = 0 ∨ _ then (s.statusRead true).stop else _) = _
  rw [if_pos (.inl (by rw [hstatus]; exact hbit))]

/-- A run ended on the first transfer is the verdict on it. -/
theorem serviceFinalTransfer_verdict {x : Xfer} {l : List Xfer} {ok : Bool} {n : Nat}
    (heop : s.eopFlush = false) (hlist : s.transferList = x :: l) (hwhole : ok = true ↔ n = x.descNum)
    (hok : ok = true → s.status &&& s.dir.errMask = 0)
    (herr : ok = false → s.status &&& s.dir.errMask ≠ 0) :
    ∃ y : Xfer, Agrees y ⟨x.descBus, n, ok⟩ ∧
      (s.serviceFinalTransfer n).left = s.left ++ [y] ∧
      (s.serviceFinalTransfer n).transferList = l ∧
      (s.serviceFinalTransfer n).freed = s.freed ∧
      (s.serviceFinalTransfer n).eopFlush = false ∧
      (s.serviceFinalTransfer n).workQueued = s.workQueued ∧
      (s.serviceFinalTransfer n).card.busy = s.card.busy ∧
      (s.serviceFinalTransfer n).card.latched = s.card.latched ∧
      (s.serviceFinalTransfer n).card.ended = s.card.ended ∧
      (s.running = false → (s.serviceFinalTransfer n).running = false) := by
  unfold serviceFinalTransfer
  rw [hlist]
  dsimp only
  cases ok with
  | false =>
    rw [if_pos (herr rfl)]
    exact ⟨{ x with state := .failed }, ⟨⟨rfl, hwhole⟩, by simp⟩, rfl, by simp [complete, stop, hlist],
      rfl, heop, rfl, rfl, rfl, rfl, fun _ => rfl⟩
  | true =>
    have hn := hwhole.1 rfl
    rw [if_neg (by simp [hok rfl]), if_neg (by omega)]
    exact ⟨{ x with state := .completed, descCmpl := x.descNum }, ⟨⟨rfl, hwhole⟩, by simp⟩, rfl,
      by simp [complete], rfl, heop, rfl, rfl, rfl, rfl, id⟩

@[simp] theorem start_latched (s : Served) : s.start.card.latched = s.card.latched := by
  unfold start; split <;> rfl

/-- What `engine_service_resume` leaves alone. -/
theorem resume_kept (s : Served) : s.resume.transferList = s.transferList ∧ s.resume.left = s.left ∧
    s.resume.card.latched = s.card.latched := by
  unfold resume
  split
  · split
    · exact ⟨start_transferList s, start_left s, start_latched s⟩
    · split <;> exact ⟨rfl, rfl, rfl⟩
  · split <;> exact ⟨rfl, rfl, rfl⟩

/-- After a transfer has left, the next one starts. -/
theorem resume_truthful (heop : s.eopFlush = false) (hchains : Chains s.freed s.transferList)
    (hrun : s.running = false) (hbusy : s.card.busy = false) (hlatched : s.card.latched = 0)
    (hwork : s.workQueued = false) (hended : s.card.ended = past)
    (hverdicts : List.Forall₂ Agrees s.left (past.filter (·.moved))) : Truthful s.resume past := by
  unfold resume
  rw [if_pos (by rw [hrun]; rfl)]
  by_cases hempty : s.transferList = []
  · have hidle : ∀ t : Served, t.running = s.running → t.card = s.card → t.workQueued = s.workQueued →
        t.transferList = s.transferList → Phase t past := by
      intro t h1 h2 h3 h4
      exact .idle (by rw [h1, hrun]) (by rw [h2, hbusy]) (by rw [h2, hlatched]) (by rw [h3, hwork])
        (by rw [h2, hended]) (by rw [h4, hempty]; intro x hx; cases hx)
    rw [if_neg (by simp [hempty])]
    split
    · exact ⟨heop, hchains, hidle _ rfl rfl rfl rfl, hverdicts⟩
    · exact ⟨heop, hchains, hidle s rfl rfl rfl rfl, hverdicts⟩
  · obtain ⟨x, l, hlist⟩ := List.exists_cons_of_ne_nil hempty
    rw [if_pos (by simp [hempty])]
    exact start_truthful heop hchains hlist hlatched hwork hended hverdicts

/-- After the interrupt of an ended run its transfer leaves, unless the run had moved
nothing. -/
theorem engineService_truthful (h : Truthful s past) {x : Xfer} {l : List Xfer} {ok : Bool}
    (hrun : s.running = true) (hlist : s.transferList = x :: l) (hdeq : s.descDequeued = 0)
    (hbusy : s.card.busy = false) (hcount : s.card.count ≤ x.descNum)
    (hbit : s.card.latched &&& statBusy = 0) (hwhole : ok = true ↔ s.card.count = x.descNum)
    (hok : ok = true → s.card.latched &&& s.dir.errMask = 0)
    (herr : ok = false → s.card.latched &&& s.dir.errMask ≠ 0)
    (hended : s.card.ended = past ++ [⟨x.descBus, s.card.count, ok⟩]) (hwork : s.workQueued = false) :
    Truthful (s.engineService 0).2 s.card.ended ∧ (s.engineService 0).2.card.latched = 0 ∧
      (s.card.count ≠ 0 → (s.engineService 0).2.transferList = l) := by
  have hx := h.chains.waits x (by rw [hlist]; exact List.mem_cons_self)
  unfold engineService
  rw [if_neg (by rw [hrun]; decide)]
  dsimp only
  rw [show (0 &&& wbCountMask : Nat) = 0 from rfl, show (0 &&& wbErrMask : Nat) = 0 from rfl, if_pos rfl,
    serviceStatus_ended hbusy hbit]
  set t := (s.statusRead true).stop with ht
  have hstatus : t.status = s.card.latched := by
    simp [ht, stop, statusRead, Card.status, hbusy]
  show Truthful (t.serviceDescs s.card.count) s.card.ended ∧
    (t.serviceDescs s.card.count).card.latched = 0 ∧
    (s.card.count ≠ 0 → (t.serviceDescs s.card.count).transferList = l)
  unfold serviceDescs
  by_cases hzero : s.card.count = 0
  · -- nothing was moved: the transfer stays, and the engine stands still
    rw [if_pos hzero]
    have hfail : ok = false := by
      rw [← Bool.not_eq_true]
      intro h'
      have hall := hwhole.1 h'
      have hpos := hx.pos
      omega
    have hnone : (⟨x.descBus, s.card.count, ok⟩ : CardRun).moved = false := by simp [CardRun.moved, hzero]
    refine ⟨⟨h.eopFlush, h.chains, ?_, ?_⟩, rfl, absurd hzero⟩
    · refine .idle rfl hbusy rfl hwork rfl ?_
      intro y hy
      obtain rfl : x = y := by
        have hhead : t.transferList.head? = some x := by rw [ht]; simp [stop, statusRead, hlist]
        rw [hhead] at hy
        exact Option.some.inj hy
      rw [hended, hzero, hfail]
      exact List.getLast?_concat
    · rw [hended, List.filter_append, List.filter_cons_of_neg (by rw [hnone]; decide), List.filter_nil,
        List.append_nil]
      exact h.verdicts
  · rw [if_neg hzero]
    have hcut : u32 (s.card.count - t.descDequeued) = s.card.count := by
      show u32 (s.card.count - s.descDequeued) = _
      have hle := hx.le
      rw [hdeq, Int.sub_zero, u32_natCast]
      omega
    have hskip : serviceTransferList t.transferList s.card.count t = (s.card.count, t) := by
      have hlist' : t.transferList = x :: l := hlist
      rw [hlist']
      unfold serviceTransferList
      rw [if_neg]
      rintro ⟨-, hgt⟩
      omega
    rw [hcut]
    dsimp only
    rw [hskip]
    dsimp only
    obtain ⟨y, hagrees, hleft, hrest, hfreed, heop, hwork', hbusy', hlatched, hruns, hstopped⟩ :=
      @serviceFinalTransfer_verdict t x l ok s.card.count h.eopFlush hlist hwhole
        (by rw [hstatus]; exact hok) (by rw [hstatus]; exact herr)
    rw [if_pos (by rw [heop]; rfl)]
    refine ⟨?_, by rw [(resume_kept _).2.2, hlatched]; rfl,
      fun _ => by rw [(resume_kept _).1, hrest]⟩
    refine resume_truthful heop ?_ (hstopped rfl) (hbusy'.trans hbusy) (hlatched.trans rfl)
      (hwork'.trans hwork) (hruns.trans rfl) ?_
    · rw [hfreed, hrest]
      exact h.chains.subset (by rw [hlist]; exact List.subset_cons_self x l)
    · have hmoved : (⟨x.descBus, s.card.count, ok⟩ : CardRun).moved = true := by
        simp [CardRun.moved, hzero]
      rw [hleft, hended, List.filter_append, List.filter_cons_of_pos hmoved, List.filter_nil]
      exact List.rel_append h.verdicts (.cons hagrees .nil)

theorem engineService_zero_fst (s : Served) : (s.engineService 0).1 = 0 := by
  unfold engineService
  split <;> rfl

theorem serviceWork_eq (s : Served) :
    s.serviceWork = { (s.engineService 0).2 with irqEnabled := true } := by
  unfold serviceWork
  dsimp only
  rw [engineService_zero_fst, if_neg (by decide)]

/-- The work item runs after an ended run only. -/
theorem serviceWork_truthful (h : Truthful s past) (hwork : s.workQueued = true) :
    ∃ x l, s.transferList = x :: l ∧ Truthful { s with workQueued := false }.serviceWork s.card.ended ∧
      { s with workQueued := false }.serviceWork.card.latched = 0 ∧
      (s.card.count ≠ 0 → { s with workQueued := false }.serviceWork.transferList = l) := by
  cases h.phase with
  | idle _ _ _ hnot =>
    rw [hwork] at hnot
    cases hnot
  | busy _ _ _ _ _ _ _ _ _ hnot =>
    rw [hwork] at hnot
    cases hnot
  | ended x l ok hrun hlist hfirst hdeq hbusy hcount hlatched hbit hwhole hok herr hended =>
    have hs : Truthful { s with workQueued := false } past :=
      ⟨h.eopFlush, h.chains, .ended x l ok hrun hlist hfirst hdeq hbusy hcount hlatched hbit hwhole hok
        herr hended, h.verdicts⟩
    obtain ⟨htruth, hclear, htail⟩ :=
      engineService_truthful hs hrun hlist hdeq hbusy hcount hbit hwhole hok herr hended rfl
    rw [serviceWork_eq]
    exact ⟨x, l, hlist, htruth.same_work true htruth.chains, hclear, htail⟩

theorem card_truthful {z : Xfer} {c : Card} (h : Truthful s past) (hz : z ∈ s.transferList)
    (hat : s.card.first = z.descBus) (hc : Card.Next s.dir.errMask z.descNum s.card c) :
    Truthful { s with card := c } past := by
  cases h.phase with
  | idle _ hbusy => cases hc <;> simp_all
  | ended _ _ _ _ _ _ _ hbusy => cases hc <;> simp_all
  | busy x l hrun hlist hfirst hdeq hbusy hcount hlatched hwork hended hstatus =>
    -- the chain is that of the first transfer, whichever transfer it was named for
    have hchain : z.descNum = x.descNum :=
      h.chains.same z hz x (by rw [hlist]; exact List.mem_cons_self) (hat.symm.trans hfirst)
    cases hc with
    | advance _ hlt =>
      exact ⟨h.eopFlush, h.chains,
        .busy x l hrun hlist hfirst hdeq hbusy (by dsimp only; omega) hlatched hwork hended
          hstatus, h.verdicts⟩
    | finish _ hlast =>
      refine ⟨h.eopFlush, h.chains, ?_, h.verdicts⟩
      refine .ended x l true hrun hlist hfirst hdeq rfl ?_ ?_ ?_ ?_ ?_ ?_ ?_
      · dsimp only
        omega
      · dsimp only
        rw [hlatched]
        decide
      · dsimp only
        rw [hlatched]
        rfl
      · dsimp only
        exact ⟨fun _ => hlast.trans hchain, fun _ => rfl⟩
      · intro _
        dsimp only
        rw [hlatched]
        cases s.dir <;> rfl
      · intro hok
        cases hok
      · dsimp only
        rw [hended, hfirst]
    | fail errs _ hlt herr hnot =>
      refine ⟨h.eopFlush, h.chains, ?_, h.verdicts⟩
      refine .ended x l false hrun hlist hfirst hdeq rfl ?_ ?_ ?_ ?_ ?_ ?_ ?_
      · dsimp only
        omega
      · dsimp only
        rw [hlatched, Nat.zero_or]
        intro hzero
        rw [hzero, Nat.zero_and] at herr
        exact herr rfl
      · dsimp only
        rw [hlatched, Nat.zero_or]
        exact hnot
      · dsimp only
        exact ⟨fun hok => absurd hok (by decide), fun hall => by omega⟩
      · intro hok
        cases hok
      · intro _
        dsimp only
        rw [hlatched, Nat.zero_or]
        exact herr
      · dsimp only
        rw [hended, hfirst]

theorem isr_truthful (h : Truthful s past) (hirq : s.card.latched ≠ 0) :
    Truthful { s with irqEnabled := false, workQueued := true } past := by
  refine ⟨h.eopFlush, h.chains, ?_, h.verdicts⟩
  cases h.phase with
  | idle _ _ hlatched => exact absurd hlatched hirq
  | busy _ _ _ _ _ _ _ _ hlatched => exact absurd hlatched hirq
  | ended x l ok h1 h2 h3 h4 h5 h6 h7 h8 h9 h10 h11 h12 =>
    exact .ended x l ok h1 h2 h3 h4 h5 h6 h7 h8 h9 h10 h11 h12

/-! ## Runs -/

/-- **One step.** -/
theorem step_truthful {e : Event} (h : Truthful s past) (he : Honest e s)
    (hstep : step e s = some t) : ∃ past', Truthful t past' := by
  obtain ⟨-, hstep⟩ := step_some.1 hstep
  cases e with
  | queue x =>
    obtain ⟨hreq, hstep⟩ := Option.ite_none_left_eq_some.1 hstep
    obtain rfl := Option.some.inj hstep
    exact ⟨past, transferQueue_truthful h he.1 hreq he.2⟩
  | card c =>
    obtain rfl := Option.some.inj hstep
    obtain ⟨x, hx, hat, hnext⟩ := he
    exact ⟨past, card_truthful h hx hat hnext⟩
  | isr =>
    obtain ⟨-, hstep⟩ := Option.ite_none_right_eq_some.1 hstep
    obtain rfl := Option.some.inj hstep
    exact ⟨past, isr_truthful h he⟩
  | work =>
    obtain ⟨hwork, hstep⟩ := Option.ite_none_right_eq_some.1 hstep
    obtain rfl := Option.some.inj hstep
    obtain ⟨-, -, -, htruth, -⟩ := serviceWork_truthful h hwork
    exact ⟨_, htruth⟩
  | requestFree req =>
    obtain rfl := Option.some.inj hstep
    refine ⟨past, h.same_work s.irqEnabled ⟨h.chains.waits, fun x hx hmem => ?_, h.chains.same⟩⟩
    rcases List.mem_append.1 hmem with hold | hnew
    · exact h.chains.live x hx hold
    · exact he x hx (List.mem_singleton.1 hnew)
  | poll _ | waitOver _ _ | completionOver _ _ | offline => exact he.elim

/-- What the engine has told its users, against what its card has done. -/
structure Told (s : Served) : Prop where
  /-- each transfer that left was told of its run, in order; at most the last run is still to be
  told, and it was on the first transfer -/
  verdicts : ∃ told rest, s.card.ended.filter (·.moved) = told ++ rest ∧
    List.Forall₂ Agrees s.left told ∧ rest.length ≤ 1 ∧
    (s.running = false ∨ s.card.busy = true → rest = []) ∧
    ∀ r ∈ rest, ∃ x ∈ s.transferList.head?, r.On x
  /-- a running engine is on its first transfer -/
  running : s.running = true → ∃ x ∈ s.transferList.head?, s.card.first = x.descBus
  /-- it stands still with transfers to serve only after a run that moved nothing -/
  idle : s.running = false → ∀ x ∈ s.transferList.head?, Stalled s.card.ended x

theorem Truthful.told (h : Truthful s past) : s.Told := by
  refine ⟨?_, ?_, ?_⟩
  · -- between runs all of them are told
    have hall (hended : s.card.ended = past) : ∃ told rest, s.card.ended.filter (·.moved) = told ++ rest ∧
        List.Forall₂ Agrees s.left told ∧ rest.length ≤ 1 ∧
        (s.running = false ∨ s.card.busy = true → rest = []) ∧
        ∀ r ∈ rest, ∃ x ∈ s.transferList.head?, r.On x :=
      ⟨_, [], by rw [hended, List.append_nil], h.verdicts, Nat.zero_le 1, fun _ => rfl,
        fun _ hr => absurd hr List.not_mem_nil⟩
    cases h.phase with
    | idle _ _ _ _ hended => exact hall hended
    | busy _ _ _ _ _ _ _ _ _ _ hended => exact hall hended
    | ended x l ok hrun hlist _ _ hbusy _ _ _ hwhole _ _ hended =>
      refine ⟨_, [⟨x.descBus, s.card.count, ok⟩].filter (·.moved), ?_, h.verdicts, ?_, ?_, ?_⟩
      · rw [hended, List.filter_append]
      · exact List.length_filter_le _ _
      · rw [hrun, hbusy]
        rintro (h | h) <;> cases h
      · intro r hr
        obtain rfl := List.mem_singleton.1 (List.mem_of_mem_filter hr)
        exact ⟨x, by simp [hlist], rfl, hwhole⟩
  · intro hrun
    cases h.phase with
    | idle hidle =>
      rw [hrun] at hidle
      cases hidle
    | busy x l _ hlist hfirst => exact ⟨x, by simp [hlist], hfirst⟩
    | ended x l _ _ hlist hfirst => exact ⟨x, by simp [hlist], hfirst⟩
  · intro hrun
    cases h.phase with
    | idle _ _ _ _ hended hstalled =>
      rw [hended]
      exact hstalled
    | busy _ _ hbusy =>
      rw [hrun] at hbusy
      cases hbusy
    | ended _ _ _ hbusy =>
      rw [hrun] at hbusy
      cases hbusy

theorem init_truthful (dir : Direction) : Truthful (init dir false) [] where
  eopFlush := rfl
  chains := ⟨fun _ h => absurd h List.not_mem_nil, fun _ h => absurd h List.not_mem_nil,
    fun _ h => absurd h List.not_mem_nil⟩
  phase := .idle rfl rfl rfl rfl rfl (by intro x hx; cases hx)
  verdicts := .nil

theorem run_truthful {dir : Direction} {events : List Event}
    (hm : Meets step Honest events (init dir false))
    (h : run step events (init dir false) = some s) : ∃ past, Truthful s past :=
  run_invariant_of_meets (I := fun u => ∃ past, Truthful u past)
    (fun _ _ _ ⟨_, hu⟩ he hstep => step_truthful hu he hstep) ⟨[], init_truthful dir⟩ hm h

/-- **A completed transfer was moved as a whole**, and no other is. -/
theorem verdicts_true {dir : Direction} {events : List Event} {s : Served}
    (hm : Meets step Honest events (init dir false))
    (h : run step events (init dir false) = some s) : s.Told := by
  obtain ⟨past, hs⟩ := run_truthful hm h
  exact hs.told

theorem oneDesc_built : Built oneDesc := ⟨by decide, rfl, rfl⟩

theorem queue_honest : Meets step Honest [.queue oneDesc] (init .toDevice false) :=
  ⟨⟨oneDesc_built, fun _ h => absurd h List.not_mem_nil⟩, fun _ _ => trivial⟩

/-- A longer transfer in its place. -/
def longerDesc : Xfer := { otherDesc with descNum := 2, descCmplTh := 2 }

theorem verdicts_true_one : ∃ s,
    run step [.queue oneDesc, .card oneDone, .isr, .work, .requestFree 0, .queue longerDesc]
        (init .toDevice false) = some s ∧
      s.left.length = 1 ∧ s.Told := by
  have hany : (run step [.queue oneDesc, .card oneDone, .isr, .work, .requestFree 0, .queue longerDesc]
      (init .toDevice false)).any (fun s => s.left.length = 1) = true := by
    decide
  obtain ⟨s, hs, htest⟩ := run_any hany
  refine ⟨s, hs, of_decide_eq_true htest, verdicts_true ?_ hs⟩
  refine ⟨queue_honest.1, fun t ht => ?_⟩
  obtain rfl := Option.some.inj ht
  refine ⟨⟨_, List.mem_singleton.2 rfl, rfl, .finish _ rfl rfl⟩, fun t ht => ?_⟩
  obtain rfl := Option.some.inj ht
  have hirq : oneDone.latched ≠ 0 := by decide
  refine ⟨hirq, fun t ht => ?_⟩
  obtain rfl := Option.some.inj ht
  refine ⟨trivial, fun t ht => ?_⟩
  obtain rfl := Option.some.inj ht
  refine ⟨fun x hx => absurd hx List.not_mem_nil, fun t ht => ?_⟩
  obtain rfl := Option.some.inj ht
  exact ⟨⟨⟨by decide, rfl, rfl⟩, fun x hx => absurd hx List.not_mem_nil⟩, fun _ _ => trivial⟩

end Served

end FpgaDrm.Xdma
