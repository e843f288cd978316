import SimpleDisplay.Lib.Chain
import SimpleDisplay.Xdma.Packets
import SimpleDisplay.Xdma.Refused

/-!
# What the card reads

From the registers that `engine_start` writes, the card follows the descriptors of the
transfer on the bus.  A descriptor holds the address of the next one and, in its adjacent
count, how many more follow that one in the same burst.
-/

namespace FpgaDrm.Xdma

open Word Slots Chain

def Desc.next (d : Desc) : Nat := d.nextLo + 4294967296 * d.nextHi

/-- Bits 8 to 13 of the control word. -/
def Desc.adjacent (d : Desc) : Nat := (d.control >>> 8) &&& 0x3f

def descLinks : Links Desc where
  next := Desc.next
  more := Desc.adjacent
  stop := fun d => d.flag descStopped

/-- The ring as it lies on the bus. -/
def ringMem (descBus : Nat) (desc : Nat → Desc) (addr : Nat) : Desc := desc ((addr - descBus) / descSize)

theorem ringMem_slot (descBus : Nat) (desc : Nat → Desc) (i : Nat) :
    ringMem descBus desc (descBus + descSize * i) = desc i := by
  unfold ringMem
  rw [Nat.add_sub_cancel_left, Nat.mul_div_cancel_left _ (by decide)]

/-! ## The adjacent count -/

theorem getNextAdj_lt (remaining nextLo : Nat) : getNextAdj remaining nextLo < 64 := by
  unfold getNextAdj
  split
  · decide
  · dsimp only
    unfold maxAdjBlockSize
    omega

/-- A burst of one more than the count ends with the transfer and stays on its page. -/
theorem getNextAdj_burst {addr remaining : Nat} (haddr : addr % 32 = 0) (hpos : 0 < remaining) :
    getNextAdj remaining (pciDmaL addr) + 1 ≤ remaining ∧
      addr % 4096 + 32 * (getNextAdj remaining (pciDmaL addr) + 1) ≤ 4096 := by
  have hindex : ((pciDmaL addr &&& (pageSize - 1)) >>> 5) % maxAdjBlockSize = addr % 2048 / 32 := by
    rw [pciDmaL_eq, show pageSize - 1 = 2 ^ 12 - 1 from rfl, Nat.and_two_pow_sub_one_eq_mod,
      Nat.shiftRight_eq_div_pow]
    unfold maxAdjBlockSize
    omega
  unfold getNextAdj
  by_cases hone : remaining ≤ 1
  · rw [if_pos hone]
    omega
  · rw [if_neg hone]
    dsimp only
    rw [hindex]
    unfold maxAdjBlockSize
    omega

theorem adjacent_descAdjacent (d : Desc) {adj : Nat} (hadj : adj < 64)
    (hclear : ∀ i < 6, d.control.testBit (8 + i) = false) : (descAdjacent d adj).adjacent = adj := by
  apply Nat.eq_of_testBit_eq
  intro i
  show (((d.control &&& 0x0000f0ff) ||| (0xAD4B0000 ||| u32 (adj <<< 8 : Nat))) >>> 8 &&& 0x3f).testBit i = _
  rw [show (0x3f : Nat) = 2 ^ 6 - 1 from rfl, Nat.testBit_and, Nat.testBit_two_pow_sub_one]
  by_cases hi : i < 6
  · have hmagic : ∀ i < 6, (0xAD4B0000 : Nat).testBit (8 + i) = false := by decide
    rw [Nat.testBit_shiftRight, Nat.testBit_or, Nat.testBit_or, Nat.testBit_and, hclear i hi, hmagic i hi,
      u32_natCast, show (4294967296 : Nat) = 2 ^ 32 from rfl, Nat.testBit_mod_two_pow,
      Nat.testBit_shiftLeft]
    have h1 : 8 + i < 32 := by omega
    have h2 : 8 ≤ 8 + i := by omega
    simp [hi, h1, h2]
  · rw [Nat.testBit_lt_two_pow (Nat.lt_of_lt_of_le hadj (by
      show 2 ^ 6 ≤ 2 ^ i
      exact Nat.pow_le_pow_right (by decide) (by omega)))]
    simp [hi]

/-! ## A built ring -/

theorem transferDescInit_control (bus base n : Nat) (desc : Nat → Desc) {i : Nat} (hi : i < n) :
    (transferDescInit bus base n desc (base + i)).control = descMagic := by
  unfold transferDescInit
  by_cases hlast : i = n - 1
  · rw [hlast, set_same]
  · rw [set_of_ne (by omega), forSlots_in _ _ (by omega)]

theorem transferDescInit_next (bus base n : Nat) (desc : Nat → Desc) {i : Nat} (hi : i + 1 < n) :
    (transferDescInit bus base n desc (base + i)).nextLo = pciDmaL (u64 (bus + descSize * (i + 1))) ∧
      (transferDescInit bus base n desc (base + i)).nextHi = pciDmaH (u64 (bus + descSize * (i + 1))) := by
  unfold transferDescInit
  rw [set_of_ne (by omega), forSlots_in _ _ (by omega)]
  exact ⟨rfl, rfl⟩

/-- The descriptors of a built transfer are linked in a row. -/
structure Linked (bus base n : Nat) (desc : Nat → Desc) : Prop where
  next : ∀ i, i + 1 < n → (desc (base + i)).nextLo = pciDmaL (u64 (bus + descSize * (i + 1))) ∧
    (desc (base + i)).nextHi = pciDmaH (u64 (bus + descSize * (i + 1)))
  adjacent : ∀ i < n, (desc (base + i)).adjacent = getNextAdj (n - i - 1) (desc (base + i)).nextLo

/-- The last loop of a builder links the ring, when the loops before it kept the links. -/
theorem linked_setAdjacent {bus base n : Nat} {desc : Nat → Desc}
    (hnext : ∀ i, i + 1 < n → (desc (base + i)).nextLo = pciDmaL (u64 (bus + descSize * (i + 1))) ∧
      (desc (base + i)).nextHi = pciDmaH (u64 (bus + descSize * (i + 1))))
    (hclear : ∀ i < n, ∀ k < 6, (desc (base + i)).control.testBit (8 + k) = false) :
    Linked bus base n (setAdjacent base n desc) := by
  have hslot : ∀ i < n, setAdjacent base n desc (base + i) =
      descAdjacent (desc (base + i)) (getNextAdj (n - i - 1) (desc (base + i)).nextLo) := by
    intro i hi
    unfold setAdjacent
    rw [forSlots_in _ _ hi]
  constructor
  · intro i hi
    rw [hslot i (by omega)]
    exact hnext i hi
  · intro i hi
    rw [hslot i hi, adjacent_descAdjacent _ (getNextAdj_lt _ _) (hclear i hi)]
    rfl

theorem descOf_clear (b : Build) (j : Nat) (seg : Segment) {d : Desc} (hd : d.control = descMagic)
    {k : Nat} (hk : k < 6) : (descOf b j seg d).control.testBit (8 + k) = false := by
  have hmagic : ∀ k < 6, (descMagic &&& 0xffffffffffffff00).testBit (8 + k) = false := by decide
  have hfield : (controlField (seg.stop % b.lineSize = 0) (j + 1 = b.descCount)).testBit (8 + k) = false := by
    apply Nat.testBit_lt_two_pow
    refine Nat.lt_of_lt_of_le (show _ < 2 ^ 8 from ?_) (Nat.pow_le_pow_right (by decide) (by omega))
    unfold controlField
    split_ifs <;> decide
  show ((d.control &&& 0xffffffffffffff00) ||| _).testBit (8 + k) = false
  rw [Nat.testBit_or, hd, hmagic k hk, hfield]
  rfl

theorem linked_lines {b : Build} {segs : List Segment} {s : BuildState} {bus : Nat} {desc : Nat → Desc}
    (hdesc : s.desc = transferDescInit bus b.descIndex segs.length desc) (hused : s.descUsed = 0) :
    Linked bus b.descIndex segs.length
      (setAdjacent b.descIndex segs.length (segs.foldl (BuildState.fill b) s).desc) := by
  have hslot : ∀ j (hj : j < segs.length), (segs.foldl (BuildState.fill b) s).desc (b.descIndex + j) =
      descOf b j segs[j] (transferDescInit bus b.descIndex segs.length desc (b.descIndex + j)) := by
    intro j hj
    have hin := foldl_desc_in (b := b) (s := s) hj
    rwa [hused, Nat.add_zero, Nat.zero_add, hdesc] at hin
  apply linked_setAdjacent
  · intro j hj
    rw [hslot j (by omega)]
    exact transferDescInit_next bus b.descIndex segs.length desc hj
  · intro j hj k hk
    rw [hslot j hj]
    exact descOf_clear b j _ (transferDescInit_control bus b.descIndex segs.length desc hj) hk

/-! ## Reading it -/

/-- A linked transfer whose last descriptor alone stops the card is a chain in a row. -/
theorem Linked.inRow {descBus base n : Nat} {desc : Nat → Desc}
    (h : Linked (descBus + descSize * base) base n desc) (halign : descBus % 4096 = 0)
    (hfit : descBus + descSize * (base + n) ≤ 2 ^ 64)
    (hstop : ∀ i < n, (desc (base + i)).flag descStopped = true ↔ i + 1 = n) :
    InRow descLinks descSize (ringMem descBus desc) (descBus + descSize * base) n := by
  have hslot : ∀ i, ringMem descBus desc (descBus + descSize * base + descSize * i) = desc (base + i) := by
    intro i
    rw [Nat.add_assoc, ← Nat.mul_add, ringMem_slot]
  have haddr : ∀ i < n, u64 (descBus + descSize * base + descSize * i) =
      descBus + descSize * base + descSize * i := by
    intro i hi
    apply u64_of_lt
    unfold descSize at hfit ⊢
    omega
  refine ⟨fun i hi => ?_, fun i hi => ?_, fun i hi => ?_⟩
  · rw [hslot]
    exact hstop i hi
  · obtain ⟨hlo, hhi⟩ := h.next i hi
    rw [hslot]
    show (desc (base + i)).nextLo + 4294967296 * (desc (base + i)).nextHi = _
    rw [hlo, hhi, pciDma_eq, haddr (i + 1) hi, haddr (i + 1) hi]
  · have haligned : (descBus + descSize * base + descSize * (i + 1)) % 32 = 0 := by
      unfold descSize
      omega
    have hleft : 0 < n - i - 1 := by omega
    have hburst := (getNextAdj_burst haligned hleft).1
    rw [hslot]
    show i + 1 + (desc (base + i)).adjacent < n
    rw [h.adjacent i (by omega), (h.next i hi).1, haddr (i + 1) hi]
    omega

/-- What the card reads from a first burst on. -/
structure ReadsExactly (descBus : Nat) (desc : Nat → Desc) (first : Nat × Nat) (descs : List Desc) :
    Prop where
  /-- the bursts end, and have the descriptors in order, each once, and no other -/
  exact : ∃ bursts, fetch descLinks descSize (ringMem descBus desc) descs.length first = some bursts ∧
    bursts.flatMap (burst descSize (ringMem descBus desc)) = descs ∧
    ∀ b ∈ bursts, b.1 % 4096 + descSize * b.2 ≤ 4096

theorem Linked.reads {descBus base n : Nat} {desc : Nat → Desc}
    (h : Linked (descBus + descSize * base) base n desc) (halign : descBus % 4096 = 0)
    (hfit : descBus + descSize * (base + n) ≤ 2 ^ 64) (hpos : 0 < n)
    (hstop : ∀ i < n, (desc (base + i)).flag descStopped = true ↔ i + 1 = n) :
    ReadsExactly descBus desc (descBus + descSize * base,
      getNextAdj n (pciDmaL (descBus + descSize * base)) + 1)
      ((List.range n).map fun i => desc (base + i)) := by
  have hrow := h.inRow halign hfit hstop
  have hburst : ∀ i < n, ∀ m, 0 < m →
      getNextAdj m (pciDmaL (descBus + descSize * (base + i))) + 1 ≤ m ∧
      (descBus + descSize * (base + i)) % 4096 +
        32 * (getNextAdj m (pciDmaL (descBus + descSize * (base + i))) + 1) ≤ 4096 := by
    intro i _ m hm
    exact getNextAdj_burst (by unfold descSize; omega) hm
  have hfirst := hburst 0 hpos n hpos
  simp only [Nat.add_zero] at hfirst
  obtain ⟨bursts, hrun, hall, hasked⟩ := hrow.fetch_eq n (i := 0)
    (k := getNextAdj n (pciDmaL (descBus + descSize * base)) + 1) (by omega) (by omega) (by omega)
  rw [Nat.mul_zero, Nat.add_zero] at hrun hasked
  refine ⟨bursts, ?_, ?_, fun b hb => ?_⟩
  · rw [List.length_map, List.length_range]
    exact hrun
  · rw [hall, Nat.sub_zero, ← List.range_eq_range']
    refine List.map_congr_left fun i _ => ?_
    rw [Nat.add_assoc, ← Nat.mul_add, ringMem_slot]
  · rcases hasked b hb with rfl | ⟨j, hj, rfl⟩
    · exact hfirst.2
    · have hpage := hburst (j + 1) hj (n - j - 1) (by omega)
      have haddr : u64 (descBus + descSize * base + descSize * (j + 1)) =
          descBus + descSize * (base + (j + 1)) := by
        rw [Nat.add_assoc, ← Nat.mul_add]
        apply u64_of_lt
        unfold descSize at hfit ⊢
        omega
      have hadj : descLinks.more (ringMem descBus desc (descBus + descSize * base + descSize * j)) =
          getNextAdj (n - j - 1) (pciDmaL (descBus + descSize * (base + (j + 1)))) := by
        rw [Nat.add_assoc, ← Nat.mul_add, ringMem_slot]
        show (desc (base + j)).adjacent = _
        rw [h.adjacent j (by omega), (h.next j hj).1, haddr]
      rw [hadj]
      dsimp only
      rw [Nat.add_assoc, ← Nat.mul_add]
      exact hpage.2

/-! ## An accepted frame -/

theorem sgtBytes_length (sgt : List SgEntry) : (sgt.flatMap SgEntry.hostBytes).length = total sgt := by
  rw [List.length_flatMap]
  unfold total
  congr 1
  apply List.map_congr_left
  intro e _
  simp [SgEntry.hostBytes]

section

variable {kernel : Kernel} {a : Submission} {s t : Sys}

/-- What the engine is left with when a transfer is queued on it while it is idle. -/
structure Started (e e' : DmaEngine) (x : QueuedTransfer) : Prop where
  desc : e'.desc = e.desc
  descBus : e'.descBus = e.descBus
  firstDescLo : e'.regs.firstDescLo = pciDmaL x.descBus
  firstDescHi : e'.regs.firstDescHi = pciDmaH x.descBus
  firstDescAdjacent : e'.regs.firstDescAdjacent = getNextAdj x.descAdjacent (pciDmaL x.descBus)

theorem engineStart_started {key : Bool × Int} {x : QueuedTransfer} {l : List QueuedTransfer}
    (hrun : (s.engines key).running = false) (hlist : (s.engines key).transferList = x :: l) :
    ∃ s', engineStart kernel key s = (some x, s') ∧ Started (s.engines key) (s'.engines key) x ∧
      s'.sgt = s.sgt := by
  unfold engineStart
  dsimp only
  rw [if_neg (by rw [hrun]; decide), hlist]
  dsimp only
  refine ⟨_, rfl, ?_, rfl⟩
  unfold Sys.setEngine
  dsimp only
  rw [Function.update_self]
  exact ⟨rfl, rfl, rfl, rfl, rfl⟩

theorem transferQueue_started {key : Bool × Int} {x : QueuedTransfer}
    (h : queueVerdict kernel x.descNum (s.engines key) = 0) (hrun : (s.engines key).running = false)
    (hlist : (s.engines key).transferList = []) :
    Started (s.engines key) ((transferQueue kernel key x s).2.engines key) x ∧
      (transferQueue kernel key x s).2.sgt = s.sgt := by
  unfold queueVerdict at h
  split at h
  · cases h
  next hnum =>
    split at h
    · cases h
    next hleaving =>
      obtain ⟨honline, hshut⟩ := not_or.mp hleaving
      have hshut' : ¬ ((s.acquire .lock).engines key).shutdown &&& engineShutdownRequest ≠ 0 := hshut
      have hidle : (!((s.acquire .lock).engines key).running) = true := by
        show (!(s.engines key).running) = true
        rw [hrun]
        rfl
      unfold transferQueue
      rw [if_neg hnum, if_neg honline]
      dsimp only
      rw [if_neg hshut', if_pos hidle]
      generalize hu : Sys.setEngine _ key _ = u
      have heng : (u.engines key).running = false ∧
          (u.engines key).transferList = [{ x with state := .submitted }] ∧
          (u.engines key).desc = (s.engines key).desc ∧
          (u.engines key).descBus = (s.engines key).descBus ∧ u.sgt = s.sgt := by
        rw [← hu]
        simp [Sys.setEngine, Sys.acquire, hrun, hlist]
      obtain ⟨hrun', hlist', hdesc, hbus, hsgt⟩ := heng
      obtain ⟨s', hstart, hstarted, hsame⟩ := @engineStart_started kernel u _ _ _ hrun' hlist'
      rw [hstart]
      exact ⟨⟨hstarted.desc.trans hdesc, hstarted.descBus.trans hbus, hstarted.firstDescLo,
        hstarted.firstDescHi, hstarted.firstDescAdjacent⟩, hsame.trans hsgt⟩

theorem transferQueue_ret (kernel : Kernel) (key : Bool × Int) (x : QueuedTransfer) (s : Sys) :
    (transferQueue kernel key x s).1 = queueVerdict kernel x.descNum (s.engines key) := by
  by_cases h : queueVerdict kernel x.descNum (s.engines key) = 0
  · rw [h]
    exact transferQueue_accepts h
  · obtain ⟨_, heq, -⟩ := transferQueue_refuses h
    rw [heq]

theorem unlockDesc_fst (rv : Int) : (unlockDesc a rv s).1 = rv := by
  unfold unlockDesc unmapSgl
  split <;> rfl

theorem queueVerdict_ne (descNum : Nat) (e : DmaEngine) : queueVerdict kernel descNum e ≠ -EIOCBQUEUED := by
  unfold queueVerdict
  split_ifs <;> decide

theorem queueLines_started {descCount : Nat} {x : QueuedTransfer}
    (h : queueLines kernel a descCount x s = (-EIOCBQUEUED, t))
    (hrun : (s.engines a.key).running = false) (hlist : (s.engines a.key).transferList = []) :
    Started (s.engines a.key) (t.engines a.key) x ∧ t.sgt = s.sgt := by
  by_cases hverdict : queueVerdict kernel x.descNum (s.engines a.key) = 0
  · have hret := transferQueue_accepts hverdict
    obtain ⟨hstarted, hsgt⟩ := transferQueue_started hverdict hrun hlist
    unfold queueLines at h
    dsimp only at h
    rw [hret, if_neg (by decide)] at h
    obtain rfl := congrArg Prod.snd h
    split
    · exact ⟨hstarted, hsgt⟩
    · exact ⟨hstarted, hsgt⟩
  · obtain ⟨s', hqueue, -⟩ := transferQueue_refuses hverdict
    have hneg := queueVerdict_neg hverdict
    unfold queueLines at h
    rw [hqueue] at h
    dsimp only at h
    rw [if_pos hneg] at h
    have hfst := congrArg Prod.fst h
    rw [unlockDesc_fst] at hfst
    exact absurd hfst (queueVerdict_ne _ _)

theorem unlockDesc_refuses {rv : Int} (hrv : rv ≠ -EIOCBQUEUED) :
    unlockDesc a rv s ≠ (-EIOCBQUEUED, t) := by
  intro h
  have hfst := congrArg Prod.fst h
  rw [unlockDesc_fst] at hfst
  exact hrv hfst

theorem segments_len {lineSize blenMax : Nat} (hl : 0 < lineSize) (hm : 0 < blenMax) (es : List SgEntry) :
    ((segments lineSize blenMax 0 es).map (·.len)).sum = total es := by
  have hpieces := segments_pieces lineSize blenMax es 0
  have htiles := (Cut.stream_tiles hl hm 0 (es.map SgEntry.len)).sum_len
  rw [← hpieces, List.map_map, Nat.zero_add, Nat.zero_add] at htiles
  exact htiles

/-- The transfer and its ring as the loops build them. -/
def Submission.filled (a : Submission) (kernel : Kernel) (descCount : Nat) (e : DmaEngine)
    (es : List SgEntry) : BuildState :=
  (segments a.lineSize kernel.descBlenMax 0 es).foldl
    (BuildState.fill (a.build kernel (e.nextIdx descCount) descCount))
    ⟨e.linkedRing descCount, 0, a.lineSize, 0, 0⟩

/-- The engine that the built transfer is queued on. -/
def Submission.builtEngine (a : Submission) (kernel : Kernel) (descCount : Nat) (e : DmaEngine)
    (es : List SgEntry) : DmaEngine :=
  { e with
    desc := setAdjacent (e.nextIdx descCount) descCount (a.filled kernel descCount e es).desc
    descIdx := (e.nextIdx descCount + descCount) % e.descMax
    descUsed := e.descUsed + descCount }

/-- An accepted request found its engine idle, and its transfer was queued. -/
theorem submitRequest_built {descCount : Nat} (hl : 0 < a.lineSize) (hm : 0 < kernel.descBlenMax)
    (h : submitRequest kernel a descCount s = some (-EIOCBQUEUED, t)) :
    (s.engines a.key).busy = false ∧
      queueLines kernel a descCount
        { (s.engines a.key).newTransfer a descCount with
          len := (a.filled kernel descCount (s.engines a.key) s.sgt.entries).len }
        ((((s.acquire .descLock).acquire .lock).setEngine a.key
          (a.builtEngine kernel descCount (s.engines a.key) s.sgt.entries)).release .lock) =
        (-EIOCBQUEUED, t) := by
  unfold submitRequest at h
  dsimp only at h
  by_cases hbusy : (((s.acquire .descLock).acquire .lock).engines a.key).busy = true
  · rw [if_pos hbusy] at h
    exact absurd (Option.some.inj h) (unlockDesc_refuses (by decide))
  rw [if_neg hbusy] at h
  refine ⟨Bool.eq_false_iff.2 hbusy, ?_⟩
  have hat : BuildState.At (a.build kernel ((s.engines a.key).nextIdx descCount) descCount) 0
      ⟨(s.engines a.key).linkedRing descCount, 0, a.lineSize, 0, 0⟩ := by
    refine ⟨?_, (Nat.zero_div _).symm⟩
    show a.lineSize = a.lineSize - 0 % a.lineSize
    rw [Nat.zero_mod, Nat.sub_zero]
  have hbuild := writeEntries_of_build _ (buildEntries_eq hl hm s.sgt.entries 0 hat)
  have hsame : writeEntries (a.build kernel ((s.engines a.key).nextIdx descCount) descCount)
      ((s.acquire .descLock).acquire .lock).sgt.entries
      ⟨(((s.acquire .descLock).acquire .lock).engines a.key).linkedRing descCount, 0, a.lineSize, 0, 0⟩ = _ :=
    hbuild
  rw [show (((s.acquire .descLock).acquire .lock).engines a.key).nextIdx descCount =
    (s.engines a.key).nextIdx descCount from rfl, hsame] at h
  exact Option.some.inj h

theorem idle_of_busy {e : DmaEngine} (h : e.busy = false) :
    e.descUsed = 0 ∧ e.running = false ∧ e.transferList = [] := by
  unfold DmaEngine.busy at h
  simp only [Bool.or_eq_false_iff] at h
  exact ⟨by simpa using h.1.1, h.1.2, by simpa using h.2⟩

/-- The engine once the request was queued on it. -/
structure Queued (kernel : Kernel) (a : Submission) (descCount : Nat) (s t : Sys) : Prop where
  sgt : t.sgt = s.sgt
  descBus : (t.engines a.key).descBus = (s.engines a.key).descBus
  first : (t.engines a.key).regs.firstDescLo + 4294967296 * (t.engines a.key).regs.firstDescHi =
    u64 ((s.engines a.key).descBus + descSize * (s.engines a.key).nextIdx descCount)
  adjacent : (t.engines a.key).regs.firstDescAdjacent =
    getNextAdj descCount (pciDmaL (u64 ((s.engines a.key).descBus +
      descSize * (s.engines a.key).nextIdx descCount)))
  desc : (t.engines a.key).desc = setAdjacent ((s.engines a.key).nextIdx descCount) descCount
    (a.filled kernel descCount (s.engines a.key) s.sgt.entries).desc

theorem submitRequest_queued {descCount : Nat} (hl : 0 < a.lineSize) (hm : 0 < kernel.descBlenMax)
    (h : submitRequest kernel a descCount s = some (-EIOCBQUEUED, t)) : Queued kernel a descCount s t := by
  obtain ⟨hbusy, hqueue⟩ := submitRequest_built hl hm h
  obtain ⟨-, hrun, hlist⟩ := idle_of_busy hbusy
  obtain ⟨hstarted, hsgt⟩ := queueLines_started hqueue
    (by simpa [Sys.setEngine, Sys.release, Sys.acquire, Submission.builtEngine] using hrun)
    (by simpa [Sys.setEngine, Sys.release, Sys.acquire, Submission.builtEngine] using hlist)
  refine ⟨hsgt, ?_, ?_, ?_, ?_⟩
  · rw [hstarted.descBus]
    simp [Sys.setEngine, Sys.release, Sys.acquire, Submission.builtEngine]
  · rw [hstarted.firstDescLo, hstarted.firstDescHi, pciDma_eq]
    exact u64_of_lt (u64_lt _)
  · exact hstarted.firstDescAdjacent
  · rw [hstarted.desc]
    simp [Sys.setEngine, Sys.release, Sys.acquire, Submission.builtEngine]

theorem unmapSgl_refuses {rv : Int} (hrv : rv ≠ -EIOCBQUEUED) :
    unmapSgl a rv s ≠ (-EIOCBQUEUED, t) := by
  intro h
  have hfst := congrArg Prod.fst h
  unfold unmapSgl at hfst
  split at hfst <;> exact hrv hfst

/-- What a call has done when it turns to its request of `n` descriptors. -/
structure Prepared (a : Submission) (n : Nat) (s s' : Sys) : Prop where
  magic : (s.engines a.key).magic = magicEngine
  dir : (s.engines a.key).dir = .toDevice
  engines : s'.engines = s.engines
  held : s'.held = s.held
  cbReq : s'.cbReq = some ⟨a.epAddr, u32 (a.lineSize * a.lineCount : Nat), n⟩
  nents : s'.sgt.nents ≠ 0
  origNents : s'.sgt.origNents = s.sgt.origNents
  resources : s'.resources = s.resources ++
    (if a.dmaMapped then [] else [.mapped s.sgt.origNents]) ++ [.allocated]

/-- A frame that is accepted was counted, and fits the ring. -/
theorem submitMapped_queued (hl : 0 < a.lineSize) (hc : 0 < a.lineCount)
    (h : submitMapped kernel a s = some (-EIOCBQUEUED, t)) :
    ∃ n s', countLineDescriptors kernel.descBlenMax s.sgt.entries a.lineSize a.lineCount = .ok n ∧
      u32 n ≤ (s.engines a.key).descMax ∧ s'.engines = s.engines ∧ s'.held = s.held ∧ s'.sgt = s.sgt ∧
      s'.cbReq = some ⟨a.epAddr, u32 (a.lineSize * a.lineCount : Nat), u32 n⟩ ∧
      s'.resources = s.resources ++ [.allocated] ∧
      submitRequest kernel a (u32 n) s' = some (-EIOCBQUEUED, t) := by
  have hcount := countLineDescriptors_eq hl hc kernel.descBlenMax s.sgt.entries
  unfold submitMapped at h
  split at h
  next rv hrv =>
    rw [hrv] at hcount
    split at hcount
    · cases hcount
    · obtain rfl := Except.error.inj hcount
      exact absurd (Option.some.inj h) (unmapSgl_refuses (by decide))
  next n hn =>
    dsimp only at h
    split at h
    · exact absurd (Option.some.inj h) (unmapSgl_refuses (by decide))
    next hle =>
      split at h
      · exact absurd (Option.some.inj h) (unmapSgl_refuses (by decide))
      next s₁ halloc =>
        unfold requestAlloc at halloc
        split at halloc
        · obtain ⟨hreq, rfl⟩ := Prod.mk.inj halloc
          obtain rfl := Option.some.inj hreq
          refine ⟨n, _, hn, Nat.not_lt.1 hle, ?_, ?_, ?_, ?_, ?_, h⟩
          all_goals rfl
        · cases halloc

theorem submitEngine_queued (hl : 0 < a.lineSize) (hc : 0 < a.lineCount)
    (h : submitEngine kernel a s = some (-EIOCBQUEUED, t)) :
    ∃ n s', countLineDescriptors kernel.descBlenMax s'.sgt.entries a.lineSize a.lineCount = .ok n ∧
      u32 n ≤ (s.engines a.key).descMax ∧ Prepared a (u32 n) s s' ∧
      submitRequest kernel a (u32 n) s' = some (-EIOCBQUEUED, t) := by
  have hno : ∀ {rv : Int} {u : Sys}, rv ≠ -EIOCBQUEUED → some (rv, u) ≠ some (-EIOCBQUEUED, t) :=
    fun hrv heq => hrv (congrArg Prod.fst (Option.some.inj heq))
  unfold submitEngine at h
  dsimp only at h
  split at h
  · exact absurd h (hno (by decide))
  next hmagic =>
  split at h
  · exact absurd h (hno (by decide))
  split at h
  · exact absurd h (hno (by decide))
  next hsame =>
  split at h
  · exact absurd h (hno (by decide))
  next hstream =>
  have hmagic := not_not.1 hmagic
  have hdir : (s.engines a.key).dir = .toDevice := by
    have hwrite : a.write = true := by
      by_contra hread
      exact hstream (.inl (by simpa using hread))
    rw [not_not.1 hsame]
    unfold Submission.dir
    rw [if_pos hwrite]
  split at h
  next hmap =>
    split at h
    · exact absurd h (hno (by decide))
    next entries hentries =>
      obtain ⟨n, s', hn, hle, hengines, hheld, hsgt, hcb, hresources, hreq⟩ := submitMapped_queued hl hc h
      refine ⟨n, s', hsgt.symm ▸ hn, hle, ⟨hmagic, hdir, hengines, hheld, hcb, ?_, ?_, ?_⟩, hreq⟩
      · rw [hsgt]
        exact fun hzero => hentries (List.eq_nil_of_length_eq_zero hzero)
      · rw [hsgt]
      · rw [if_neg (by simpa using hmap), hresources]
        rfl
  next hmap =>
    split at h
    · exact absurd h (hno (by decide))
    next hnents =>
      obtain ⟨n, s', hn, hle, hengines, hheld, hsgt, hcb, hresources, hreq⟩ := submitMapped_queued hl hc h
      refine ⟨n, s', hsgt.symm ▸ hn, hle, ⟨hmagic, hdir, hengines, hheld, hcb, hsgt ▸ hnents, hsgt ▸ rfl, ?_⟩, hreq⟩
      rw [if_pos (by simpa using hmap), List.append_nil, hresources]

theorem debugCheckDevHndl_log (dev : Device) (hndl : Nat) (s : Sys) :
    ∃ log, (debugCheckDevHndl dev hndl s).2 = { s with log := log } := by
  unfold debugCheckDevHndl
  split
  · exact ⟨s.log, rfl⟩
  · split
    · exact ⟨_, rfl⟩
    · split
      · exact ⟨_, rfl⟩
      · exact ⟨s.log, rfl⟩

/-- **What an accepted call has done** when it turns to its request. -/
theorem submitLines_queued {dev : Device} (h : submitLines dev kernel a s = some (-EIOCBQUEUED, t)) :
    0 < a.lineSize ∧ 0 < a.lineCount ∧ ¬ (a.write ∧ a.channel ≥ dev.h2cChannelMax) ∧
      ¬ (!a.write ∧ a.channel ≥ dev.c2hChannelMax) ∧
      ∃ n s', countLineDescriptors kernel.descBlenMax s'.sgt.entries a.lineSize a.lineCount = .ok n ∧
        u32 n ≤ (s.engines a.key).descMax ∧ Prepared a (u32 n) s s' ∧
        submitRequest kernel a (u32 n) s' = some (-EIOCBQUEUED, t) := by
  have hno : ∀ {rv : Int} {u : Sys}, rv ≠ -EIOCBQUEUED → some (rv, u) ≠ some (-EIOCBQUEUED, t) :=
    fun hrv heq => hrv (congrArg Prod.fst (Option.some.inj heq))
  unfold submitLines at h
  split at h
  · exact absurd h (hno (by decide))
  next hargs =>
    have hl : 0 < a.lineSize := Nat.pos_of_ne_zero fun hz => hargs (.inr (.inr (.inl hz)))
    have hc : 0 < a.lineCount := Nat.pos_of_ne_zero fun hz => hargs (.inr (.inr (.inr hz)))
    split at h
    · exact absurd h (hno (by decide))
    next hndl _ =>
      obtain ⟨log, hlog⟩ := debugCheckDevHndl_log dev hndl s
      dsimp only at h
      rw [hlog] at h
      split at h
      · exact absurd h (hno (by decide))
      split at h
      · exact absurd h (hno (by decide))
      next hh2c =>
      split at h
      · exact absurd h (hno (by decide))
      next hc2h =>
      obtain ⟨n, s', hn, hle, hprep, hreq⟩ := submitEngine_queued hl hc h
      exact ⟨hl, hc, hh2c, hc2h, n, s', hn, hle, ⟨hprep.magic, hprep.dir, hprep.engines, hprep.held, hprep.cbReq, hprep.nents,
        hprep.origNents, hprep.resources⟩, hreq⟩

/-- The frame has lines, and the mapping is as long as the frame. -/
theorem submitLines_reads {dev : Device} (h : submitLines dev kernel a s = some (-EIOCBQUEUED, t))
    (h32 : a.lineSize * a.lineCount < 2 ^ 32)
    (halign : (s.engines a.key).descBus % 4096 = 0)
    (hfit : (s.engines a.key).descBus + descSize * (s.engines a.key).descMax ≤ 2 ^ 64) :
    0 < a.lineSize ∧ total t.sgt.entries = a.lineSize * a.lineCount ∧
    ∃ descs, Packetized t.sgt.entries a.lineSize a.lineCount kernel.descBlenMax a.epAddr descs ∧
      ReadsExactly (t.engines a.key).descBus (t.engines a.key).desc
        ((t.engines a.key).regs.firstDescLo + 4294967296 * (t.engines a.key).regs.firstDescHi,
          (t.engines a.key).regs.firstDescAdjacent + 1) descs := by
  obtain ⟨hl, hc, -, -, n, s', hcount, hmax, hprep, hreq⟩ := submitLines_queued h
  have hcut := countLineDescriptors_eq hl hc kernel.descBlenMax s'.sgt.entries
  rw [hcount] at hcut
  split at hcut
  swap
  · cases hcut
  next hfits =>
    obtain ⟨hm, htotal⟩ := hfits
    obtain rfl := Except.ok.inj hcut
    have hq := submitRequest_queued hl hm hreq
    have hle := segments_length_le hl hm s'.sgt.entries
    have hbytes : 0 < total s'.sgt.entries := by
      rw [htotal]
      exact Nat.mul_pos hl hc
    have hpos := segments_length_pos hl hm hbytes
    have hwrap : u32 (segments a.lineSize kernel.descBlenMax 0 s'.sgt.entries).length =
        (segments a.lineSize kernel.descBlenMax 0 s'.sgt.entries).length := by
      rw [u32_natCast]
      omega
    rw [hwrap] at hmax hq
    set segs := segments a.lineSize kernel.descBlenMax 0 s'.sgt.entries
    set e := s.engines a.key
    have hkey : s'.engines a.key = e := congrFun hprep.engines a.key
    obtain ⟨hsgt, hbus, hfirst, hadj, hdesc⟩ := hq
    rw [hkey] at hbus hfirst hadj hdesc
    have hinside : e.nextIdx segs.length + segs.length ≤ e.descMax := by
      unfold DmaEngine.nextIdx
      split <;> omega
    have hstart : u64 (e.descBus + descSize * e.nextIdx segs.length) =
        e.descBus + descSize * e.nextIdx segs.length := by
      apply u64_of_lt
      unfold descSize at hfit ⊢
      omega
    let b := a.build kernel (e.nextIdx segs.length) segs.length
    let x := (e.newTransfer a segs.length).toTransfer
    have hbuilt : Built b segs (x.descs (t.engines a.key).desc) := by
      refine built_of_ring (fun j hj => ?_) rfl rfl
      rw [hdesc]
      exact ring_slot (b := b) (s := ⟨e.linkedRing segs.length, 0, a.lineSize, 0, 0⟩) rfl hj
    have hpackets := hbuilt.packetized hl hm hbuilt.length.symm htotal
    have hlinked : Linked (u64 (e.descBus + descSize * e.nextIdx segs.length)) (e.nextIdx segs.length)
        segs.length (t.engines a.key).desc := by
      rw [hdesc]
      exact linked_lines (b := b) rfl rfl
    rw [hstart] at hlinked hfirst hadj
    rw [hfirst, hadj, hbus, hsgt]
    refine ⟨hl, htotal, _, hpackets, hlinked.reads halign ?_ hpos ?_⟩
    · unfold descSize at hfit ⊢
      omega
    · intro i hi
      have hlen : i < (x.descs (t.engines a.key).desc).length := by rw [hbuilt.length]; exact hi
      have hstop := hpackets.stopped i hlen
      have hget : (x.descs (t.engines a.key).desc)[i] =
          (t.engines a.key).desc (e.nextIdx segs.length + i) := by
        simp only [Transfer.descs, List.getElem_map, List.getElem_range]
        rfl
      rwa [hget, hbuilt.length] at hstop

/-- **What the card reads of an accepted frame** is the frame, line by line. -/
theorem accepted_frame_read {dev : Device} (h : submitLines dev kernel a s = some (-EIOCBQUEUED, t))
    (h32 : a.lineSize * a.lineCount < 2 ^ 32)
    (halign : (s.engines a.key).descBus % 4096 = 0)
    (hfit : (s.engines a.key).descBus + descSize * (s.engines a.key).descMax ≤ 2 ^ 64) :
    ∃ descs, Packetized t.sgt.entries a.lineSize a.lineCount kernel.descBlenMax a.epAddr descs ∧
      ReadsExactly (t.engines a.key).descBus (t.engines a.key).desc
        ((t.engines a.key).regs.firstDescLo + 4294967296 * (t.engines a.key).regs.firstDescHi,
          (t.engines a.key).regs.firstDescAdjacent + 1) descs :=
  (submitLines_reads h h32 halign hfit).2.2

end

theorem lineEntry_addr_lt : 0x100000 < 2 ^ 64 := by decide

theorem lineEntry_len_lt : 8 < 2 ^ 32 := by decide

/-- The one line, mapped in one piece. -/
def lineEntry : SgEntry := ⟨0x100000, 8, lineEntry_addr_lt, lineEntry_len_lt⟩

def lineMapping : Kernel where
  descBlenMax := 0x0fffffff
  pollMode := false
  enableStC2hCredit := false
  offlineAtEntry := false
  offlineAtQueue := false
  dmaMapSg := [lineEntry]
  kzalloc := true
  vmalloc := true
  cpu := 0
  status := 0

theorem oneLine_accepted :
    ∃ t, submitLines knownDevice lineMapping oneLine restingSys = some (-EIOCBQUEUED, t) := by
  obtain ⟨t, ht, -⟩ := submitLines_verdict knownDevice lineMapping (a := oneLine) (s := restingSys)
    rfl rfl rfl
  have hpiece : Cut.pieceLen 8 0x0fffffff 0 lineEntry.len = lineEntry.len := by decide
  have hcount : oneLine.descCount lineMapping lineMapping.dmaMapSg = 1 := by
    show u32 (segments 8 0x0fffffff 0 [lineEntry]).length = 1
    rw [segments, segments, Cut.chunk_of_ne_zero (by rw [hpiece]; decide), hpiece, Nat.sub_self,
      Cut.chunk_zero]
    rfl
  have hverdict : verdict knownDevice lineMapping oneLine (restingSys.engines oneLine.key) =
      -EIOCBQUEUED := by
    unfold verdict engineVerdict mappedVerdict
    rw [show lineMapping.dmaMapSg.length = 1 from rfl, hcount]
    decide
  rw [hverdict] at ht
  exact ⟨t, ht⟩

theorem accepted_frame_read_one : ∃ t,
    submitLines knownDevice lineMapping oneLine restingSys = some (-EIOCBQUEUED, t) ∧
      ∃ descs, Packetized t.sgt.entries 8 1 0x0fffffff 0 descs ∧
        ReadsExactly (t.engines (true, 0)).descBus (t.engines (true, 0)).desc
          ((t.engines (true, 0)).regs.firstDescLo + 4294967296 * (t.engines (true, 0)).regs.firstDescHi,
            (t.engines (true, 0)).regs.firstDescAdjacent + 1) descs := by
  obtain ⟨t, ht⟩ := oneLine_accepted
  exact ⟨t, ht, accepted_frame_read ht (by decide) (by decide) (by decide)⟩

end FpgaDrm.Xdma
