import SimpleDisplay.Xdma.Request

/-!
# What a transfer carries

The descriptors that `transfer_init` writes are the next pieces of the request, each with its
bytes in the host's memory and its address on the card (`transferInit_initiated`,
`builtRing_placed`), and the card reads just these (`builtRing_reads`).
-/

namespace FpgaDrm.Xdma

open Word Slots

/-! ## A descriptor and its piece -/

/-- The address in the host's memory, -/
def Desc.hostAddr (dir : Direction) (d : Desc) : Nat :=
  match dir with
  | .toDevice => d.src
  | .fromDevice => d.dst

/-- and the one on the card. -/
def Desc.epAddr (dir : Direction) (d : Desc) : Nat :=
  match dir with
  | .toDevice => d.dst
  | .fromDevice => d.src

/-- The address on the card after `n` bytes. -/
def DmaEngine.epAt (e : DmaEngine) (epAddr n : Nat) : Nat := if e.nonIncrAddr then epAddr else epAddr + n

/-- The descriptor moves the piece. -/
structure Carries (e : DmaEngine) (epAddr resBus : Nat) (p : SwDesc) (d : Desc) : Prop where
  bytes : d.bytes = p.len
  hostAddr : d.hostAddr e.dir = u64 p.addr
  epAddr : e.hasResults = false → d.epAddr e.dir = u64 epAddr
  result : e.hasResults = true → d.src = u64 resBus

theorem u64_congr_add {a b : Nat} (h : u64 a = u64 b) (n : Nat) : u64 (u64 (a + n)) = u64 (b + n) := by
  unfold u64 at h ⊢
  omega

theorem pciDma_congr {a b : Nat} (h : u64 a = u64 b) :
    pciDmaL a + 4294967296 * pciDmaH a = u64 b := (pciDma_eq a).trans h

section

variable {e : DmaEngine}

/-- What the loop writes for a piece. -/
def pieceDesc (e : DmaEngine) (epAddr bus : Nat) (p : SwDesc) (d : Desc) : Desc :=
  if e.hasResults then
    { descSetDir e.dir d p.addr epAddr p.len with srcAddrLo := pciDmaL bus, srcAddrHi := pciDmaH bus }
  else descSetDir e.dir d p.addr epAddr p.len

theorem pieceDesc_carries {ep ep' bus bus' : Nat} (hep : u64 ep' = u64 ep) (hbus : u64 bus' = u64 bus)
    (p : SwDesc) (d : Desc) : Carries e ep bus p (pieceDesc e ep' bus' p d) := by
  unfold pieceDesc descSetDir
  by_cases hres : e.hasResults = true
  · have hdir : e.dir = .fromDevice := by
      unfold DmaEngine.hasResults at hres
      simpa using (Bool.and_eq_true_iff.1 hres).2
    rw [if_pos hres, hdir]
    refine ⟨rfl, ?_, fun hno => ?_, fun _ => pciDma_congr hbus⟩
    · rw [hdir]
      exact pciDma_eq p.addr
    · rw [hres] at hno
      cases hno
  · rw [if_neg hres]
    cases hdir : e.dir with
    | toDevice =>
      refine ⟨rfl, ?_, fun _ => ?_, fun hyes => absurd hyes hres⟩
      · rw [hdir]
        exact pciDma_eq p.addr
      · rw [hdir]
        exact pciDma_congr hep
    | fromDevice =>
      refine ⟨rfl, ?_, fun _ => ?_, fun hyes => absurd hyes hres⟩
      · rw [hdir]
        exact pciDma_eq p.addr
      · rw [hdir]
        exact pciDma_congr hep

/-- The loop leaves the links and the control word alone. -/
theorem pieceDesc_links (ep bus : Nat) (p : SwDesc) (d : Desc) :
    (pieceDesc e ep bus p d).control = d.control ∧ (pieceDesc e ep bus p d).nextLo = d.nextLo ∧
      (pieceDesc e ep bus p d).nextHi = d.nextHi := by
  unfold pieceDesc descSetDir
  cases e.dir <;> split <;> exact ⟨rfl, rfl, rfl⟩

/-! ## The loop -/

/-- The bytes of pieces. -/
def lens (ps : List SwDesc) : Nat := (ps.map SwDesc.len).sum

theorem lens_cons (p : SwDesc) (ps : List SwDesc) : lens (p :: ps) = p.len + lens ps := List.sum_cons

theorem lens_append (ps qs : List SwDesc) : lens (ps ++ qs) = lens ps + lens qs := by
  unfold lens
  rw [List.map_append, List.sum_append]

theorem buildPiece_desc (slot : Nat) (p : SwDesc) (s : SgBuild) :
    (buildPiece e slot p s).desc = set s.desc slot (pieceDesc e s.epAddr s.bus p (s.desc slot)) := rfl

theorem transferBuild_out {slot j : Nat} {ps : List SwDesc} {s : SgBuild}
    (h : j < slot ∨ slot + ps.length ≤ j) : (transferBuild e slot ps s).desc j = s.desc j := by
  induction ps generalizing slot s with
  | nil => rfl
  | cons p ps ih =>
    rw [List.length_cons] at h
    rw [transferBuild, ih (by omega), buildPiece_desc, set_of_ne (by omega)]

theorem transferBuild_in {slot i : Nat} {ps : List SwDesc} {s : SgBuild} {ep bus : Nat}
    (hep : u64 s.epAddr = u64 ep) (hbus : u64 s.bus = u64 bus) (hi : i < ps.length) :
    ∃ ep' bus', (transferBuild e slot ps s).desc (slot + i) =
        pieceDesc e ep' bus' ps[i] (s.desc (slot + i)) ∧
      u64 ep' = u64 (e.epAt ep (lens (ps.take i))) ∧
      (e.hasResults = true → u64 bus' = u64 (bus + resultSize * i)) := by
  induction ps generalizing slot i s ep bus with
  | nil => cases hi
  | cons p ps ih =>
    cases i with
    | zero =>
      refine ⟨s.epAddr, s.bus, ?_, ?_, fun _ => hbus⟩
      · rw [transferBuild, transferBuild_out (by omega), buildPiece_desc]
        exact set_same _ _ _
      · rw [hep]
        unfold DmaEngine.epAt
        split <;> rfl
    | succ i =>
      have hep' : u64 (buildPiece e slot p s).epAddr = u64 (e.epAt ep p.len) := by
        unfold buildPiece DmaEngine.epAt
        dsimp only
        split
        · exact hep
        · exact u64_congr_add hep _
      have hbus' : u64 (buildPiece e slot p s).bus =
          u64 (if e.hasResults then bus + resultSize else bus) := by
        unfold buildPiece
        dsimp only
        split
        · exact u64_congr_add hbus _
        · exact hbus
      have hi' : i < ps.length := by simpa using hi
      obtain ⟨ep', bus', hdesc, hepi, hbusi⟩ := @ih (slot + 1) i _ _ _ hep' hbus' hi'
      refine ⟨ep', bus', ?_, ?_, fun hres => ?_⟩
      · have hkeep : (buildPiece e slot p s).desc (slot + (i + 1)) = s.desc (slot + (i + 1)) := by
          rw [buildPiece_desc, set_of_ne (by omega)]
        rw [show slot + 1 + i = slot + (i + 1) by omega, hkeep] at hdesc
        exact hdesc
      · rw [hepi, List.take_succ_cons, lens_cons]
        unfold DmaEngine.epAt
        split
        · rfl
        · rw [Nat.add_assoc]
      · rw [hbusi hres, if_pos hres, Nat.mul_add, Nat.mul_one, Nat.add_assoc, Nat.add_comm resultSize]

theorem transferBuild_epAddr {slot : Nat} {ps : List SwDesc} {s : SgBuild} {ep : Nat}
    (hep : u64 s.epAddr = u64 ep) :
    u64 (transferBuild e slot ps s).epAddr = u64 (e.epAt ep (lens ps)) := by
  induction ps generalizing slot s ep with
  | nil =>
    rw [transferBuild, hep]
    unfold DmaEngine.epAt
    split <;> rfl
  | cons p ps ih =>
    have hep' : u64 (buildPiece e slot p s).epAddr = u64 (e.epAt ep p.len) := by
      unfold buildPiece DmaEngine.epAt
      dsimp only
      split
      · exact hep
      · exact u64_congr_add hep _
    rw [transferBuild, ih hep', lens_cons]
    unfold DmaEngine.epAt
    split
    · rfl
    · rw [Nat.add_assoc]

theorem transferBuild_len {slot : Nat} {ps : List SwDesc} {s : SgBuild} (h : s.len + lens ps < 2 ^ 32) :
    (transferBuild e slot ps s).len = s.len + lens ps := by
  induction ps generalizing slot s with
  | nil => rfl
  | cons p ps ih =>
    rw [lens_cons] at h ⊢
    have hlen : (buildPiece e slot p s).len = s.len + p.len := by
      show u32 (s.len + p.len : Nat) = _
      rw [u32_natCast]
      omega
    rw [transferBuild, ih (by omega), hlen, Nat.add_assoc]

/-! ## Flags -/

/-- What `transfer_init` does to the control word of a descriptor. -/
def mark (eopFlush last : Bool) (d : Desc) : Desc :=
  if last then controlSet d (descStopped ||| descEop ||| descCompleted)
  else if eopFlush then controlSet d descCompleted else d

/-- The field that it sets. -/
def markField (eopFlush last : Bool) : Nat :=
  if last then descStopped ||| descEop ||| descCompleted else if eopFlush then descCompleted else 0

theorem mark_eq (eopFlush last : Bool) {d : Desc} (h : d.control = descMagic) :
    mark eopFlush last d = { d with control := descMagic ||| markField eopFlush last } := by
  have hmagic : descMagic &&& 0xffffffffffffff00 = descMagic := rfl
  have hset : ∀ field, field &&& 0xffffffffffffff00 = 0 →
      controlSet d field = { d with control := descMagic ||| field } := by
    intro field hfield
    unfold controlSet descControlSet
    dsimp only
    rw [if_neg (not_not.2 hfield), h, hmagic]
  unfold mark markField
  cases last with
  | true => exact hset (descStopped ||| descEop ||| descCompleted) (by decide)
  | false =>
    cases eopFlush with
    | true => exact hset descCompleted (by decide)
    | false =>
      show d = { d with control := descMagic ||| 0 }
      rw [Nat.or_zero, ← h]

theorem markField_testBit (eopFlush last : Bool) :
    (descMagic ||| markField eopFlush last).testBit 0 = last ∧
      (descMagic ||| markField eopFlush last).testBit 1 = (last || eopFlush) ∧
      (descMagic ||| markField eopFlush last).testBit 4 = last ∧
      ∀ k < 6, (descMagic ||| markField eopFlush last).testBit (8 + k) = false := by
  revert eopFlush last
  decide

/-! ## The transfer -/

/-- The ring after the control words are set. -/
def markedRing (eopFlush : Bool) (base n : Nat) (desc : Nat → Desc) : Nat → Desc :=
  let stopped := set desc (base + (n - 1))
    (controlSet (desc (base + (n - 1))) (descStopped ||| descEop ||| descCompleted))
  if eopFlush then forSlots base (n - 1) (fun _ d => controlSet d descCompleted) stopped else stopped

theorem markedRing_slot (eopFlush : Bool) {base n i : Nat} (desc : Nat → Desc) (hi : i < n) :
    markedRing eopFlush base n desc (base + i) = mark eopFlush (decide (i + 1 = n)) (desc (base + i)) := by
  unfold markedRing mark
  by_cases hlast : i + 1 = n
  · have hpos : n - 1 = i := by omega
    rw [decide_eq_true hlast, if_pos rfl, hpos]
    split
    · rw [forSlots_out _ _ (by omega), set_same]
    · exact set_same _ _ _
  · rw [decide_eq_false hlast]
    split
    · rw [forSlots_in _ _ (by omega), set_of_ne (by omega)]
      rfl
    · rw [set_of_ne (by omega)]
      rfl

/-- The ring after `transfer_build`, -/
def filledRing (e : DmaEngine) (ep : Nat) (ps : List SwDesc) : Nat → Desc :=
  (transferBuild e e.descIdx ps
    ⟨transferDescInit (u64 (e.descBus + descSize * e.descIdx)) e.descIdx ps.length e.desc, ep, 0,
      u64 (e.cyclicResultBus + resultSize * e.descIdx)⟩).desc

/-- and after `transfer_init`. -/
def builtRing (eopFlush : Bool) (e : DmaEngine) (ep : Nat) (ps : List SwDesc) : Nat → Desc :=
  setAdjacent e.descIdx ps.length (markedRing eopFlush e.descIdx ps.length (filledRing e ep ps))

/-- What the ring holds of a piece. -/
structure Placed (eopFlush : Bool) (e : DmaEngine) (ep : Nat) (ps : List SwDesc) (desc : Nat → Desc)
    (i : Nat) (hi : i < ps.length) : Prop where
  carries : Carries e (e.epAt ep (lens (ps.take i)))
    (e.cyclicResultBus + resultSize * (e.descIdx + i)) ps[i] (desc (e.descIdx + i))
  stopped : (desc (e.descIdx + i)).flag descStopped = decide (i + 1 = ps.length)
  eop : (desc (e.descIdx + i)).flag descEop = decide (i + 1 = ps.length)
  completed : (desc (e.descIdx + i)).flag descCompleted = (decide (i + 1 = ps.length) || eopFlush)

variable {eopFlush : Bool} {ep ep' : Nat} {ps : List SwDesc}

/-- A slot before its flags are set: the piece, the magic number and the link. -/
structure Filled (e : DmaEngine) (ep : Nat) (ps : List SwDesc) (i : Nat) (hi : i < ps.length)
    (d : Desc) : Prop where
  carries : Carries e (e.epAt ep (lens (ps.take i)))
    (e.cyclicResultBus + resultSize * (e.descIdx + i)) ps[i] d
  control : d.control = descMagic
  next : i + 1 < ps.length →
    d.nextLo = pciDmaL (u64 (u64 (e.descBus + descSize * e.descIdx) + descSize * (i + 1))) ∧
      d.nextHi = pciDmaH (u64 (u64 (e.descBus + descSize * e.descIdx) + descSize * (i + 1)))

theorem filledRing_slot {i : Nat} (hi : i < ps.length) (hep : u64 ep' = u64 ep) :
    Filled e ep ps i hi (filledRing e ep' ps (e.descIdx + i)) := by
  have hbus : u64 (u64 (e.cyclicResultBus + resultSize * e.descIdx)) =
      u64 (e.cyclicResultBus + resultSize * e.descIdx) := by
    unfold u64
    omega
  obtain ⟨ep₁, bus₁, hslot, hep₁, hbus₁⟩ := @transferBuild_in e e.descIdx i ps
    ⟨transferDescInit (u64 (e.descBus + descSize * e.descIdx)) e.descIdx ps.length e.desc, ep', 0,
      u64 (e.cyclicResultBus + resultSize * e.descIdx)⟩ ep _ hep hbus hi
  have hslot : filledRing e ep' ps (e.descIdx + i) = pieceDesc e ep₁ bus₁ ps[i] _ := hslot
  obtain ⟨hcontrol, hlo, hhi⟩ := pieceDesc_links (e := e) ep₁ bus₁ ps[i] (transferDescInit
    (u64 (e.descBus + descSize * e.descIdx)) e.descIdx ps.length e.desc (e.descIdx + i))
  rw [hslot]
  refine ⟨?_, ?_, fun hnext => ?_⟩
  · by_cases hres : e.hasResults = true
    · have hbus₂ : u64 bus₁ = u64 (e.cyclicResultBus + resultSize * (e.descIdx + i)) := by
        rw [hbus₁ hres, Nat.mul_add, Nat.add_assoc]
      exact pieceDesc_carries hep₁ hbus₂ ps[i] _
    · obtain ⟨hbytes, hhost, hepAddr, -⟩ := pieceDesc_carries (e := e) hep₁ (rfl : u64 bus₁ = u64 bus₁)
        ps[i] (transferDescInit (u64 (e.descBus + descSize * e.descIdx)) e.descIdx ps.length e.desc
          (e.descIdx + i))
      exact ⟨hbytes, hhost, hepAddr, fun hyes => absurd hyes hres⟩
  · rw [hcontrol]
    exact transferDescInit_control _ _ _ _ hi
  · rw [hlo, hhi]
    exact transferDescInit_next _ _ _ _ hnext

theorem builtRing_slot {i : Nat} (hi : i < ps.length) :
    builtRing eopFlush e ep ps (e.descIdx + i) =
      descAdjacent (markedRing eopFlush e.descIdx ps.length (filledRing e ep ps) (e.descIdx + i))
        (getNextAdj (ps.length - i - 1)
          (markedRing eopFlush e.descIdx ps.length (filledRing e ep ps) (e.descIdx + i)).nextLo) := by
  unfold builtRing setAdjacent
  rw [forSlots_in _ _ hi]

theorem Carries.congr {epAddr resBus : Nat} {p : SwDesc} {d d' : Desc} (h : Carries e epAddr resBus p d)
    (hbytes : d'.bytes = d.bytes) (hsrc : d'.src = d.src) (hdst : d'.dst = d.dst) :
    Carries e epAddr resBus p d' := by
  have hhost : d'.hostAddr e.dir = d.hostAddr e.dir := by
    unfold Desc.hostAddr
    cases e.dir
    · exact hsrc
    · exact hdst
  have hep : d'.epAddr e.dir = d.epAddr e.dir := by
    unfold Desc.epAddr
    cases e.dir
    · exact hdst
    · exact hsrc
  refine ⟨hbytes.trans h.bytes, hhost.trans h.hostAddr, fun hno => ?_, fun hyes => ?_⟩
  · exact hep.trans (h.epAddr hno)
  · exact hsrc.trans (h.result hyes)

theorem builtRing_placed {i : Nat} (hi : i < ps.length) (hep : u64 ep' = u64 ep) :
    Placed eopFlush e ep ps (builtRing eopFlush e ep' ps) i hi := by
  have hfilled := filledRing_slot (e := e) hi hep
  obtain ⟨hstop, hdone, heop, -⟩ := markField_testBit eopFlush (decide (i + 1 = ps.length))
  have hflag : ∀ k < 8, (builtRing eopFlush e ep' ps (e.descIdx + i)).flag (2 ^ k) =
      (descMagic ||| markField eopFlush (decide (i + 1 = ps.length))).testBit k := by
    intro k hk
    rw [flag_two_pow, builtRing_slot hi, testBit_descAdjacent _ _ hk, markedRing_slot eopFlush _ hi,
      mark_eq _ _ hfilled.control]
  refine ⟨?_, ?_, ?_, ?_⟩
  · rw [builtRing_slot hi, markedRing_slot eopFlush _ hi, mark_eq _ _ hfilled.control]
    exact hfilled.carries.congr rfl rfl rfl
  · rw [← hstop]
    exact hflag 0 (by decide)
  · rw [← heop]
    exact hflag 4 (by decide)
  · rw [← hdone]
    exact hflag 1 (by decide)

theorem builtRing_linked :
    Linked (u64 (e.descBus + descSize * e.descIdx)) e.descIdx ps.length (builtRing eopFlush e ep ps) := by
  apply linked_setAdjacent
  · intro i hi
    have hfilled := filledRing_slot (e := e) (show i < ps.length by omega) (rfl : u64 ep = u64 ep)
    rw [markedRing_slot eopFlush _ (by omega), mark_eq _ _ hfilled.control]
    exact hfilled.next hi
  · intro i hi k hk
    have hfilled := filledRing_slot (e := e) hi (rfl : u64 ep = u64 ep)
    rw [markedRing_slot eopFlush _ hi, mark_eq _ _ hfilled.control]
    exact (markField_testBit eopFlush (decide (i + 1 = ps.length))).2.2.2 k hk

/-! ## `transfer_init` -/

variable {req : RequestCb} {needUnmap : Bool}

/-- The pieces of the next transfer. -/
def DmaEngine.nextPieces (e : DmaEngine) (req : RequestCb) : List SwDesc :=
  (req.sdesc.drop req.swDescIdx).take (e.nextNum req)

/-- As many as are left, up to the end of the ring. -/
theorem nextNum_eq (hidx : e.descIdx < e.descMax) :
    e.nextNum req = min (req.swDescCnt - req.swDescIdx) (e.descMax - e.descIdx) := by
  unfold DmaEngine.nextNum
  dsimp only
  split <;> omega

theorem length_nextPieces (hidx : e.descIdx < e.descMax) (hcnt : req.swDescCnt = req.sdesc.length) :
    (e.nextPieces req).length = e.nextNum req := by
  unfold DmaEngine.nextPieces
  rw [List.length_take, List.length_drop, nextNum_eq hidx, hcnt]
  omega

/-- What `transfer_init` leaves, when the transfer gets the pieces `ps`. -/
structure Initiated (eopFlush needUnmap : Bool) (e : DmaEngine) (req : RequestCb) (ps : List SwDesc)
    (r : DmaEngine × RequestCb × QueuedTransfer) : Prop where
  engine : r.1 = { e with
    desc := builtRing eopFlush e req.epAddr ps
    descIdx := (e.descIdx + ps.length) % e.descMax
    descUsed := e.descUsed + ps.length }
  sdesc : r.2.1.sdesc = req.sdesc
  swDescCnt : r.2.1.swDescCnt = req.swDescCnt
  swDescIdx : r.2.1.swDescIdx = req.swDescIdx + ps.length
  epAddr : ∀ ep, u64 req.epAddr = u64 ep → u64 r.2.1.epAddr = u64 (e.epAt ep (lens ps))
  descIndex : r.2.2.descIndex = e.descIdx
  descBus : r.2.2.descBus = u64 (e.descBus + descSize * e.descIdx)
  descAdjacent : r.2.2.descAdjacent = ps.length
  descNum : r.2.2.descNum = ps.length
  lastInRequest : r.2.2.lastInRequest = decide (req.swDescIdx + ps.length = req.swDescCnt)
  unmap : r.2.2.needUnmap = needUnmap
  len : lens ps < 2 ^ 32 → r.2.2.len = lens ps

theorem transferInit_initiated (hidx : e.descIdx < e.descMax) (hcnt : req.swDescCnt = req.sdesc.length) :
    Initiated eopFlush needUnmap e req (e.nextPieces req) (transferInit eopFlush needUnmap e req) := by
  have hlen := length_nextPieces hidx hcnt
  have hps : (req.sdesc.drop req.swDescIdx).take (e.nextNum req) = e.nextPieces req := rfl
  unfold transferInit
  dsimp only
  rw [hps, ← hlen]
  refine ⟨rfl, rfl, rfl, rfl, fun ep hep => transferBuild_epAddr hep, rfl, rfl, rfl, rfl, rfl, rfl,
    fun hlt => ?_⟩
  refine (transferBuild_len (by rw [Nat.zero_add]; exact hlt)).trans (Nat.zero_add _)

/-- **A card that is started on the transfer** reads its descriptors and no others. -/
theorem builtRing_reads (hpos : 0 < ps.length) (hinside : e.descIdx + ps.length ≤ e.descMax)
    (halign : e.descBus % 4096 = 0) (hfit : e.descBus + descSize * e.descMax ≤ 2 ^ 64) :
    ReadsExactly e.descBus (builtRing eopFlush e ep ps)
      (u64 (e.descBus + descSize * e.descIdx),
        getNextAdj ps.length (pciDmaL (u64 (e.descBus + descSize * e.descIdx))) + 1)
      ((List.range ps.length).map fun i => builtRing eopFlush e ep ps (e.descIdx + i)) := by
  have hlinked := @builtRing_linked e eopFlush ep ps
  have hstart : u64 (e.descBus + descSize * e.descIdx) = e.descBus + descSize * e.descIdx := by
    apply u64_of_lt
    unfold descSize at hfit ⊢
    omega
  rw [hstart] at hlinked ⊢
  refine hlinked.reads halign ?_ hpos fun i hi => ?_
  · unfold descSize at hfit ⊢
    omega
  · have hstop := (@builtRing_placed e eopFlush ep ep ps i hi rfl).stopped
    rw [hstop, decide_eq_true_iff]

end

end FpgaDrm.Xdma
