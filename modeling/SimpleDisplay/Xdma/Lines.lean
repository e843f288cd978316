import SimpleDisplay.Lib.Cut
import SimpleDisplay.Xdma.Descriptor

/-!
# Line packetization

`xdma_count_line_descriptors` and the part of `xdma_xfer_submit_lines_nowait` that
builds the transfer.  Both walk the mapped scatter list, each in its own two loops, and
take as much at a time as the entry, the line and `desc_blen_max` allow.

Seen from the stream of all bytes, both passes go through the pieces of one cut
(`Segment`): the first counts them (`countEntries_eq`), the second writes one descriptor
for each (`buildEntries_eq`), and what holds of the cut holds of the descriptors
(`Packetized`).
-/

namespace FpgaDrm.Xdma

open Word Slots

/-- A mapped entry: `sg_dma_address` and `sg_dma_len`. -/
structure SgEntry where
  addr : Nat
  len : Nat
  addr_lt : addr < 2 ^ 64
  len_lt : len < 2 ^ 32

/-- The bus addresses of its bytes. -/
def SgEntry.hostBytes (e : SgEntry) : List Nat := (List.range e.len).map fun i => u64 (e.addr + i)

/-! ## `xdma_count_line_descriptors` -/

structure CountState where
  lineRemaining : Nat
  linesDone : Nat
  count : Nat

/-- `while (sg_remaining)`. -/
def countEntry (blenMax lineSize lineCount sgRemaining : Nat) (s : CountState) :
    Except Int CountState :=
  if sgRemaining = 0 then .ok s
  else if s.linesDone ≥ lineCount then .error (-EINVAL)
  else
    let len := min (min sgRemaining s.lineRemaining) blenMax
    if _h : len = 0 then .error (-EINVAL)
    else
      let lineRemaining := s.lineRemaining - len
      countEntry blenMax lineSize lineCount (sgRemaining - len)
        { lineRemaining := if lineRemaining = 0 then lineSize else lineRemaining
          linesDone := if lineRemaining = 0 then s.linesDone + 1 else s.linesDone
          count := s.count + 1 }
termination_by sgRemaining
decreasing_by omega

/-- `for_each_sg`. -/
def countEntries (blenMax lineSize lineCount : Nat) :
    List SgEntry → CountState → Except Int CountState
  | [], s => .ok s
  | e :: es, s => do
    let s ← countEntry blenMax lineSize lineCount e.len s
    countEntries blenMax lineSize lineCount es s

def countLineDescriptors (blenMax : Nat) (sgt : List SgEntry) (lineSize lineCount : Nat) :
    Except Int Nat := do
  if lineSize = 0 ∨ lineCount = 0 then throw (-EINVAL)
  let s ← countEntries blenMax lineSize lineCount sgt ⟨lineSize, 0, 0⟩
  if s.linesDone ≠ lineCount ∨ s.lineRemaining ≠ lineSize then throw (-EINVAL)
  return s.count

/-! ## The transfer -/

/-- `struct xdma_transfer`, its descriptors given by their slots. -/
structure Transfer where
  descIndex : Nat
  descBus : Nat
  resBus : Nat
  descAdjacent : Nat
  descNum : Nat
  descCmplTh : Nat
  lastInRequest : Bool
  needUnmap : Bool
  len : Nat

/-- The engine: `descIdx` stays inside the ring, which has at most
`XDMA_ENGINE_XFER_MAX_DESC` slots. -/
structure Engine where
  desc : Nat → Desc
  descBus : Nat
  cyclicResultBus : Nat
  descMax : Nat
  descIdx : Nat
  descUsed : Nat
  running : Bool
  transferList : List Transfer
  descIdx_lt : descIdx < descMax
  descMax_le : descMax ≤ 0x800

def Engine.idle (eng : Engine) : Bool :=
  eng.descUsed = 0 && !eng.running && eng.transferList.isEmpty

/-- What stays the same while a transfer is built. -/
structure Build where
  blenMax : Nat
  lineSize : Nat
  epAddr : Nat
  descIndex : Nat
  descCount : Nat

structure BuildState where
  desc : Nat → Desc
  len : Nat
  lineRemaining : Nat
  linesDone : Nat
  descUsed : Nat

/-- The body of the loop, for a piece of `len` bytes at `addr`. -/
def fillDesc (b : Build) (addr len : Nat) (s : BuildState) : Except Int BuildState := do
  let slot := b.descIndex + s.descUsed
  let desc := descSet (s.desc slot) addr b.epAddr len
  let lineRemaining := s.lineRemaining - len
  let control := if lineRemaining = 0 then descEop else 0
  let control :=
    if s.descUsed + 1 = b.descCount then control ||| (descStopped ||| descCompleted) else control
  let desc ← descControlSet desc control
  return {
    desc := set s.desc slot desc
    len := u32 (s.len + len : Nat)
    lineRemaining := if lineRemaining = 0 then b.lineSize else lineRemaining
    linesDone := if lineRemaining = 0 then s.linesDone + 1 else s.linesDone
    descUsed := s.descUsed + 1 }

/-- `while (sg_remaining)`; `none` when the loop does not end. -/
def buildEntry (b : Build) (addr sgRemaining : Nat) (s : BuildState) :
    Option (Except Int BuildState) :=
  if sgRemaining = 0 then some (.ok s)
  else
    let len := min (min sgRemaining s.lineRemaining) b.blenMax
    if _h : len = 0 then none
    else
      match fillDesc b addr len s with
      | .error rv => some (.error rv)
      | .ok s => buildEntry b (u64 (addr + len)) (sgRemaining - len) s
termination_by sgRemaining
decreasing_by omega

/-- `for_each_sg`. -/
def buildEntries (b : Build) : List SgEntry → BuildState → Option (Except Int BuildState)
  | [], s => some (.ok s)
  | e :: es, s =>
    match buildEntry b e.addr e.len s with
    | some (.ok s) => buildEntries b es s
    | r => r

/-- The loop that sets the adjacent counts. -/
def setAdjacent (descIndex descNum : Nat) (desc : Nat → Desc) : Nat → Desc :=
  forSlots descIndex descNum
    (fun i d => descAdjacent d (getNextAdj (descNum - i - 1) d.nextLo)) desc

/-- `xdma_xfer_submit_lines_nowait` under `engine->lock`, with the descriptors counted. -/
def buildLines (blenMax : Nat) (sgt : List SgEntry) (dmaMapped : Bool) (epAddr lineSize descCount : Nat)
    (eng : Engine) : Option (Except Int (Engine × Transfer)) :=
  if !eng.idle then some (.error (-EBUSY))
  else
    let descIdx := if eng.descIdx + descCount > eng.descMax then 0 else eng.descIdx
    let descBus := u64 (eng.descBus + descSize * descIdx)
    let b : Build := ⟨blenMax, lineSize, epAddr, descIdx, descCount⟩
    let s : BuildState := ⟨transferDescInit descBus descIdx descCount eng.desc, 0, lineSize, 0, 0⟩
    match buildEntries b sgt s with
    | none => none
    | some (.error rv) => some (.error rv)
    | some (.ok s) =>
      some (.ok (
        { eng with
          desc := setAdjacent descIdx descCount s.desc
          descIdx := (descIdx + descCount) % eng.descMax
          descUsed := eng.descUsed + descCount
          descIdx_lt := Nat.mod_lt _ (Nat.zero_lt_of_lt eng.descIdx_lt) },
        { descIndex := descIdx
          descBus := descBus
          resBus := u64 (eng.cyclicResultBus + 32 * descIdx)
          descAdjacent := descCount
          descNum := descCount
          descCmplTh := descCount
          lastInRequest := true
          needUnmap := !dmaMapped
          len := s.len }))

/-! ## Segments -/

/-- A piece of the cut, and where its bytes are. -/
structure Segment extends Cut.Piece where
  addr : Nat

/-- The piece of an entry that begins in memory at `addr`, in the stream at `pos`. -/
def Segment.of (addr pos : Nat) (p : Cut.Piece) : Segment := ⟨p, u64 (addr + (p.start - pos))⟩

/-- The pieces of the scatter list, cut at `lineSize` and `blenMax`. -/
def segments (lineSize blenMax : Nat) : Nat → List SgEntry → List Segment
  | _, [] => []
  | pos, e :: es =>
    (Cut.chunk lineSize blenMax pos e.len).map (.of e.addr pos) ++
      segments lineSize blenMax (pos + e.len) es

@[simp] theorem Segment.of_toPiece (addr pos : Nat) (p : Cut.Piece) :
    (Segment.of addr pos p).toPiece = p := rfl

theorem Segment.of_start {addr : Nat} (h : addr < 2 ^ 64) (pos len : Nat) :
    Segment.of addr pos ⟨pos, len⟩ = ⟨⟨pos, len⟩, addr⟩ := by
  unfold Segment.of
  rw [Nat.sub_self, Nat.add_zero, u64_of_lt h]

/-- The address of a later piece counts from the first byte as from the first piece. -/
theorem Segment.of_shift (addr pos len : Nat) {p : Cut.Piece} (h : pos + len ≤ p.start) :
    Segment.of (u64 (addr + len)) (pos + len) p = Segment.of addr pos p := by
  unfold Segment.of
  congr 1
  unfold u64
  omega

theorem segments_pieces (lineSize blenMax : Nat) (es : List SgEntry) (pos : Nat) :
    (segments lineSize blenMax pos es).map Segment.toPiece =
      Cut.stream lineSize blenMax pos (es.map SgEntry.len) := by
  induction es generalizing pos with
  | nil => rfl
  | cons e es ih =>
    rw [segments, List.map_append, List.map_map, ih, List.map_cons, Cut.stream]
    exact congrArg (· ++ _) (List.map_id _)

/-! ## The counting pass -/

section

variable {blenMax lineSize lineCount : Nat}

/-- The state at a position of the stream. -/
def CountState.at (lineSize pos count : Nat) : CountState :=
  ⟨lineSize - pos % lineSize, pos / lineSize, count⟩

/-- Both passes keep `line_remaining` and `lines_done` in step with the position. -/
theorem advance {pos len : Nat} (hl : 0 < lineSize)
    (h : pos % lineSize + len ≤ lineSize) :
    (if lineSize - pos % lineSize - len = 0 then lineSize else lineSize - pos % lineSize - len) =
        lineSize - (pos + len) % lineSize ∧
      (if lineSize - pos % lineSize - len = 0 then pos / lineSize + 1 else pos / lineSize) =
        (pos + len) / lineSize := by
  rcases Nat.lt_or_eq_of_le h with hlt | heq
  · obtain ⟨hmod, hdiv⟩ := Cut.add_within hlt
    have hne : ¬ lineSize - pos % lineSize - len = 0 := by omega
    rw [if_neg hne, if_neg hne, hmod, hdiv]
    omega
  · obtain ⟨hmod, hdiv⟩ := Cut.add_reaches hl heq
    have hz : lineSize - pos % lineSize - len = 0 := by omega
    rw [if_pos hz, if_pos hz, hmod, hdiv]
    omega

/-- One turn of the loop. -/
theorem countEntry_turn (hl : 0 < lineSize) {n : Nat} (hn : n ≠ 0) (pos k : Nat) :
    countEntry blenMax lineSize lineCount n (.at lineSize pos k) =
      if pos / lineSize ≥ lineCount ∨ Cut.pieceLen lineSize blenMax pos n = 0 then .error (-EINVAL)
      else countEntry blenMax lineSize lineCount (n - Cut.pieceLen lineSize blenMax pos n)
        (.at lineSize (pos + Cut.pieceLen lineSize blenMax pos n) (k + 1)) := by
  obtain ⟨hrem, hdone⟩ := advance hl (Cut.pieceLen_line hl blenMax pos n)
  rw [countEntry, if_neg hn]
  show (if pos / lineSize ≥ lineCount then _ else
    if _h : Cut.pieceLen lineSize blenMax pos n = 0 then _ else
      countEntry blenMax lineSize lineCount (n - Cut.pieceLen lineSize blenMax pos n)
        ⟨if lineSize - pos % lineSize - Cut.pieceLen lineSize blenMax pos n = 0 then _ else _,
          if lineSize - pos % lineSize - Cut.pieceLen lineSize blenMax pos n = 0 then _ else _, _⟩) = _
  by_cases hfull : pos / lineSize ≥ lineCount
  · rw [if_pos hfull, if_pos (.inl hfull)]
  rw [if_neg hfull]
  by_cases hlen : Cut.pieceLen lineSize blenMax pos n = 0
  · rw [dif_pos hlen, if_pos (.inr hlen)]
  rw [dif_neg hlen, if_neg (not_or.2 ⟨hfull, hlen⟩)]
  congr 1
  exact congrArg₂ (fun r d => CountState.mk r d (k + 1)) hrem hdone

/-- The pieces of an entry are counted when they can be cut and fit the lines. -/
theorem countEntry_eq (hl : 0 < lineSize) (n pos k : Nat) :
    countEntry blenMax lineSize lineCount n (.at lineSize pos k) =
      if n = 0 ∨ (0 < blenMax ∧ pos + n ≤ lineSize * lineCount) then
        .ok (.at lineSize (pos + n) (k + (Cut.chunk lineSize blenMax pos n).length))
      else .error (-EINVAL) := by
  induction n using Nat.strongRecOn generalizing pos k with
  | ind n ih =>
    by_cases hn : n = 0
    · rw [if_pos (.inl hn), hn, Cut.chunk_zero, countEntry, if_pos rfl]
      rfl
    rw [countEntry_turn hl hn]
    have hbytes : pos / lineSize ≥ lineCount ↔ lineSize * lineCount ≤ pos := by
      rw [ge_iff_le, Nat.le_div_iff_mul_le hl, Nat.mul_comm]
    have hzero := @Cut.pieceLen_eq_zero_iff lineSize blenMax pos n hl
    by_cases hstop : pos / lineSize ≥ lineCount ∨ Cut.pieceLen lineSize blenMax pos n = 0
    · rw [if_pos hstop, if_neg]
      rw [hbytes, hzero] at hstop
      omega
    rw [if_neg hstop]
    rw [not_or, hbytes] at hstop
    obtain ⟨hfull, hlen⟩ := hstop
    have hle := @Cut.pieceLen_le lineSize blenMax pos n
    have hfit : pos + Cut.pieceLen lineSize blenMax pos n ≤ lineSize * lineCount :=
      Cut.add_le_mul (Cut.pieceLen_line hl _ _ _) (by omega)
    rw [ih _ (by omega), Cut.chunk_of_ne_zero hlen, List.length_cons]
    have hnext : pos + Cut.pieceLen lineSize blenMax pos n +
        (n - Cut.pieceLen lineSize blenMax pos n) = pos + n := by
      omega
    have hcond : (n - Cut.pieceLen lineSize blenMax pos n = 0 ∨
        (0 < blenMax ∧ pos + n ≤ lineSize * lineCount)) ↔
        (n = 0 ∨ (0 < blenMax ∧ pos + n ≤ lineSize * lineCount)) := by
      omega
    simp only [hnext, hcond, Nat.add_assoc, Nat.add_comm 1]

/-- The bytes of the scatter list. -/
def total (es : List SgEntry) : Nat := (es.map SgEntry.len).sum

theorem total_cons (e : SgEntry) (es : List SgEntry) : total (e :: es) = e.len + total es :=
  List.sum_cons

theorem countEntries_eq (hl : 0 < lineSize) (es : List SgEntry) (pos k : Nat) :
    countEntries blenMax lineSize lineCount es (.at lineSize pos k) =
      if total es = 0 ∨ (0 < blenMax ∧ pos + total es ≤ lineSize * lineCount) then
        .ok (.at lineSize (pos + total es) (k + (segments lineSize blenMax pos es).length))
      else .error (-EINVAL) := by
  induction es generalizing pos k with
  | nil => rw [if_pos (.inl rfl)]; rfl
  | cons e es ih =>
    show (countEntry blenMax lineSize lineCount e.len (.at lineSize pos k) >>= fun s =>
      countEntries blenMax lineSize lineCount es s) = _
    rw [countEntry_eq hl, total_cons]
    by_cases he : e.len = 0 ∨ (0 < blenMax ∧ pos + e.len ≤ lineSize * lineCount)
    · rw [if_pos he]
      show countEntries blenMax lineSize lineCount es _ = _
      rw [ih, segments, List.length_append, List.length_map]
      have hcond : (total es = 0 ∨ (0 < blenMax ∧ pos + (e.len + total es) ≤ lineSize * lineCount)) ↔
          (e.len + total es = 0 ∨ (0 < blenMax ∧ pos + (e.len + total es) ≤ lineSize * lineCount)) := by
        omega
      simp only [Nat.add_assoc, hcond]
    · rw [if_neg he, if_neg (by omega)]
      rfl

/-- The count succeeds on the right number of bytes, and then gives the number of
segments. -/
theorem countLineDescriptors_eq (hl : 0 < lineSize) (hc : 0 < lineCount) (blenMax : Nat)
    (sgt : List SgEntry) :
    countLineDescriptors blenMax sgt lineSize lineCount =
      if 0 < blenMax ∧ total sgt = lineSize * lineCount then
        .ok (segments lineSize blenMax 0 sgt).length
      else .error (-EINVAL) := by
  have hstart : (⟨lineSize, 0, 0⟩ : CountState) = .at lineSize 0 0 := by
    unfold CountState.at
    rw [Nat.zero_mod, Nat.zero_div, Nat.sub_zero]
  have hpos : 0 < lineSize * lineCount := Nat.mul_pos hl hc
  unfold countLineDescriptors
  rw [if_neg (by omega), hstart]
  show (countEntries blenMax lineSize lineCount sgt (.at lineSize 0 0) >>= fun s => _) = _
  rw [countEntries_eq hl]
  by_cases hfit : total sgt = 0 ∨ (0 < blenMax ∧ 0 + total sgt ≤ lineSize * lineCount)
  · rw [if_pos hfit]
    have hdm := Nat.div_add_mod (total sgt) lineSize
    have hmod := Nat.mod_lt (total sgt) hl
    show (if (0 + total sgt) / lineSize ≠ lineCount ∨
      lineSize - (0 + total sgt) % lineSize ≠ lineSize then throw (-EINVAL) else _) = _
    rw [Nat.zero_add]
    by_cases hall : total sgt = lineSize * lineCount
    · have hdiv : total sgt / lineSize = lineCount := by
        rw [hall, Nat.mul_div_cancel_left _ hl]
      have hrest : total sgt % lineSize = 0 := by
        rw [hall, Nat.mul_mod_right]
      rw [if_neg (by omega), if_pos (by omega)]
      show Except.ok (0 + _) = _
      rw [Nat.zero_add]
    · have hne : total sgt / lineSize ≠ lineCount ∨
          lineSize - total sgt % lineSize ≠ lineSize := by
        by_contra h
        rw [not_or, not_not, not_not] at h
        rw [h.1] at hdm
        omega
      rw [if_pos hne, if_neg (by omega)]
      rfl
  · rw [if_neg hfit, if_neg (by omega)]
    rfl

end

/-! ## The building pass -/

/-- The control field of a descriptor that ends a line or the transfer. -/
def controlField (endsLine isLast : Prop) [Decidable endsLine] [Decidable isLast] : Nat :=
  if isLast then (if endsLine then descEop else 0) ||| (descStopped ||| descCompleted)
  else if endsLine then descEop else 0

/-- What is written for segment number `j`. -/
def descOf (b : Build) (j : Nat) (seg : Segment) (d : Desc) : Desc :=
  { descSet d seg.addr b.epAddr seg.len with
    control := (d.control &&& 0xffffffffffffff00) |||
      controlField (seg.stop % b.lineSize = 0) (j + 1 = b.descCount) }

/-- The state after a segment. -/
def BuildState.fill (b : Build) (s : BuildState) (seg : Segment) : BuildState where
  desc := set s.desc (b.descIndex + s.descUsed)
    (descOf b s.descUsed seg (s.desc (b.descIndex + s.descUsed)))
  len := u32 (s.len + seg.len : Nat)
  lineRemaining := b.lineSize - seg.stop % b.lineSize
  linesDone := seg.stop / b.lineSize
  descUsed := s.descUsed + 1

/-- The state is in step with the position. -/
structure BuildState.At (b : Build) (pos : Nat) (s : BuildState) : Prop where
  lineRemaining : s.lineRemaining = b.lineSize - pos % b.lineSize
  linesDone : s.linesDone = pos / b.lineSize

theorem BuildState.at_fill (b : Build) (s : BuildState) (seg : Segment) :
    (s.fill b seg).At b seg.stop := ⟨rfl, rfl⟩

theorem controlField_lt (endsLine isLast : Prop) [Decidable endsLine] [Decidable isLast] :
    controlField endsLine isLast &&& 0xffffffffffffff00 = 0 := by
  unfold controlField
  split <;> split <;> rfl

theorem fillDesc_eq {b : Build} {s : BuildState} {addr pos len : Nat} (hl : 0 < b.lineSize)
    (hlen : 0 < len) (hline : pos % b.lineSize + len ≤ b.lineSize) (hs : s.At b pos) :
    fillDesc b addr len s = .ok (s.fill b ⟨⟨pos, len⟩, addr⟩) := by
  obtain ⟨hrem, hdone⟩ := advance hl hline
  have hend : b.lineSize - pos % b.lineSize - len = 0 ↔ (pos + len) % b.lineSize = 0 := by
    rw [Cut.mod_stop_eq_zero_iff hlen hline]
    omega
  have hset : ∀ d : Desc, descControlSet d
      (controlField ((pos + len) % b.lineSize = 0) (s.descUsed + 1 = b.descCount)) = .ok
        { d with control := (d.control &&& 0xffffffffffffff00) |||
          controlField ((pos + len) % b.lineSize = 0) (s.descUsed + 1 = b.descCount) } := by
    intro d
    unfold descControlSet
    rw [if_neg (not_not.2 (controlField_lt _ _))]
  unfold fillDesc
  simp only [hs.lineRemaining, hs.linesDone, hend] at hrem hdone ⊢
  rw [hrem, hdone]
  show (descControlSet _ (controlField ((pos + len) % b.lineSize = 0) (s.descUsed + 1 = b.descCount))
    >>= fun desc => _) = _
  rw [hset]
  rfl

theorem foldl_at {b : Build} {segs : List Segment} {s : BuildState} {pos pos' : Nat}
    (ht : Cut.Tiles pos (segs.map Segment.toPiece) pos') (hs : s.At b pos) :
    (segs.foldl (BuildState.fill b) s).At b pos' := by
  induction segs generalizing s pos with
  | nil =>
    obtain rfl : pos = pos' := ht
    exact hs
  | cons seg segs ih => exact ih ht.2 (BuildState.at_fill b s seg)

/-- An entry is written piece by piece. -/
theorem buildEntry_eq {b : Build} (hl : 0 < b.lineSize) (hm : 0 < b.blenMax) (n : Nat) {addr pos : Nat}
    {s : BuildState} (haddr : addr < 2 ^ 64) (hs : s.At b pos) :
    buildEntry b addr n s = some (.ok
      (((Cut.chunk b.lineSize b.blenMax pos n).map (.of addr pos)).foldl (BuildState.fill b) s)) := by
  induction n using Nat.strongRecOn generalizing addr pos s with
  | ind n ih =>
    rw [buildEntry]
    by_cases hn : n = 0
    · rw [if_pos hn, hn, Cut.chunk_zero]
      rfl
    have hlen : Cut.pieceLen b.lineSize b.blenMax pos n ≠ 0 := by
      rw [Ne, Cut.pieceLen_eq_zero_iff hl]
      omega
    have hle := @Cut.pieceLen_le b.lineSize b.blenMax pos n
    have hline := Cut.pieceLen_line hl b.blenMax pos n
    rw [if_neg hn, Cut.chunk_of_ne_zero hlen, List.map_cons, List.foldl_cons, Segment.of_start haddr]
    simp only [hs.lineRemaining]
    show (if _h : Cut.pieceLen b.lineSize b.blenMax pos n = 0 then none else
      match fillDesc b addr (Cut.pieceLen b.lineSize b.blenMax pos n) s with
      | .error rv => some (.error rv)
      | .ok s => buildEntry b (u64 (addr + Cut.pieceLen b.lineSize b.blenMax pos n))
        (n - Cut.pieceLen b.lineSize b.blenMax pos n) s) = _
    rw [dif_neg hlen, fillDesc_eq hl (Nat.pos_of_ne_zero hlen) hline hs]
    have hrest : ∀ p ∈ Cut.chunk b.lineSize b.blenMax (pos + Cut.pieceLen b.lineSize b.blenMax pos n)
        (n - Cut.pieceLen b.lineSize b.blenMax pos n),
        Segment.of (u64 (addr + Cut.pieceLen b.lineSize b.blenMax pos n))
          (pos + Cut.pieceLen b.lineSize b.blenMax pos n) p = .of addr pos p :=
      fun p hp => Segment.of_shift _ _ _ (Cut.chunk_piece hl hp).2.2.2.1
    rw [← List.map_congr_left hrest]
    apply ih _ (by omega) (u64_lt _)
    exact BuildState.at_fill b s ⟨⟨pos, _⟩, addr⟩

theorem buildEntries_eq {b : Build} (hl : 0 < b.lineSize) (hm : 0 < b.blenMax) (es : List SgEntry)
    (pos : Nat) {s : BuildState} (hs : s.At b pos) :
    buildEntries b es s =
      some (.ok ((segments b.lineSize b.blenMax pos es).foldl (BuildState.fill b) s)) := by
  induction es generalizing pos s with
  | nil => rfl
  | cons e es ih =>
    have htiles := Cut.chunk_tiles hl hm pos e.len
    rw [buildEntries, buildEntry_eq hl hm e.len e.addr_lt hs]
    show buildEntries b es _ = _
    rw [segments, List.foldl_append]
    apply ih
    apply foldl_at _ hs
    rwa [List.map_map, show Segment.toPiece ∘ Segment.of e.addr pos = id from rfl, List.map_id]

/-! ### What the fold leaves in the ring -/

section

variable {b : Build}

theorem foldl_len {segs : List Segment} {s : BuildState}
    (h : s.len + (segs.map (·.len)).sum < 2 ^ 32) :
    (segs.foldl (BuildState.fill b) s).len = s.len + (segs.map (·.len)).sum := by
  induction segs generalizing s with
  | nil => rfl
  | cons seg segs ih =>
    rw [List.map_cons, List.sum_cons] at h ⊢
    have hlen : (s.fill b seg).len = s.len + seg.len := by
      show u32 (s.len + seg.len : Nat) = _
      rw [u32_natCast]
      omega
    rw [List.foldl_cons, ih (by omega), hlen, Nat.add_assoc]

theorem foldl_desc_out {segs : List Segment} {s : BuildState} {i : Nat}
    (h : i < b.descIndex + s.descUsed ∨ b.descIndex + s.descUsed + segs.length ≤ i) :
    (segs.foldl (BuildState.fill b) s).desc i = s.desc i := by
  induction segs generalizing s with
  | nil => rfl
  | cons seg segs ih =>
    rw [List.length_cons] at h
    have hused : (s.fill b seg).descUsed = s.descUsed + 1 := rfl
    rw [List.foldl_cons, ih (by omega)]
    exact set_of_ne (by omega)

theorem foldl_desc_in {segs : List Segment} {s : BuildState} {j : Nat} (hj : j < segs.length) :
    (segs.foldl (BuildState.fill b) s).desc (b.descIndex + s.descUsed + j) =
      descOf b (s.descUsed + j) segs[j] (s.desc (b.descIndex + s.descUsed + j)) := by
  induction segs generalizing s j with
  | nil => cases hj
  | cons seg segs ih =>
    have hused : (s.fill b seg).descUsed = s.descUsed + 1 := rfl
    rw [List.foldl_cons]
    cases j with
    | zero =>
      rw [foldl_desc_out (by omega)]
      exact set_same _ _ _
    | succ j =>
      have hrec := ih (s := s.fill b seg) (j := j) (by simpa using hj)
      have hkeep : (s.fill b seg).desc (b.descIndex + s.descUsed + (j + 1)) =
          s.desc (b.descIndex + s.descUsed + (j + 1)) := set_of_ne (by omega)
      rw [hused, show b.descIndex + (s.descUsed + 1) + j = b.descIndex + s.descUsed + (j + 1) by omega,
        show s.descUsed + 1 + j = s.descUsed + (j + 1) by omega, hkeep] at hrec
      exact hrec

end

/-! ### A written descriptor -/

section

variable (b : Build) (j : Nat) (seg : Segment) (d : Desc)

theorem descOf_src : (descOf b j seg d).src = u64 seg.addr := descSet_src d seg.addr b.epAddr seg.len

theorem descOf_dst : (descOf b j seg d).dst = u64 b.epAddr := descSet_dst d seg.addr b.epAddr seg.len

theorem descOf_testBit {i : Nat} (h : i < 8) : (descOf b j seg d).control.testBit i =
    (controlField (seg.stop % b.lineSize = 0) (j + 1 = b.descCount)).testBit i := by
  have hmask : ∀ i < 8, (0xffffffffffffff00 : Nat).testBit i = false := by decide
  show ((d.control &&& 0xffffffffffffff00) ||| _).testBit i = _
  rw [Nat.testBit_or, Nat.testBit_and, hmask i h, Bool.and_false, Bool.false_or]

theorem controlField_eop (p q : Prop) [Decidable p] [Decidable q] :
    (controlField p q).testBit 4 = decide p := by
  by_cases hp : p <;> by_cases hq : q <;> simp only [controlField, hp, hq, if_true, if_false] <;> rfl

theorem controlField_last (p q : Prop) [Decidable p] [Decidable q] {i : Nat} (hi : i < 2) :
    (controlField p q).testBit i = decide q := by
  have hall : ∀ i < 2, (0 : Nat).testBit i = false ∧ descEop.testBit i = false ∧
      (descStopped ||| descCompleted).testBit i = true := by
    decide
  obtain ⟨h0, h1, h2⟩ := hall i hi
  by_cases hp : p <;> by_cases hq : q <;>
    simp only [controlField, hp, hq, if_true, if_false, Nat.testBit_or, h0, h1, h2] <;> rfl

end

end FpgaDrm.Xdma
