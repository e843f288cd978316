import SimpleDisplay.Xdma.Lines

/-!
# What a built transfer sends

`Packetized` says what a list of descriptors has to be for the stream that the FPGA
receives to be the bytes of the scatter list, with TLAST on the last beat of each line.
`buildLines_eq` gives the descriptors that are built, one for each segment of the cut;
the top theorem puts the two passes together.
-/

namespace FpgaDrm.Xdma

open Word Slots

/-- The bytes before descriptor `j`. -/
def offset (descs : List Desc) (j : Nat) : Nat := ((descs.take j).map Desc.bytes).sum

structure Packetized (sgt : List SgEntry) (lineSize lineCount blenMax epAddr : Nat)
    (descs : List Desc) : Prop where
  /-- The bytes of the scatter list, in order. -/
  hostBytes : descs.flatMap Desc.hostBytes = sgt.flatMap SgEntry.hostBytes
  bytes : ∀ d ∈ descs, 0 < d.bytes ∧ d.bytes ≤ blenMax ∧ d.dst = u64 epAddr
  /-- No descriptor crosses a line boundary or an entry boundary. -/
  line : ∀ j (h : j < descs.length), offset descs j % lineSize + descs[j].bytes ≤ lineSize
  entry : ∀ j (h : j < descs.length), ∃ k < sgt.length,
    total (sgt.take k) ≤ offset descs j ∧ offset descs j + descs[j].bytes ≤ total (sgt.take (k + 1))
  eop : ∀ j (h : j < descs.length),
    descs[j].flag descEop = true ↔ (offset descs j + descs[j].bytes) % lineSize = 0
  eopCount : descs.countP (·.flag descEop) = lineCount
  stopped : ∀ j (h : j < descs.length), descs[j].flag descStopped = true ↔ j + 1 = descs.length
  completed : ∀ j (h : j < descs.length), descs[j].flag descCompleted = true ↔ j + 1 = descs.length

/-! ## Bytes -/

def Segment.hostBytes (seg : Segment) : List Nat := (List.range seg.len).map fun i => u64 (seg.addr + i)

theorem SgEntry.hostBytes_slice (e : SgEntry) {off len : Nat} (h : off + len ≤ e.len) :
    (e.hostBytes.drop off).take len = (List.range len).map fun i => u64 (u64 (e.addr + off) + i) := by
  apply List.ext_getElem
  · simp [hostBytes]
    omega
  · intro i h1 h2
    simp only [hostBytes, List.getElem_take, List.getElem_drop, List.getElem_map, List.getElem_range]
    unfold u64
    omega

/-- The segments are the scatter list, byte by byte. -/
theorem segments_hostBytes {lineSize blenMax : Nat} (hl : 0 < lineSize) (hm : 0 < blenMax)
    (es : List SgEntry) (pos : Nat) :
    (segments lineSize blenMax pos es).flatMap Segment.hostBytes = es.flatMap SgEntry.hostBytes := by
  induction es generalizing pos with
  | nil => rfl
  | cons e es ih =>
    have hchunk := (Cut.chunk_tiles hl hm pos e.len).flatMap_slice (Nat.le_refl pos)
      e.hostBytes
    rw [Nat.sub_self, List.drop_zero, Nat.add_sub_cancel_left, List.take_of_length_le] at hchunk
    · rw [segments, List.flatMap_append, ih, List.flatMap_cons, List.flatMap_map, ← hchunk]
      congr 1
      apply List.flatMap_congr
      intro p hp
      obtain ⟨-, -, -, hstart, hstop⟩ := Cut.chunk_piece hl hp
      unfold Cut.Piece.stop at hstop
      rw [SgEntry.hostBytes_slice e (by omega)]
      rfl
    · simp [SgEntry.hostBytes]

/-! ## From segments to descriptors -/

/-- Each descriptor is its segment's. -/
structure Built (b : Build) (segs : List Segment) (descs : List Desc) : Prop where
  length : descs.length = segs.length
  bytes : ∀ j (h : j < descs.length) (h' : j < segs.length), descs[j].bytes = segs[j].len
  src : ∀ j (h : j < descs.length) (h' : j < segs.length), descs[j].src = u64 segs[j].addr
  dst : ∀ j (h : j < descs.length), descs[j].dst = u64 b.epAddr
  control : ∀ j (h : j < descs.length) (h' : j < segs.length), ∀ i < 8,
    descs[j].control.testBit i =
      (controlField (segs[j].stop % b.lineSize = 0) (j + 1 = b.descCount)).testBit i

namespace Built

variable {b : Build} {segs : List Segment} {descs : List Desc}

theorem map_bytes (h : Built b segs descs) : descs.map Desc.bytes = segs.map (·.len) := by
  apply List.ext_getElem
  · simp [h.length]
  · intro j h1 h2
    simp only [List.getElem_map]
    exact h.bytes j (by simpa using h1) (by simpa using h2)

theorem hostBytes (h : Built b segs descs) :
    descs.flatMap Desc.hostBytes = segs.flatMap Segment.hostBytes := by
  rw [List.flatMap_def, List.flatMap_def]
  congr 1
  apply List.ext_getElem
  · simp [h.length]
  · intro j h1 h2
    have hj : j < descs.length := by simpa using h1
    have hj' : j < segs.length := by simpa using h2
    simp only [List.getElem_map, Desc.hostBytes, Segment.hostBytes, h.bytes j hj hj', h.src j hj hj']
    apply List.map_congr_left
    intro i _
    unfold u64
    omega

theorem offset_eq (h : Built b segs descs) {c : Nat}
    (ht : Cut.Tiles 0 (segs.map Segment.toPiece) c) (j : Nat) (hj : j < segs.length) :
    offset descs j = segs[j].start := by
  have hstart := ht.start_eq j (by simpa using hj)
  rw [List.getElem_map, Nat.zero_add, ← List.map_take, List.map_map] at hstart
  unfold offset
  rw [List.map_take, h.map_bytes, ← List.map_take, hstart]
  rfl

theorem flag_eop (h : Built b segs descs) (j : Nat) (hj : j < descs.length) (hj' : j < segs.length) :
    descs[j].flag descEop = decide (segs[j].stop % b.lineSize = 0) := by
  rw [show descEop = 2 ^ 4 from rfl, flag_two_pow, h.control j hj hj' 4 (by decide), controlField_eop]

theorem flag_last (h : Built b segs descs) (j : Nat) (hj : j < descs.length) {i : Nat} (hi : i < 2) :
    descs[j].flag (2 ^ i) = decide (j + 1 = b.descCount) := by
  rw [flag_two_pow, h.control j hj (h.length ▸ hj) i (by omega), controlField_last _ _ hi]

theorem countP_eop (h : Built b segs descs) : descs.countP (·.flag descEop) =
    (segs.map Segment.toPiece).countP (fun p => p.stop % b.lineSize = 0) := by
  have hmap : descs.map (·.flag descEop) =
      (segs.map Segment.toPiece).map fun p => decide (p.stop % b.lineSize = 0) := by
    apply List.ext_getElem
    · simp [h.length]
    · intro j h1 h2
      simp only [List.getElem_map]
      exact h.flag_eop j (by simpa using h1) (by simpa using h2)
  have hcount := congrArg (List.countP id) hmap
  rwa [List.countP_map, List.countP_map] at hcount

/-- What holds of the cut holds of the descriptors. -/
theorem packetized {sgt : List SgEntry} {lineCount : Nat}
    (h : Built b (segments b.lineSize b.blenMax 0 sgt) descs) (hl : 0 < b.lineSize)
    (hm : 0 < b.blenMax) (hn : b.descCount = descs.length)
    (htotal : total sgt = b.lineSize * lineCount) :
    Packetized sgt b.lineSize lineCount b.blenMax b.epAddr descs := by
  have hpieces := segments_pieces b.lineSize b.blenMax sgt 0
  have htiles := Cut.stream_tiles hl hm 0 (sgt.map SgEntry.len)
  have hpiece : ∀ j (hj : j < (segments b.lineSize b.blenMax 0 sgt).length),
      (segments b.lineSize b.blenMax 0 sgt)[j].toPiece ∈
        Cut.stream b.lineSize b.blenMax 0 (sgt.map SgEntry.len) := by
    intro j hj
    rw [← hpieces]
    exact List.mem_map_of_mem (List.getElem_mem hj)
  have hoffset := h.offset_eq (hpieces ▸ htiles)
  have hlen : ∀ j, j < descs.length → j < (segments b.lineSize b.blenMax 0 sgt).length :=
    fun j hj => h.length ▸ hj
  refine ⟨?_, ?_, ?_, ?_, ?_, ?_, ?_, ?_⟩
  · rw [h.hostBytes, segments_hostBytes hl hm]
  · intro d hd
    obtain ⟨j, hj, rfl⟩ := List.getElem_of_mem hd
    obtain ⟨hpos, hle, -⟩ := Cut.stream_piece hl (hpiece j (hlen j hj))
    rw [h.bytes j hj (hlen j hj)]
    exact ⟨hpos, hle, h.dst j hj⟩
  · intro j hj
    obtain ⟨-, -, hline⟩ := Cut.stream_piece hl (hpiece j (hlen j hj))
    rw [h.bytes j hj (hlen j hj), hoffset j (hlen j hj)]
    exact hline
  · intro j hj
    obtain ⟨k, hk, hstart, hstop⟩ := Cut.stream_chunk hl (hpiece j (hlen j hj))
    rw [h.bytes j hj (hlen j hj), hoffset j (hlen j hj)]
    rw [Nat.zero_add, ← List.map_take] at hstart hstop
    exact ⟨k, by simpa using hk, hstart, hstop⟩
  · intro j hj
    rw [h.flag_eop j hj (hlen j hj), h.bytes j hj (hlen j hj), hoffset j (hlen j hj), decide_eq_true_iff]
    rfl
  · have hmarks := htiles.countP_marks fun p hp => by
      obtain ⟨hpos, -, hline⟩ := Cut.stream_piece hl hp
      exact ⟨hpos, hline⟩
    rw [h.countP_eop, hpieces]
    have hsum : 0 + (sgt.map SgEntry.len).sum = b.lineSize * lineCount := by
      rw [Nat.zero_add]
      exact htotal
    rw [hsum, Nat.zero_div, Nat.zero_add, Nat.mul_div_cancel_left _ hl] at hmarks
    exact hmarks
  · intro j hj
    rw [show descStopped = 2 ^ 0 from rfl, h.flag_last j hj (by decide), decide_eq_true_iff, hn]
  · intro j hj
    rw [show descCompleted = 2 ^ 1 from rfl, h.flag_last j hj (by decide), decide_eq_true_iff, hn]

end Built

/-! ## The ring -/

/-- The descriptors of a transfer. -/
def Transfer.descs (x : Transfer) (desc : Nat → Desc) : List Desc :=
  (List.range x.descNum).map fun j => desc (x.descIndex + j)

theorem transferDescInit_out {bus base n i : Nat} (desc : Nat → Desc) (hn : 0 < n)
    (h : i < base ∨ base + n ≤ i) : transferDescInit bus base n desc i = desc i := by
  unfold transferDescInit
  rw [set_of_ne (by omega), forSlots_out _ _ (by omega)]

/-- The slot of a segment once the adjacent counts are set. -/
theorem ring_slot {b : Build} {segs : List Segment} {s : BuildState} (hused : s.descUsed = 0) {j : Nat}
    (hj : j < segs.length) : ∃ d adj,
      setAdjacent b.descIndex segs.length (segs.foldl (BuildState.fill b) s).desc (b.descIndex + j) =
        descAdjacent (descOf b j segs[j] d) adj := by
  have hin := foldl_desc_in (b := b) (s := s) hj
  rw [hused, Nat.add_zero, Nat.zero_add] at hin
  unfold setAdjacent
  rw [forSlots_in _ _ hj, hin]
  exact ⟨_, _, rfl⟩

theorem built_of_ring {b : Build} {segs : List Segment} {x : Transfer} {ring : Nat → Desc}
    (hring : ∀ j (hj : j < segs.length), ∃ d adj,
      ring (b.descIndex + j) = descAdjacent (descOf b j segs[j] d) adj)
    (hnum : x.descNum = segs.length) (hidx : x.descIndex = b.descIndex) :
    Built b segs (x.descs ring) := by
  have hlen : (x.descs ring).length = segs.length := by
    unfold Transfer.descs
    rw [List.length_map, List.length_range, hnum]
  have hget : ∀ j (h : j < (x.descs ring).length), (x.descs ring)[j] = ring (b.descIndex + j) := by
    intro j h
    simp only [Transfer.descs, List.getElem_map, List.getElem_range, hidx]
  refine ⟨hlen, fun j h h' => ?_, fun j h h' => ?_, fun j h => ?_, fun j h h' i hi => ?_⟩
  · obtain ⟨d, adj, hd⟩ := hring j h'
    rw [hget j h, hd]
    rfl
  · obtain ⟨d, adj, hd⟩ := hring j h'
    rw [hget j h, hd]
    exact descOf_src b j segs[j] d
  · obtain ⟨d, adj, hd⟩ := hring j (hlen ▸ h)
    rw [hget j h, hd]
    exact descOf_dst b j segs[j] d
  · obtain ⟨d, adj, hd⟩ := hring j h'
    rw [hget j h, hd, testBit_descAdjacent _ _ hi, descOf_testBit b j segs[j] d hi]

/-- An idle engine builds the segments of the scatter list, from the slot where they
fit. -/
theorem buildLines_eq {blenMax lineSize n : Nat} (hl : 0 < lineSize) (hm : 0 < blenMax)
    (sgt : List SgEntry) (h32 : total sgt < 2 ^ 32) (dmaMapped : Bool) (epAddr : Nat) {eng : Engine}
    (hseg : (segments lineSize blenMax 0 sgt).length = n) (hn : 0 < n) (hidle : eng.idle = true) :
    ∃ eng' x, buildLines blenMax sgt dmaMapped epAddr lineSize n eng = some (.ok (eng', x)) ∧
      x.descNum = n ∧
      x.descIndex = (if eng.descIdx + n > eng.descMax then 0 else eng.descIdx) ∧
      eng'.descIdx = (x.descIndex + n) % eng.descMax ∧
      x.len = total sgt ∧
      (∀ i, i < x.descIndex ∨ x.descIndex + n ≤ i → eng'.desc i = eng.desc i) ∧
      Built ⟨blenMax, lineSize, epAddr, x.descIndex, n⟩ (segments lineSize blenMax 0 sgt)
        (x.descs eng'.desc) := by
  have hrun : ∀ (b : Build) (desc : Nat → Desc), b.blenMax = blenMax → b.lineSize = lineSize →
      buildEntries b sgt ⟨desc, 0, lineSize, 0, 0⟩ = some (.ok
        ((segments lineSize blenMax 0 sgt).foldl (BuildState.fill b) ⟨desc, 0, lineSize, 0, 0⟩)) := by
    rintro b desc rfl rfl
    refine buildEntries_eq hl hm sgt 0 ⟨?_, ?_⟩
    · show b.lineSize = b.lineSize - 0 % b.lineSize
      rw [Nat.zero_mod, Nat.sub_zero]
    · exact (Nat.zero_div _).symm
  have hsum : ((segments lineSize blenMax 0 sgt).map (·.len)).sum = total sgt := by
    have hpieces := segments_pieces lineSize blenMax sgt 0
    have htiles := (Cut.stream_tiles hl hm 0 (sgt.map SgEntry.len)).sum_len
    rw [← hpieces, List.map_map, Nat.zero_add, Nat.zero_add] at htiles
    exact htiles
  unfold buildLines
  rw [if_neg (by simp [hidle])]
  simp only [hrun]
  refine ⟨_, _, rfl, rfl, rfl, rfl, ?_, ?_, ?_⟩
  · show (List.foldl _ _ _ : BuildState).len = _
    rw [foldl_len]
    · show 0 + _ = _
      rw [hsum, Nat.zero_add]
    · show 0 + _ < _
      rw [hsum, Nat.zero_add]
      exact h32
  · intro i hi
    show setAdjacent _ _ (List.foldl _ _ _ : BuildState).desc i = _
    unfold setAdjacent
    rw [forSlots_out _ _ hi, foldl_desc_out (by rw [hseg]; exact hi)]
    exact transferDescInit_out eng.desc hn hi
  · refine built_of_ring (fun j hj => ?_) hseg.symm rfl
    obtain ⟨d, adj, hd⟩ := ring_slot (b := ⟨blenMax, lineSize, epAddr, _, n⟩) (s := ⟨_, 0, lineSize, 0, 0⟩)
      rfl hj
    rw [hseg] at hd
    exact ⟨d, adj, hd⟩

/-! ## Top theorem -/

theorem segments_length_pos {blenMax lineSize : Nat} (hl : 0 < lineSize) (hm : 0 < blenMax)
    {sgt : List SgEntry} (h : 0 < total sgt) : 0 < (segments lineSize blenMax 0 sgt).length := by
  apply Nat.pos_of_ne_zero
  intro hzero
  have hpieces := segments_pieces lineSize blenMax sgt 0
  have htiles := (Cut.stream_tiles hl hm 0 (sgt.map SgEntry.len)).sum_len
  rw [← hpieces, List.length_eq_zero_iff.1 hzero, Nat.zero_add, Nat.zero_add] at htiles
  have hnone : 0 = total sgt := htiles
  omega

/-- No piece is empty, so that the 32-bit counters hold. -/
theorem segments_length_le {blenMax lineSize : Nat} (hl : 0 < lineSize) (hm : 0 < blenMax)
    (sgt : List SgEntry) : (segments lineSize blenMax 0 sgt).length ≤ total sgt := by
  have hpieces := segments_pieces lineSize blenMax sgt 0
  have htiles := (Cut.stream_tiles hl hm 0 (sgt.map SgEntry.len)).sum_len
  rw [Nat.zero_add, Nat.zero_add] at htiles
  have hle := List.length_le_sum_of_one_le
    ((Cut.stream lineSize blenMax 0 (sgt.map SgEntry.len)).map Cut.Piece.len) fun n hn => by
      obtain ⟨p, hp, rfl⟩ := List.mem_map.1 hn
      exact (Cut.stream_piece hl hp).1
  rw [htiles, ← hpieces, List.length_map, List.length_map] at hle
  exact hle

/-- **The two passes agree, and what is built is the frame, line by line.** -/
theorem lines_packetized {blenMax lineSize lineCount : Nat} (hl : 0 < lineSize) (hc : 0 < lineCount)
    (h32 : lineSize * lineCount < 2 ^ 32) (sgt : List SgEntry) :
    ((∃ n, countLineDescriptors blenMax sgt lineSize lineCount = .ok n) ↔
      0 < blenMax ∧ total sgt = lineSize * lineCount) ∧
    ∀ n, countLineDescriptors blenMax sgt lineSize lineCount = .ok n →
      0 < n ∧ n ≤ lineSize * lineCount ∧
      ∀ (eng : Engine) (dmaMapped : Bool) (epAddr : Nat), n ≤ eng.descMax → eng.idle = true →
        ∃ eng' x, buildLines blenMax sgt dmaMapped epAddr lineSize n eng = some (.ok (eng', x)) ∧
          x.descNum = n ∧
          x.descIndex = (if eng.descIdx + n > eng.descMax then 0 else eng.descIdx) ∧
          x.descIndex + n ≤ eng.descMax ∧
          eng'.descIdx = (x.descIndex + n) % eng.descMax ∧
          x.len = lineSize * lineCount ∧
          (∀ i, i < x.descIndex ∨ x.descIndex + n ≤ i → eng'.desc i = eng.desc i) ∧
          Packetized sgt lineSize lineCount blenMax epAddr (x.descs eng'.desc) := by
  have hcount := countLineDescriptors_eq hl hc blenMax sgt
  refine ⟨⟨?_, fun h => ?_⟩, ?_⟩
  · rintro ⟨n, hn⟩
    rw [hcount] at hn
    split at hn
    · next h => exact h
    · cases hn
  · rw [hcount, if_pos h]
    exact ⟨_, rfl⟩
  · intro n hn
    rw [hcount] at hn
    split at hn
    · next h =>
      obtain ⟨hm, htotal⟩ := h
      have hseg : (segments lineSize blenMax 0 sgt).length = n := Except.ok.inj hn
      have hpos : 0 < n := by
        rw [← hseg]
        apply segments_length_pos hl hm
        rw [htotal]
        exact Nat.mul_pos hl hc
      have hle : n ≤ lineSize * lineCount := by
        rw [← hseg, ← htotal]
        exact segments_length_le hl hm sgt
      refine ⟨hpos, hle, fun eng dmaMapped epAddr hmax hidle => ?_⟩
      obtain ⟨eng', x, hrun, hnum, hidx, hnext, hlen, hframe, hbuilt⟩ :=
        buildLines_eq hl hm sgt (htotal ▸ h32) dmaMapped epAddr hseg hpos hidle
      refine ⟨eng', x, hrun, hnum, hidx, ?_, hnext, hlen.trans htotal, hframe, ?_⟩
      · rw [hidx]
        split <;> omega
      · exact hbuilt.packetized hl hm (by rw [hbuilt.length, hseg]) htotal
    · cases hn

/-- Two lines of four bytes, the second line split and an empty entry between. -/
def splitLines : List SgEntry :=
  [⟨0x10000, 5, by decide, by decide⟩, ⟨0x20000, 0, by decide, by decide⟩,
    ⟨0x30000, 3, by decide, by decide⟩]

/-- An idle engine near the end of its ring. -/
def idleEngine : Engine where
  desc := fun _ => default
  descBus := 0x80000000
  cyclicResultBus := 0
  descMax := 0x800
  descIdx := 0x7fe
  descUsed := 0
  running := false
  transferList := []
  descIdx_lt := by decide
  descMax_le := by decide

theorem lines_packetized_split :
    ∃ n eng' x, countLineDescriptors 4096 splitLines 4 2 = .ok n ∧
      buildLines 4096 splitLines false 0 4 n idleEngine = some (.ok (eng', x)) ∧
      x.len = 8 ∧ Packetized splitLines 4 2 4096 0 (x.descs eng'.desc) := by
  obtain ⟨hcount, hbuild⟩ := @lines_packetized 4096 4 2
    (by decide) (by decide) (by decide) splitLines
  obtain ⟨n, hn⟩ := hcount.2 (by decide)
  obtain ⟨-, hle, hbuild⟩ := hbuild n hn
  obtain ⟨eng', x, hrun, -, -, -, -, hlen, -, hp⟩ :=
    hbuild idleEngine false 0 (Nat.le_trans hle (by decide)) (by decide)
  exact ⟨n, eng', x, hn, hrun, hlen, hp⟩

end FpgaDrm.Xdma
