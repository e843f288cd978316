import SimpleDisplay.Lib.Delimited
import SimpleDisplay.Pipeline.VideoPath
import SimpleDisplay.Xdma.Fetch

/-!
# From the frame buffer to the screen

What the card reads of an accepted frame it sends as packets, one for each line; in 32-bit
words these are what enters the pixel path, which the driver has set up.  So the pixels that
leave it are those of the buffer, line by line, without their top bytes.  The VDMA is not
modelled: it is to give every packet back as it got it.
-/

namespace FpgaDrm

open AxiStream (stream Beat)
open Hls (WidePixel)
open Delimited Xdma

/-- The little-endian words of some bytes. -/
def leWords : List UInt8 → List (BitVec 32)
  | a :: b :: c :: d :: bytes => (d.toBitVec ++ (c.toBitVec ++ (b.toBitVec ++ a.toBitVec))) :: leWords bytes
  | _ => []

/-- The blue, green and red bytes of pixel `i` of a buffer. -/
def bufferPixel (buffer : List UInt8) (i : Nat) : BitVec 24 :=
  (buffer.getD (4 * i + 2) 0).toBitVec ++
    ((buffer.getD (4 * i + 1) 0).toBitVec ++ (buffer.getD (4 * i) 0).toBitVec)

/-- The bytes that a descriptor sends, and its end mark. -/
def sends (mem : Nat → UInt8) (d : Desc) : List UInt8 × Bool := (d.hostBytes.map mem, d.flag descEop)

/-- The packets that some descriptors send. -/
def sentPackets (mem : Nat → UInt8) (descs : List Desc) : List (List UInt8) :=
  packets [] (descs.map (sends mem))

theorem leWords_pixels (n : Nat) : ∀ bytes : List UInt8, bytes.length = 4 * n →
    (leWords bytes).map (fun w => w.setWidth 24) = (List.range n).map (bufferPixel bytes) := by
  induction n with
  | zero =>
    intro bytes hlen
    rw [List.length_eq_zero_iff.1 hlen]
    rfl
  | succ n ih =>
    intro bytes hlen
    match bytes, hlen with
    | a :: b :: c :: d :: bytes, hlen =>
      have hrest : bytes.length = 4 * n := by
        simp only [List.length_cons] at hlen
        omega
      have hlow : BitVec.setWidth 24 (d.toBitVec ++ (c.toBitVec ++ (b.toBitVec ++ a.toBitVec))) =
          c.toBitVec ++ (b.toBitVec ++ a.toBitVec) := by
        rw [BitVec.setWidth_append]
        simp
      rw [leWords, List.map_cons, hlow, ih bytes hrest, List.range_succ_eq_map, List.map_cons,
        List.map_map]
      rfl

/-! ## The packets -/

theorem offset_succ {descs : List Desc} {j : Nat} (hj : j < descs.length) :
    offset descs (j + 1) = offset descs j + descs[j].bytes := by
  unfold offset
  rw [List.take_add_one, List.getElem?_eq_getElem hj, List.map_append, List.sum_append]
  simp

theorem hostBytes_length (descs : List Desc) :
    (descs.flatMap Desc.hostBytes).length = (descs.map Desc.bytes).sum := by
  rw [List.length_flatMap]
  congr 1
  apply List.map_congr_left
  intro d _
  simp [Desc.hostBytes]

section

variable {sgt : List SgEntry} {lineSize lineCount blenMax epAddr : Nat} {descs : List Desc}
  (h : Packetized sgt lineSize lineCount blenMax epAddr descs)
  (htotal : total sgt = lineSize * lineCount)
include h htotal

/-- The end marks of the descriptors from `j` on are those of the lines. -/
theorem marked_drop (mem : Nat → UInt8) (n : Nat) : ∀ j, j + n = descs.length →
    Marked lineSize (offset descs j % lineSize) ((descs.drop j).map (sends mem)) := by
  induction n with
  | zero =>
    intro j hj
    have hall : offset descs j = lineSize * lineCount := by
      unfold offset
      rw [List.take_of_length_le (by omega), ← hostBytes_length, h.hostBytes, sgtBytes_length, htotal]
    rw [List.drop_eq_nil_of_le (by omega), hall]
    exact Nat.mul_mod_right _ _
  | succ n ih =>
    intro j hj
    have hlt : j < descs.length := by omega
    have hrest := ih (j + 1) (by omega)
    obtain ⟨hpos, -, -⟩ := h.bytes descs[j] (List.getElem_mem hlt)
    have hline := h.line j hlt
    have hmark := h.eop j hlt
    have hlen : (descs[j].hostBytes.map mem).length = descs[j].bytes := by simp [Desc.hostBytes]
    have hmod : (offset descs j + descs[j].bytes) % lineSize =
        (offset descs j % lineSize + descs[j].bytes) % lineSize := (Nat.mod_add_mod ..).symm
    have hend : descs[j].flag descEop = true ↔
        offset descs j % lineSize + descs[j].bytes = lineSize := by
      rw [hmark, hmod]
      constructor
      · intro hzero
        by_contra hne
        rw [Nat.mod_eq_of_lt (by omega)] at hzero
        omega
      · intro heq
        rw [heq, Nat.mod_self]
    rw [List.drop_eq_getElem_cons hlt, List.map_cons]
    refine ⟨by rw [hlen]; exact hline, by rw [hlen]; exact hend, ?_⟩
    rw [offset_succ hlt, hmod] at hrest
    by_cases heop : descs[j].flag descEop = true
    · rw [hend.1 heop, Nat.mod_self] at hrest
      rw [if_pos heop]
      exact hrest
    · have hne : offset descs j % lineSize + descs[j].bytes ≠ lineSize := fun heq => heop (hend.2 heq)
      rw [Nat.mod_eq_of_lt (by omega)] at hrest
      rw [if_neg heop, hlen]
      exact hrest

/-- The packets are the lines of the buffer. -/
theorem sentPackets_eq (hl : 0 < lineSize) (mem : Nat → UInt8) :
    sentPackets mem descs = lines lineSize lineCount ((sgt.flatMap SgEntry.hostBytes).map mem) := by
  have hcontent : content (descs.map (sends mem)) = (sgt.flatMap SgEntry.hostBytes).map mem := by
    rw [← h.hostBytes, List.map_flatMap]
    unfold content
    rw [List.flatMap_map]
    rfl
  have hmarked := marked_drop h htotal mem descs.length 0 (by omega)
  have hzero : offset descs 0 % lineSize = 0 := Nat.zero_mod _
  rw [hzero, List.drop_zero] at hmarked
  have hlength : ([] ++ content (descs.map (sends mem))).length = lineCount * lineSize := by
    rw [List.nil_append, hcontent, List.length_map, sgtBytes_length, htotal, Nat.mul_comm]
  have hlines := @packets_eq_lines _ lineSize hl _ [] lineCount hmarked hlength
  rw [List.nil_append, hcontent] at hlines
  exact hlines

end

/-- A pixel of a line is a pixel of the buffer. -/
theorem bufferPixel_line (buffer : List UInt8) (width y : Nat) {x : Nat} (hx : x < width) :
    bufferPixel ((buffer.drop (y * (4 * width))).take (4 * width)) x =
      bufferPixel buffer (y * width + x) := by
  have hbyte : ∀ i < 4 * width, ((buffer.drop (y * (4 * width))).take (4 * width)).getD i 0 =
      buffer.getD (y * (4 * width) + i) 0 := by
    intro i hi
    rw [List.getD_eq_getElem?_getD, List.getElem?_take_of_lt hi, List.getElem?_drop,
      ← List.getD_eq_getElem?_getD]
  have hpos : 4 * (y * width + x) = y * (4 * width) + 4 * x := by
    rw [Nat.mul_add, Nat.mul_left_comm]
  unfold bufferPixel
  rw [hbyte _ (by omega), hbyte _ (by omega), hbyte _ (by omega), hpos]
  rfl

/-! ## Top theorem -/

/-- What enters the pixel path: the packets in 32-bit words, packet `y` with the mark `user y`. -/
def pathInput (user : Nat → Bool) (packets : List (List UInt8)) : List (Bool × List (BitVec 32)) :=
  packets.zipIdx.map fun p => (user p.2, leWords p.1)

theorem pathInput_lines (user : Nat → Bool) (len n : Nat) (buffer : List UInt8) :
    pathInput user (lines len n buffer) = (List.range n).map fun y =>
      (user y, leWords ((buffer.drop (y * len)).take len)) := by
  unfold pathInput lines
  apply List.ext_getElem
  · simp
  · intro y h1 h2
    simp

/-- **A frame on the screen.**  The driver has set up the path, and then set modes; a frame of
lines of `width` pixels is accepted.  What the card reads of it, sent as packets through the
path, comes out as the lines of the buffer's pixels. -/
theorem frame_shown {kernel : Kernel} {a : Submission} {s t : Xdma.Sys} {dev : Device}
    (h : submitLines dev kernel a s = some (-EIOCBQUEUED, t))
    (h32 : a.lineSize * a.lineCount < 2 ^ 32) (halign : (s.engines a.key).descBus % 4096 = 0)
    (hfit : (s.engines a.key).descBus + descSize * (s.engines a.key).descMax ≤ 2 ^ 64)
    {width : Nat} (hwidth : a.lineSize = 4 * width)
    {σ : Type} {io : Mmio σ} {regs : σ → Nat → Nat} (hio : PathMmio io regs) {fpga : MmioBar}
    {u v : σ} (hstatic : configureStaticPipeline io fpga true u = (.ok (), v)) (ddr : DdrBypass)
    (sets : List (Bool × VideoMode)) (uninit : List WidePixel → BitVec 96) (user : Nat → Bool)
    (mem : Nat → UInt8) :
    let e := t.engines a.key
    let file := regs (sets.foldl (fun s m => (io.programMode ddr true m.1 m.2 s).2) v)
    let buffer := (t.sgt.entries.flatMap SgEntry.hostBytes).map mem
    ∃ n bursts, Chain.fetch descLinks descSize (ringMem e.descBus e.desc) n
        (e.regs.firstDescLo + 4294967296 * e.regs.firstDescHi, e.regs.firstDescAdjacent + 1) =
          some bursts ∧
      let sent := sentPackets mem (bursts.flatMap (Chain.burst descSize (ringMem e.descBus e.desc)))
      videoPath uninit file a.lineCount (stream (pathInput user sent)) =
        some (stream ((List.range a.lineCount).map fun y =>
          (user y, (List.range width).map fun x => bufferPixel buffer (y * width + x)))) := by
  intro e file buffer
  obtain ⟨hl, htotal, descs, hpackets, ⟨bursts, hfetch, hdescs, -⟩⟩ := submitLines_reads h h32 halign hfit
  refine ⟨descs.length, bursts, hfetch, ?_⟩
  dsimp only
  rw [hdescs, sentPackets_eq hpackets htotal hl mem]
  have hlength : buffer.length = a.lineCount * (4 * width) := by
    rw [List.length_map, sgtBytes_length, htotal, hwidth, Nat.mul_comm]
  rw [hwidth, pathInput_lines]
  set input := (List.range a.lineCount).map fun y =>
    (user y, leWords ((buffer.drop (y * (4 * width))).take (4 * width))) with hinput
  have hline : ∀ y < a.lineCount, ((buffer.drop (y * (4 * width))).take (4 * width)).length = 4 * width := by
    intro y hy
    have hrow : (y + 1) * (4 * width) ≤ a.lineCount * (4 * width) := Nat.mul_le_mul_right _ hy
    rw [Nat.succ_mul] at hrow
    rw [List.length_take, List.length_drop]
    omega
  have hpixels : ∀ y < a.lineCount,
      (leWords ((buffer.drop (y * (4 * width))).take (4 * width))).map (fun w => w.setWidth 24) =
        (List.range width).map fun x => bufferPixel buffer (y * width + x) := by
    intro y hy
    rw [leWords_pixels width _ (hline y hy)]
    apply List.map_congr_left
    intro x hx
    exact bufferPixel_line buffer width y (List.mem_range.1 hx)
  have hnonempty : ∀ l ∈ input, l.2 ≠ [] := by
    intro l hl'
    obtain ⟨y, hy, rfl⟩ := List.mem_map.1 hl'
    intro hnil
    have heq := hpixels y (List.mem_range.1 hy)
    rw [show leWords ((buffer.drop (y * (4 * width))).take (4 * width)) = [] from hnil] at heq
    have hzero := congrArg List.length heq
    simp at hzero
    omega
  have hpath := videoPath_low uninit (path_known hio hstatic ddr sets) input hnonempty
  rw [hinput, List.length_map, List.length_range, ← hinput] at hpath
  rw [hpath, hinput, List.map_map]
  congr 2
  apply List.map_congr_left
  intro y hy
  exact Prod.ext rfl (hpixels y (List.mem_range.1 hy))

/-- Some bytes to show. -/
def countingBytes : Nat → UInt8 := UInt8.ofNat

theorem frame_shown_one : ∃ t v,
    submitLines knownDevice lineMapping oneLine restingSys = some (-EIOCBQUEUED, t) ∧
    configureStaticPipeline plainMmio ⟨true, "bypass", 0x04000000⟩ true idleFile = (.ok (), v) ∧
    let e := t.engines (true, 0)
    let buffer := (t.sgt.entries.flatMap SgEntry.hostBytes).map countingBytes
    ∃ n bursts, Chain.fetch descLinks descSize (ringMem e.descBus e.desc) n
        (e.regs.firstDescLo + 4294967296 * e.regs.firstDescHi, e.regs.firstDescAdjacent + 1) =
          some bursts ∧
      videoPath (fun _ => 0) v 1 (stream (pathInput (fun _ => true)
        (sentPackets countingBytes (bursts.flatMap (Chain.burst descSize (ringMem e.descBus e.desc)))))) =
        some (stream [(true, [bufferPixel buffer 0, bufferPixel buffer 1])]) := by
  obtain ⟨t, ht⟩ := oneLine_accepted
  obtain ⟨v, hv⟩ := plainMmio_configured
  have hwidth : oneLine.lineSize = 4 * 2 := rfl
  exact ⟨t, v, ht, hv, frame_shown ht (by decide) (by decide) (by decide) hwidth plainMmio_path hv
    ⟨⟨true, 0x04000000, 0x04000000, 2, "bypass"⟩, true, true⟩ [] (fun _ => 0) (fun _ => true)
    countingBytes⟩

end FpgaDrm
