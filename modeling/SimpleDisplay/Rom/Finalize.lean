import SimpleDisplay.Rom.OptionRom

/-!
# The finalized ROM and its checker

The finalizer writes five bytes into an image it has already accepted: two length fields
and the last byte.  `PatchesHarmless` says when none of them spoils a byte that the checker
compares.  With a driver that ends in the last byte of the aperture it is false, unless that
byte is the checksum already.
-/

namespace OptionRom

open Slice HexText

/-- Byte `i` as a number. -/
def byteValue (b : List UInt8) (i : Nat) : Nat := (b.getD i 0).toNat

/-- What the last byte of a full image must be, once both lengths are 64. -/
def wantedChecksum (raw : List UInt8) : Int :=
  (byteValue raw 2 + byteValue raw 3 + byteValue raw (pcirOffset raw + 0x10) +
    byteValue raw (pcirOffset raw + 0x11) + byteValue raw 32767 - byteSum raw - 2 * 64) % 256

/-- No byte of the driver, and not the last-image flag, is spoiled by a patch. -/
structure PatchesHarmless (raw driver : List UInt8) : Prop where
  headerLength : efiImage raw ≠ 2
  pcirLow : efiImage raw ≤ pcirOffset raw + 0x10 →
    pcirOffset raw + 0x10 < efiImage raw + driver.length → raw[pcirOffset raw + 0x10]? = some 64
  pcirHigh : efiImage raw ≤ pcirOffset raw + 0x11 →
    pcirOffset raw + 0x11 < efiImage raw + driver.length → raw[pcirOffset raw + 0x11]? = some 0
  last : efiImage raw + driver.length = 32768 → (byteValue raw 32767 : Int) = wantedChecksum raw
  indicator : pcirOffset raw + 0x15 = 32767 → 128 ≤ wantedChecksum raw

/-! ## The memory file -/

theorem flatten_words (image : List UInt8) (n : Nat) :
    ((List.range n).map fun k => slice image (k * 4) (k * 4 + 4)).flatten = image.take (n * 4) := by
  induction n with
  | zero => simp
  | succ n ih =>
      rw [List.range_succ, List.map_append, List.flatten_append, ih, Nat.succ_mul]
      have htake := List.take_append_drop (n * 4) (image.take (n * 4 + 4))
      rw [List.take_take, Nat.min_eq_left (by omega)] at htake
      simpa [slice] using htake

theorem memBytes_lines (words : List (List UInt8)) :
    (words.map fun w => hex w.reverse).foldr
      (fun line bytes => (fromHex line).bind fun word => bytes.map (word.reverse ++ ·)) (some []) =
      some words.flatten := by
  induction words with
  | nil => rfl
  | cons w words ih =>
      rw [List.map_cons, List.foldr_cons, ih, fromHex_hex]
      simp

/-- The memory file has a line of eight digits for each word and holds the image. -/
theorem memText_reads {image : List UInt8} {n : Nat} (hlen : image.length = n * 4) (hn : 0 < n) :
    (splitLines (memText image)).length = n ∧
    (∀ line ∈ splitLines (memText image), line.length = 8) ∧
    memBytes (memText image) = some image := by
  have hwords : (List.range' 0 ((image.length + 3) / 4) 4).map (fun offset =>
      hex (slice image offset (offset + 4)).reverse) =
      ((List.range n).map fun k => slice image (k * 4) (k * 4 + 4)).map fun w => hex w.reverse := by
    rw [show (image.length + 3) / 4 = n by omega, List.map_map]
    apply List.ext_getElem
    · simp
    · intro k _ _
      simp [Nat.mul_comm]
  have hlines : splitLines (memText image) =
      ((List.range n).map fun k => slice image (k * 4) (k * 4 + 4)).map fun w => hex w.reverse := by
    unfold memText
    rw [hwords]
    apply splitLines_joinLines
    · simp
      omega
    · intro line hline
      obtain ⟨w, -, rfl⟩ := List.mem_map.1 hline
      exact newline_not_mem_hex _
  refine ⟨?_, ?_, ?_⟩
  · rw [hlines]
    simp
  · intro line hline
    rw [hlines] at hline
    obtain ⟨w, hw, rfl⟩ := List.mem_map.1 hline
    obtain ⟨k, hk, rfl⟩ := List.mem_map.1 hw
    have hlt := List.mem_range.1 hk
    rw [length_hex, List.length_reverse]
    unfold slice
    rw [List.length_drop, List.length_take]
    omega
  · unfold memBytes
    rw [hlines, memBytes_lines, flatten_words, List.take_of_length_le (by omega)]

/-! ## Bytes -/

theorem fromBytes_inj {xs ys : List UInt8} (hlen : xs.length = ys.length)
    (h : fromBytes xs = fromBytes ys) : xs = ys := by
  induction xs generalizing ys with
  | nil => exact (List.length_eq_zero_iff.1 hlen.symm).symm
  | cons x xs ih =>
      cases ys with
      | nil => cases hlen
      | cons y ys =>
          have hx := x.toNat_lt
          have hy := y.toNat_lt
          have hsum : x.toNat + 256 * fromBytes xs = y.toNat + 256 * fromBytes ys := h
          have hhead : x.toNat = y.toNat := by omega
          rw [UInt8.toNat_inj.1 hhead, ih (Nat.succ.inj hlen) (by omega)]

theorem byteSum_set (image : List UInt8) {i : Nat} (hi : i < image.length) (a : UInt8) :
    byteSum (image.set i a) + byteValue image i = byteSum image + a.toNat := by
  unfold byteSum byteValue
  induction image generalizing i with
  | nil => simp at hi
  | cons x image ih =>
      cases i with
      | zero =>
          simp
          omega
      | succ i =>
          have hrest := ih (Nat.lt_of_succ_lt_succ hi)
          simp only [List.set_cons_succ, List.map_cons, List.sum_cons, List.getD_cons_succ]
          omega

theorem byteSum_pair {image : List UInt8} {i : Nat} (hi : i + 2 ≤ image.length) :
    byteSum (slice image i (i + 2)) = byteValue image i + byteValue image (i + 1) := by
  have hpair : slice image i (i + 2) = [image.getD i 0, image.getD (i + 1) 0] := by
    apply List.ext_getElem?
    intro k
    rw [getElem?_slice]
    match k with
    | 0 => simp [List.getElem?_eq_getElem (show i < image.length by omega)]
    | 1 => simp [List.getElem?_eq_getElem (show i + 1 < image.length by omega)]
    | k + 2 => simp
  rw [hpair]
  unfold byteSum byteValue
  simp

theorem byteValue_congr {image image' : List UInt8} {i : Nat} (h : image[i]? = image'[i]?) :
    byteValue image i = byteValue image' i := by
  unfold byteValue
  rw [List.getD_eq_getElem?_getD, List.getD_eq_getElem?_getD, h]

/-- The top bit. -/
theorem and_0x80_ne_zero (b : UInt8) : b &&& 0x80 ≠ 0 ↔ 128 ≤ b.toNat := by
  have hbyte : ∀ n < 256, n &&& 128 ≠ 0 ↔ 128 ≤ n := by decide +kernel
  rw [← hbyte b.toNat b.toNat_lt, Ne, ← UInt8.toNat_inj, UInt8.toNat_and]
  rfl

/-! ## The patched image -/

section

variable {raw : List UInt8} (hsize : raw.length ≤ romSize)
include hsize

theorem length_padded : (raw ++ List.replicate (romSize - raw.length) (0xFF : UInt8)).length =
    32768 := by
  unfold romSize at hsize ⊢
  rw [List.length_append, List.length_replicate]
  omega

variable (hpcir : pcirOffset raw + 0x15 < raw.length)
include hpcir

theorem length_withLengths : (withLengths raw).length = 32768 := by
  have hlen := length_padded hsize
  unfold romSize at hsize
  unfold withLengths putU16
  have hfirst : (splice (raw ++ List.replicate (romSize - raw.length) 0xFF) 2
      (toBytes romBlocks)).length = 32768 := by
    rw [length_splice (by rw [hlen]; decide), hlen]
  rw [length_splice (by rw [hfirst]; show _ + 2 ≤ _; omega), hfirst]

theorem withLengths_getElem? (k : Nat) : (withLengths raw)[k]? =
    if pcirOffset raw + 0x10 ≤ k ∧ k < pcirOffset raw + 0x12 then
      [(64 : UInt8), 0][k - (pcirOffset raw + 0x10)]?
    else if 2 ≤ k ∧ k < 4 then [(64 : UInt8), 0][k - 2]?
    else (raw ++ List.replicate (romSize - raw.length) 0xFF)[k]? := by
  have hlen := length_padded hsize
  unfold romSize at hsize
  have hblocks : toBytes romBlocks = [64, 0] := by decide
  unfold withLengths putU16
  rw [hblocks]
  have hfirst : (splice (raw ++ List.replicate (romSize - raw.length) 0xFF) 2
      [64, 0]).length = 32768 := by
    rw [length_splice (by rw [hlen]; decide), hlen]
  rw [getElem?_splice (by rw [hfirst]; show _ + 2 ≤ _; omega),
    getElem?_splice (by rw [hlen]; decide)]
  rfl

theorem length_finalImage : (finalImage raw).length = 32768 := by
  unfold finalImage setLast
  dsimp only
  rw [List.length_set, List.length_set, length_withLengths hsize hpcir]

/-- The last byte is the checksum. -/
theorem finalImage_getElem? (k : Nat) : (finalImage raw)[k]? =
    if k = 32767 then some (checksum (setLast (withLengths raw) 0)) else (withLengths raw)[k]? := by
  have hlen := length_withLengths hsize hpcir
  unfold finalImage setLast
  dsimp only
  rw [List.length_set, hlen, List.set_set, List.getElem?_set, hlen]
  by_cases hk : k = 32767
  · rw [if_pos (by omega), if_pos (by omega), if_pos hk]
  · rw [if_neg (by omega), if_neg hk]

/-- The other bytes of the EfiRom output stay. -/
theorem finalImage_raw {k : Nat} (hk : k < raw.length) (hheader : k < 2 ∨ 4 ≤ k)
    (hlength : k < pcirOffset raw + 0x10 ∨ pcirOffset raw + 0x12 ≤ k) (hlast : k ≠ 32767) :
    (finalImage raw)[k]? = raw[k]? := by
  rw [finalImage_getElem? hsize hpcir, if_neg hlast, withLengths_getElem? hsize hpcir,
    if_neg (by omega), if_neg (by omega), List.getElem?_append_left hk]

theorem finalImage_sum : byteSum (finalImage raw) % 256 = 0 := by
  have hlen := length_withLengths hsize hpcir
  have hzero : (setLast (withLengths raw) 0).length = 32768 := by
    unfold setLast
    rw [List.length_set, hlen]
  have hset := byteSum_set (setLast (withLengths raw) 0) (i := 32767) (by omega)
    (checksum (setLast (withLengths raw) 0))
  have hlast : byteValue (setLast (withLengths raw) 0) 32767 = 0 := by
    unfold byteValue setLast
    rw [List.getD_eq_getElem?_getD, hlen, List.getElem?_set_self (by omega)]
    rfl
  have hfinal : finalImage raw =
      (setLast (withLengths raw) 0).set 32767 (checksum (setLast (withLengths raw) 0)) := by
    show (setLast (withLengths raw) 0).set (_ - 1) _ = _
    rw [hzero]
  have hsum : (checksum (setLast (withLengths raw) 0)).toNat =
      ((-(byteSum (setLast (withLengths raw) 0) : Int)) % 256).toNat := by
    unfold checksum
    rw [UInt8.toNat_ofNat']
    omega
  rw [hfinal]
  omega

/-- The checksum of an output that fills the aperture. -/
theorem checksum_full (hfull : raw.length = 32768) (hafter : 4 ≤ pcirOffset raw + 0x10) :
    ((checksum (setLast (withLengths raw) 0)).toNat : Int) = wantedChecksum raw := by
  have hlen := length_withLengths hsize hpcir
  have hpadded : raw ++ List.replicate (romSize - raw.length) 0xFF = raw := by
    rw [hfull]
    exact List.append_nil raw
  have hlengths : withLengths raw =
      splice (splice raw 2 [64, 0]) (pcirOffset raw + 0x10) [64, 0] := by
    unfold withLengths putU16
    rw [hpadded, show toBytes romBlocks = [64, 0] by decide]
  have hfirstLen : (splice raw 2 [64, 0]).length = 32768 := by
    rw [length_splice (by rw [hfull]; decide), hfull]
  have hkept : ∀ k, 4 ≤ k → (splice raw 2 [64, 0])[k]? = raw[k]? := by
    intro k hk
    rw [getElem?_splice (by rw [hfull]; decide), if_neg]
    show ¬ (2 ≤ k ∧ k < 2 + 2)
    omega
  have hfirst : byteSum (splice raw 2 [64, 0]) + byteSum (slice raw 2 4) = byteSum raw + 64 :=
    sum_splice raw 2 [64, 0] UInt8.toNat
  have hsecond : byteSum (withLengths raw) + byteSum (slice (splice raw 2 [64, 0])
      (pcirOffset raw + 0x10) (pcirOffset raw + 0x10 + 2)) =
      byteSum (splice raw 2 [64, 0]) + 64 := by
    rw [hlengths]
    exact sum_splice _ _ [64, 0] UInt8.toNat
  have hlast : byteValue (withLengths raw) 32767 = byteValue raw 32767 := by
    apply byteValue_congr
    rw [withLengths_getElem? hsize hpcir, if_neg (by omega), if_neg (by omega), hpadded]
  have hset := byteSum_set (withLengths raw) (i := 32767) (by omega) 0
  have hzero : setLast (withLengths raw) 0 = (withLengths raw).set 32767 0 := by
    unfold setLast
    rw [hlen]
  have h0 : (0 : UInt8).toNat = 0 := rfl
  have hheader : byteSum (slice raw 2 4) = byteValue raw 2 + byteValue raw 3 :=
    byteSum_pair (by omega)
  have hlength : byteSum (slice (splice raw 2 [64, 0]) (pcirOffset raw + 0x10)
      (pcirOffset raw + 0x10 + 2)) =
      byteValue raw (pcirOffset raw + 0x10) + byteValue raw (pcirOffset raw + 0x11) := by
    rw [byteSum_pair (by omega), byteValue_congr (hkept _ hafter),
      byteValue_congr (hkept (pcirOffset raw + 0x10 + 1) (by omega))]
  unfold checksum wantedChecksum
  rw [UInt8.toNat_ofNat', hzero]
  omega

end

/-! ## Layout -/

theorem getElem?_of_fromBytes {image bytes : List UInt8} {i : Nat}
    (hlen : i + bytes.length ≤ image.length)
    (h : fromBytes (slice image i (i + bytes.length)) = fromBytes bytes) :
    ∀ k < bytes.length, image[i + k]? = bytes[k]? := by
  apply slice_eq_iff.1
  apply fromBytes_inj _ h
  unfold slice
  rw [List.length_drop, List.length_take]
  omega

/-- The header that the checker asks for, with any length field. -/
def headerBytes : List UInt8 := [0x55, 0xAA, 0, 0, 0xF1, 0x0E, 0, 0, 0x0B, 0, 0x64, 0x86, 0, 0]

theorem header_getElem? {raw : List UInt8} (hheader : Header raw) (hlen : 14 ≤ raw.length) {k : Nat}
    (hk : k < 14) (hlength : k < 2 ∨ 4 ≤ k) : raw[k]? = headerBytes[k]? := by
  -- The header is five fields, each read as one number.
  have hfield : ∀ (i : Nat) (bytes : List UInt8), i + bytes.length ≤ 14 →
      (∀ j < bytes.length, headerBytes[i + j]? = bytes[j]?) →
      fromBytes (slice raw i (i + bytes.length)) = fromBytes bytes →
      i ≤ k → k < i + bytes.length → raw[k]? = headerBytes[k]? := by
    intro i bytes hin hbytes hvalue hlow hhigh
    obtain ⟨j, rfl⟩ := Nat.exists_eq_add_of_le hlow
    rw [getElem?_of_fromBytes (by omega) hvalue j (by omega), hbytes j (by omega)]
  by_cases h0 : k < 2
  · exact hfield 0 [0x55, 0xAA] (by decide) (by decide)
      (congrArg fromBytes hheader.signature) (by omega) h0
  by_cases h4 : k < 8
  · exact hfield 4 [0xF1, 0x0E, 0, 0] (by decide) (by decide) hheader.efiSignature (by omega) h4
  by_cases h8 : k < 10
  · exact hfield 8 [0x0B, 0] (by decide) (by decide) hheader.subsystem (by omega) h8
  by_cases h10 : k < 12
  · exact hfield 10 [0x64, 0x86] (by decide) (by decide) hheader.machine (by omega) h10
  · exact hfield 12 [0, 0] (by decide) (by decide) hheader.compression (by omega) hk

/-- The PCI data structure is not inside the header. -/
theorem pcir_after_header {raw : List UInt8} (hheader : Header raw)
    (hpcir : Pcir raw (pcirOffset raw)) : 14 ≤ pcirOffset raw := by
  have hlen : pcirOffset raw + 0x14 < raw.length := by
    by_contra hle
    have hcode := hpcir.codeType
    rw [List.getElem?_eq_none (by omega)] at hcode
    cases hcode
  have hsig : slice raw (pcirOffset raw) (pcirOffset raw + pcirSignature.length) = pcirSignature :=
    hpcir.signature
  rw [slice_eq_iff] at hsig
  by_contra hlt
  have hclash : ∀ p < 14, ∃ k < 4, p + k < 14 ∧ (p + k < 2 ∨ 4 ≤ p + k) ∧
      headerBytes[p + k]? ≠ pcirSignature[k]? := by decide
  obtain ⟨k, hk, hin, hlength, hne⟩ := hclash _ (Nat.lt_of_not_le hlt)
  apply hne
  rw [← header_getElem? hheader (by omega) hin hlength, hsig k hk]

/-- The driver is not inside the header, except perhaps on the length field. -/
theorem efi_after_length {raw : List UInt8} (hheader : Header raw)
    (hpe : Pe raw (efiImage raw)) (hlen : 14 ≤ raw.length) (hne : efiImage raw ≠ 2) :
    4 ≤ efiImage raw := by
  have hsig : slice raw (efiImage raw) (efiImage raw + dosSignature.length) = dosSignature :=
    hpe.dos
  rw [slice_eq_iff] at hsig
  by_contra hlt
  have hclash : ∀ p < 4, p ≠ 2 → ∃ k < 2, (p + k < 2 ∨ 4 ≤ p + k) ∧
      headerBytes[p + k]? ≠ dosSignature[k]? := by decide
  obtain ⟨k, hk, hlength, hbad⟩ := hclash _ (Nat.lt_of_not_le hlt) hne
  apply hbad
  rw [← header_getElem? hheader hlen (by omega) hlength, hsig k hk]

theorem pcir_inside {image : List UInt8} {pcir : Nat} (h : Pcir image pcir) :
    pcir + 0x15 < image.length := by
  obtain ⟨b, hb, -⟩ := h.indicator
  by_contra hle
  rw [List.getElem?_eq_none (by omega)] at hb
  cases hb

/-- A PE that lies in a driver that survives is still there. -/
theorem Pe.of_driver {raw image driver : List UInt8} {efi : Nat} (hpe : Pe raw efi)
    (hinside : peHeader raw efi + 24 + 0x46 ≤ efi + driver.length)
    (hdriver : slice raw efi (efi + driver.length) = driver)
    (h : slice image efi (efi + driver.length) = driver) : Pe image efi := by
  have hkept := (slice_same_iff hdriver).1 h
  have hslice : ∀ i j, efi ≤ i → j ≤ efi + driver.length → slice image i j = slice raw i j :=
    fun i j hi hj => slice_congr fun k hik hkj => hkept k (by omega) (by omega)
  have hsame : peHeader image efi = peHeader raw efi := by
    unfold peHeader at hinside ⊢
    rw [hslice _ _ (by omega) (by omega)]
  have hle : efi ≤ peHeader raw efi := Nat.le_add_right _ _
  constructor
  · rw [hslice _ _ (by omega) (by unfold peHeader at hinside; omega)]
    exact hpe.dos
  · rw [hsame, hslice _ _ (by omega) (by omega)]
    exact hpe.signature
  · rw [hsame, hslice _ _ (by omega) (by omega)]
    exact hpe.machine
  · rw [hsame, hslice _ _ (by omega) (by omega)]
    exact hpe.magic
  · rw [hsame, hslice _ _ (by omega) (by omega)]
    exact hpe.subsystem

/-! ## What the patches spoil -/

section

variable {raw driver : List UInt8} (hsize : raw.length ≤ romSize)
  (hpcir : Pcir raw (pcirOffset raw))
include hsize hpcir

/-- Slices before the patched length of the PCI data structure. -/
theorem finalImage_slice {i j : Nat} (hlow : j ≤ 2 ∨ 4 ≤ i)
    (hhigh : j ≤ pcirOffset raw + 0x10) : slice (finalImage raw) i j = slice raw i j := by
  have hin := pcir_inside hpcir
  unfold romSize at hsize
  apply slice_congr
  intro k hi hk
  exact finalImage_raw hsize hin (by omega) (by omega) (by omega) (by omega)

variable (hheader : Header raw)
include hheader

theorem finalImage_offsets : pcirOffset (finalImage raw) = pcirOffset raw ∧
    efiImage (finalImage raw) = efiImage raw := by
  have hafter := pcir_after_header hheader hpcir
  exact ⟨congrArg fromBytes (finalImage_slice hsize hpcir (by omega) (by omega)),
    congrArg fromBytes (finalImage_slice hsize hpcir (by omega) (by omega))⟩

theorem finalImage_header : Header (finalImage raw) := by
  have hafter := pcir_after_header hheader hpcir
  have hslice : ∀ i j, j ≤ 14 → j ≤ 2 ∨ 4 ≤ i → slice (finalImage raw) i j = slice raw i j :=
    fun i j hj hlow => finalImage_slice hsize hpcir hlow (by omega)
  constructor
  · rw [hslice 0 2 (by decide) (by decide)]
    exact hheader.signature
  · rw [hslice 4 8 (by decide) (by decide)]
    exact hheader.efiSignature
  · rw [hslice 8 10 (by decide) (by decide)]
    exact hheader.subsystem
  · rw [hslice 10 12 (by decide) (by decide)]
    exact hheader.machine
  · rw [hslice 12 14 (by decide) (by decide)]
    exact hheader.compression

theorem finalImage_lengths_bytes :
    slice (finalImage raw) 2 (2 + [(64 : UInt8), 0].length) = [64, 0] ∧
    slice (finalImage raw) (pcirOffset raw + 0x10)
      (pcirOffset raw + 0x10 + [(64 : UInt8), 0].length) = [64, 0] := by
  have hin := pcir_inside hpcir
  have hafter := pcir_after_header hheader hpcir
  unfold romSize at hsize
  constructor
  · rw [slice_eq_iff]
    intro k hk
    have hk : k < 2 := hk
    rw [finalImage_getElem? hsize hin, if_neg (by omega), withLengths_getElem? hsize hin,
      if_neg (by omega), if_pos (by omega), Nat.add_sub_cancel_left]
  · rw [slice_eq_iff]
    intro k hk
    have hk : k < 2 := hk
    rw [finalImage_getElem? hsize hin, if_neg (by omega), withLengths_getElem? hsize hin,
      if_pos (by omega), Nat.add_sub_cancel_left]

theorem finalImage_lengths : fromBytes (slice (finalImage raw) 2 4) = 64 ∧
    fromBytes (slice (finalImage raw) (pcirOffset raw + 0x10) (pcirOffset raw + 0x12)) = 64 := by
  obtain ⟨hfirst, hsecond⟩ := finalImage_lengths_bytes hsize hpcir hheader
  exact ⟨congrArg fromBytes hfirst, congrArg fromBytes hsecond⟩

theorem finalImage_pcir_iff : Pcir (finalImage raw) (pcirOffset raw) ↔
    (pcirOffset raw + 0x15 = 32767 → 128 ≤ wantedChecksum raw) := by
  have hin := pcir_inside hpcir
  have hafter := pcir_after_header hheader hpcir
  have hsize' := hsize
  unfold romSize at hsize'
  have hslice : ∀ i j, pcirOffset raw ≤ i → j ≤ pcirOffset raw + 0x10 →
      slice (finalImage raw) i j = slice raw i j :=
    fun i j hi hj => finalImage_slice hsize hpcir (by omega) hj
  have hcode : (finalImage raw)[pcirOffset raw + 0x14]? = raw[pcirOffset raw + 0x14]? :=
    finalImage_raw hsize hin (by omega) (by omega) (by omega) (by omega)
  obtain ⟨b, hb, hflag⟩ := hpcir.indicator
  constructor
  · intro h hlast
    obtain ⟨c, hc, htop⟩ := h.indicator
    rw [finalImage_getElem? hsize hin, if_pos hlast] at hc
    cases hc
    have hfull := checksum_full hsize hin (by omega) (by omega)
    rw [and_0x80_ne_zero] at htop
    omega
  · intro h
    refine ⟨?_, ?_, ?_, ?_, ?_, ?_⟩
    · rw [hslice _ _ (by omega) (by omega)]
      exact hpcir.signature
    · rw [hslice _ _ (by omega) (by omega)]
      exact hpcir.vendor
    · rw [hslice _ _ (by omega) (by omega)]
      exact hpcir.device
    · rw [hslice _ _ (by omega) (by omega)]
      exact hpcir.classCode
    · rw [hcode]
      exact hpcir.codeType
    · rw [finalImage_getElem? hsize hin]
      by_cases hlast : pcirOffset raw + 0x15 = 32767
      · rw [if_pos hlast]
        refine ⟨_, rfl, (and_0x80_ne_zero _).2 ?_⟩
        have hfull := checksum_full hsize hin (by omega) (by omega)
        have hwanted := h hlast
        omega
      · rw [if_neg hlast, withLengths_getElem? hsize hin, if_neg (by omega), if_neg (by omega),
          List.getElem?_append_left hin]
        exact ⟨b, hb, hflag⟩

/-- The patched length of the PCI data structure, byte by byte. -/
theorem finalImage_patched : (finalImage raw)[pcirOffset raw + 0x10]? = some 64 ∧
    (finalImage raw)[pcirOffset raw + 0x11]? = some 0 := by
  have hin := pcir_inside hpcir
  have hafter := pcir_after_header hheader hpcir
  have hbytes := slice_eq_iff.1 (finalImage_lengths_bytes hsize hpcir hheader).2
  exact ⟨hbytes 0 (by decide), hbytes 1 (by decide)⟩

/-- The last byte of a full image stays just when it is the checksum already. -/
theorem finalImage_last_iff (hfull : raw.length = 32768) :
    (finalImage raw)[32767]? = raw[32767]? ↔ (byteValue raw 32767 : Int) = wantedChecksum raw := by
  have hin := pcir_inside hpcir
  have hafter := pcir_after_header hheader hpcir
  have hchecksum := checksum_full hsize hin hfull (by omega)
  have hbyte : raw[32767]? = some raw[32767] := List.getElem?_eq_getElem (by omega)
  have hvalue : byteValue raw 32767 = raw[32767].toNat := by
    unfold byteValue
    rw [List.getD_eq_getElem?_getD, hbyte]
    rfl
  rw [finalImage_getElem? hsize hin, if_pos rfl, hbyte, Option.some_inj, ← UInt8.toNat_inj, hvalue]
  omega

variable (hpe : Pe raw (efiImage raw))
include hpe

/-- The length field of the header would replace the `M` of `MZ`. -/
theorem efi_ne_two (hkept : efiImage raw = 2 → (finalImage raw)[2]? = raw[2]?) :
    efiImage raw ≠ 2 := by
  intro htwo
  have hfield := slice_eq_iff.1 (finalImage_lengths_bytes hsize hpcir hheader).1 0 (by decide)
  have hsig : slice raw (efiImage raw) (efiImage raw + dosSignature.length) = dosSignature :=
    hpe.dos
  rw [slice_eq_iff, htwo] at hsig
  have hm := hsig 0 (by decide)
  rw [Nat.add_zero] at hfield hm
  rw [hkept htwo, hm] at hfield
  exact absurd hfield (by decide)

variable (hdriver : slice raw (efiImage raw) (efiImage raw + driver.length) = driver)
  (hdos : 2 ≤ driver.length)
include hdriver hdos

/-- The driver survives just when every patch inside it writes what was there. -/
theorem finalImage_driver_iff :
    slice (finalImage raw) (efiImage raw) (efiImage raw + driver.length) = driver ↔
      efiImage raw ≠ 2 ∧
      (efiImage raw ≤ pcirOffset raw + 0x10 →
        pcirOffset raw + 0x10 < efiImage raw + driver.length →
        raw[pcirOffset raw + 0x10]? = some 64) ∧
      (efiImage raw ≤ pcirOffset raw + 0x11 →
        pcirOffset raw + 0x11 < efiImage raw + driver.length →
        raw[pcirOffset raw + 0x11]? = some 0) ∧
      (efiImage raw + driver.length = 32768 →
        (byteValue raw 32767 : Int) = wantedChecksum raw) := by
  have hin := pcir_inside hpcir
  have hafter := pcir_after_header hheader hpcir
  have hend := slice_inside hdriver (by omega)
  have hsize' := hsize
  unfold romSize at hsize'
  obtain ⟨hlow, hhigh⟩ := finalImage_patched hsize hpcir hheader
  have hlast := finalImage_last_iff hsize hpcir hheader
  rw [slice_same_iff hdriver]
  constructor
  · intro hsame
    refine ⟨?_, ?_, ?_, ?_⟩
    · exact efi_ne_two hsize hpcir hheader hpe
        fun htwo => hsame 2 (by omega) (by omega)
    · intro hi hlt
      rw [← hsame _ hi hlt, hlow]
    · intro hi hlt
      rw [← hsame _ hi hlt, hhigh]
    · intro hfull
      exact (hlast (by omega)).1 (hsame 32767 (by omega) (by omega))
  · rintro ⟨hne, hcond10, hcond11, hcondLast⟩ k hi hk
    have hstart := efi_after_length hheader hpe (by omega) hne
    by_cases h10 : k = pcirOffset raw + 0x10
    · rw [h10, hlow, hcond10 (by omega) (by omega)]
    by_cases h11 : k = pcirOffset raw + 0x11
    · rw [h11, hhigh, hcond11 (by omega) (by omega)]
    by_cases h32767 : k = 32767
    · rw [h32767]
      exact (hlast (by omega)).2 (hcondLast (by omega))
    · exact finalImage_raw hsize hin (by omega) (by omega) (by omega) h32767

end

/-- The checker on the finalized image. -/
theorem check_finalImage_iff {raw driver : List UInt8} (hsize : raw.length ≤ romSize)
    (hheader : Header raw) (hpcir : Pcir raw (pcirOffset raw)) (hpe : Pe raw (efiImage raw))
    (hdriver : slice raw (efiImage raw) (efiImage raw + driver.length) = driver)
    (hinside : peHeader raw (efiImage raw) + 24 + 0x46 ≤ efiImage raw + driver.length) :
    check (finalImage raw) driver = .ok () ↔ PatchesHarmless raw driver := by
  have hin := pcir_inside hpcir
  have hdos : 2 ≤ driver.length := by
    unfold peHeader at hinside
    omega
  obtain ⟨hpcirOffset, hefi⟩ := finalImage_offsets hsize hpcir hheader
  have hdriverIff := finalImage_driver_iff hsize hpcir hheader hpe hdriver hdos
  have hpcirIff := finalImage_pcir_iff hsize hpcir hheader
  rw [check_ok_iff]
  constructor
  · intro h
    have hkept := h.driver
    have hindicator := h.pcir
    rw [hefi] at hkept
    rw [hpcirOffset] at hindicator
    obtain ⟨hne, hlow, hhigh, hlast⟩ := hdriverIff.1 hkept
    exact ⟨hne, hlow, hhigh, hlast, hpcirIff.1 hindicator⟩
  · intro h
    have hkept := hdriverIff.2 ⟨h.headerLength, h.pcirLow, h.pcirHigh, h.last⟩
    obtain ⟨hfirst, hsecond⟩ := finalImage_lengths hsize hpcir hheader
    refine ⟨length_finalImage hsize hin, finalImage_header hsize hpcir hheader, hfirst, ?_, ?_,
      finalImage_sum hsize hin, ?_, ?_⟩
    · rw [hpcirOffset]
      exact hpcirIff.2 h.indicator
    · rw [hpcirOffset]
      exact hsecond
    · rw [hefi]
      exact hkept
    · rw [hefi]
      exact hpe.of_driver hinside hdriver hkept

/-! ## Top theorem -/

/-- **When the finalized ROM passes its own checker.**  Size, sum, length fields and memory
file are always as they should be; the driver and the last-image flag are when the patches
are harmless. -/
theorem finalize_checks_iff {raw driver : List UInt8} {art : Artifacts}
    (hfinal : finalize raw driver = .ok art) (hheader : Header raw)
    (hpcir : Pcir raw (pcirOffset raw)) (hpe : Pe raw (efiImage raw))
    (hinside : peHeader raw (efiImage raw) + 24 + 0x46 ≤ efiImage raw + driver.length) :
    (art.bin.length = 32768 ∧ byteSum art.bin % 256 = 0 ∧
      fromBytes (slice art.bin 2 4) = 64 ∧
      fromBytes (slice art.bin (pcirOffset raw + 0x10) (pcirOffset raw + 0x12)) = 64 ∧
      slice art.bin (efiImage raw) (efiImage raw + driver.length) = driver ∧
      check art.bin driver = .ok () ∧
      (splitLines art.mem).length = 8192 ∧ (∀ line ∈ splitLines art.mem, line.length = 8) ∧
      memBytes art.mem = some art.bin) ↔ PatchesHarmless raw driver := by
  obtain ⟨hsize, hdriver, hbin, hmem⟩ := finalize_ok hfinal
  have hin := pcir_inside hpcir
  have hlen := length_finalImage hsize hin
  obtain ⟨hfirst, hsecond⟩ := finalImage_lengths hsize hpcir hheader
  obtain ⟨hlines, hdigits, hread⟩ := memText_reads (n := 8192) hlen (by decide)
  have hcheck := check_finalImage_iff hsize hheader hpcir hpe hdriver hinside
  rw [hbin, hmem]
  constructor
  · rintro ⟨-, -, -, -, -, h, -⟩
    exact hcheck.1 h
  · intro h
    have hpasses := check_ok_iff.1 (hcheck.2 h)
    have hkept := hpasses.driver
    rw [(finalImage_offsets hsize hpcir hheader).2] at hkept
    exact ⟨hlen, finalImage_sum hsize hin, hfirst, hsecond, hkept, hcheck.2 h, hlines, hdigits,
      hread⟩

/-! ## A full aperture -/

/-- The headers of a ROM whose driver starts at `0x38`. -/
def romHeaders : List UInt8 := [
  0x55, 0xAA, 0x40, 0x00, 0xF1, 0x0E, 0x00, 0x00, 0x0B, 0x00, 0x64, 0x86, 0x00, 0x00,
  0x00, 0x00, 0x00, 0x00, 0x00, 0x00, 0x00, 0x00, 0x38, 0x00, 0x1C, 0x00, 0x00, 0x00,
  0x50, 0x43, 0x49, 0x52, 0xEE, 0x10, 0x24, 0x70, 0x00, 0x00, 0x18, 0x00, 0x03, 0x00,
  0x80, 0x03, 0x40, 0x00, 0x00, 0x00, 0x03, 0x80, 0x00, 0x00, 0x00, 0x00, 0x00, 0x00]

/-- The smallest PE that the checker knows. -/
def peHeaders : List UInt8 :=
  dosSignature ++ List.replicate 58 0 ++ [0x40, 0, 0, 0] ++ peSignature ++ [0x64, 0x86] ++
    List.replicate 18 0 ++ [0x0B, 0x02] ++ List.replicate 66 0 ++ [0x0B, 0x00]

/-- A driver of any length, and the ROM with it. -/
def driverOf (n : Nat) : List UInt8 := peHeaders ++ List.replicate n 0

def romOf (n : Nat) : List UInt8 := romHeaders ++ peHeaders ++ List.replicate n 0

theorem romOf_slice (n : Nat) {i j : Nat} (hj : j ≤ 214) :
    slice (romOf n) i j = slice (romHeaders ++ peHeaders) i j := by
  apply slice_congr
  intro k _ hk
  exact List.getElem?_append_left (show k < 214 by omega)

theorem romOf_offsets (n : Nat) : pcirOffset (romOf n) = 0x1C ∧ efiImage (romOf n) = 0x38 ∧
    peHeader (romOf n) 0x38 = 0x78 := by
  unfold pcirOffset efiImage peHeader
  rw [romOf_slice n (by decide), romOf_slice n (by decide), romOf_slice n (by decide)]
  decide

theorem romOf_byte (n : Nat) {i : Nat} (hi : i < 214) :
    (romOf n)[i]? = (romHeaders ++ peHeaders)[i]? :=
  List.getElem?_append_left (show i < 214 by omega)

theorem romOf_fields (n : Nat) :
    Header (romOf n) ∧ Pcir (romOf n) 0x1C ∧ Pe (romOf n) 0x38 := by
  obtain ⟨-, -, hpe⟩ := romOf_offsets n
  refine ⟨?_, ?_, ?_⟩
  · constructor
    all_goals
      rw [romOf_slice n (by decide)]
      decide
  · constructor
    case codeType =>
      rw [romOf_byte n (by decide)]
      decide
    case indicator =>
      rw [romOf_byte n (by decide)]
      exact ⟨0x80, by decide, by decide⟩
    all_goals
      rw [romOf_slice n (by decide)]
      decide
  · constructor
    case dos =>
      rw [romOf_slice n (by decide)]
      decide
    all_goals
      rw [hpe, romOf_slice n (by decide)]
      decide

theorem length_driverOf (n : Nat) : (driverOf n).length = 158 + n := by
  unfold driverOf
  rw [List.length_append, List.length_replicate]
  rfl

theorem romOf_driver (n : Nat) :
    slice (romOf n) 0x38 (0x38 + (driverOf n).length) = driverOf n := by
  have hrom : romOf n = romHeaders ++ driverOf n := List.append_assoc _ _ _
  have hlen : romHeaders.length = 0x38 := by decide
  rw [hrom, slice_eq_iff]
  intro k _
  rw [List.getElem?_append_right (by omega), hlen, Nat.add_sub_cancel_left]

theorem romOf_finalize {n : Nat} (hn : n ≤ 32554) :
    finalize (romOf n) (driverOf n) =
      .ok ⟨finalImage (romOf n), memText (finalImage (romOf n))⟩ := by
  obtain ⟨hheader, hpcir, -⟩ := romOf_fields n
  obtain ⟨hpcirOffset, hefi, -⟩ := romOf_offsets n
  have hlen : (romOf n).length = 214 + n := by
    unfold romOf
    rw [List.length_append, List.length_replicate]
    rfl
  unfold finalize
  rw [if_neg (by rw [hlen]; unfold romSize; omega), if_neg (not_not.2 hheader.signature),
    hpcirOffset, if_neg (not_not.2 hpcir.signature), hefi, if_neg (not_not.2 (romOf_driver n))]

/-- The sample with no padding in its driver passes the checker. -/
theorem finalize_checks_iff_small :
    ∃ art, finalize (romOf 0) (driverOf 0) = .ok art ∧ check art.bin (driverOf 0) = .ok () := by
  obtain ⟨hheader, hpcir, hpe⟩ := romOf_fields 0
  obtain ⟨hpcirOffset, hefi, hpeHeader⟩ := romOf_offsets 0
  have hfinal := romOf_finalize (show 0 ≤ 32554 by decide)
  have hlen := length_driverOf 0
  have hharmless : PatchesHarmless (romOf 0) (driverOf 0) := by
    constructor <;> simp only [hpcirOffset, hefi, hlen] <;> omega
  have hall := (finalize_checks_iff hfinal hheader (by rw [hpcirOffset]; exact hpcir)
    (by rw [hefi]; exact hpe) (by rw [hefi]; omega)).2 hharmless
  obtain ⟨-, -, -, -, -, hcheck, -⟩ := hall
  exact ⟨_, hfinal, hcheck⟩

theorem romOf_sum (n : Nat) : byteSum (romOf n) = 2598 := by
  have hsum : byteSum (romHeaders ++ peHeaders) = 2598 := by decide +kernel
  have hzeros : ((List.replicate n (0 : UInt8)).map UInt8.toNat).sum = 0 := by simp
  unfold byteSum at hsum ⊢
  unfold romOf
  rw [List.map_append, List.sum_append, hsum, hzeros]

theorem romOf_last {n : Nat} (hn : 0 < n) : byteValue (romOf n) (214 + n - 1) = 0 := by
  have hheaders : (romHeaders ++ peHeaders).length = 214 := rfl
  have hzero : (romOf n)[214 + n - 1]? = some 0 := by
    unfold romOf
    rw [List.getElem?_append_right (by omega), hheaders, List.getElem?_replicate,
      if_pos (by omega)]
  unfold byteValue
  rw [List.getD_eq_getElem?_getD, hzero]
  rfl

theorem romOf_full_wanted : wantedChecksum (romOf 32554) = 218 := by
  have hvalue : ∀ i, i < 214 →
      byteValue (romOf 32554) i = byteValue (romHeaders ++ peHeaders) i :=
    fun i hi => byteValue_congr (romOf_byte 32554 hi)
  have hlast : byteValue (romOf 32554) 32767 = 0 := romOf_last (by decide)
  unfold wantedChecksum
  rw [(romOf_offsets 32554).1, hlast, romOf_sum, hvalue 2 (by decide), hvalue 3 (by decide),
    hvalue _ (by decide), hvalue _ (by decide)]
  decide

/-- A driver that ends in the last byte loses it to the checksum. -/
theorem full_aperture_spoils_driver : let raw := romOf 32554; let driver := driverOf 32554;
    Header raw ∧ Pcir raw (pcirOffset raw) ∧ Pe raw (efiImage raw) ∧
    peHeader raw (efiImage raw) + 24 + 0x46 ≤ efiImage raw + driver.length ∧
    ∃ art, finalize raw driver = .ok art ∧
      slice art.bin (efiImage raw) (efiImage raw + driver.length) ≠ driver ∧
      check art.bin driver ≠ .ok () := by
  intro raw driver
  obtain ⟨hheader, hpcir, hpe⟩ : Header raw ∧ Pcir raw 0x1C ∧ Pe raw 0x38 := romOf_fields 32554
  obtain ⟨hpcirOffset, hefi, hpeHeader⟩ :
      pcirOffset raw = 0x1C ∧ efiImage raw = 0x38 ∧ peHeader raw 0x38 = 0x78 := romOf_offsets 32554
  have hfinal : finalize raw driver = .ok ⟨finalImage raw, memText (finalImage raw)⟩ :=
    romOf_finalize (by decide)
  have hlen : driver.length = 32712 := length_driverOf 32554
  have hlast : byteValue raw 32767 = 0 := romOf_last (by decide)
  have hwanted : wantedChecksum raw = 218 := romOf_full_wanted
  clear_value raw driver
  obtain ⟨hsize, hdriver, -⟩ := finalize_ok hfinal
  rw [← hpcirOffset] at hpcir
  rw [← hefi] at hpe hpeHeader
  have hinside : peHeader raw (efiImage raw) + 24 + 0x46 ≤ efiImage raw + driver.length := by
    omega
  have hspoilt : ¬ (efiImage raw + driver.length = 32768 →
      (byteValue raw 32767 : Int) = wantedChecksum raw) := by
    omega
  refine ⟨hheader, hpcir, hpe, hinside, _, hfinal, ?_, ?_⟩
  · intro hkept
    obtain ⟨-, -, -, hlast⟩ :=
      (finalImage_driver_iff hsize hpcir hheader hpe hdriver (by omega)).1 hkept
    exact hspoilt hlast
  · intro hcheck
    exact hspoilt ((check_finalImage_iff hsize hheader hpcir hpe hdriver hinside).1 hcheck).last

end OptionRom
