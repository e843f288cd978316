import SimpleDisplay.Hls.PixelPack

/-!
# Packed and unpacked

One pass of every loop on a group of beats, and the two cores one after the other.
-/

namespace Hls

open AxiStream Fields

/-! ## One pass -/

/-- The words of a group of `V_24`. -/
def words24 (x : BitVec 96) (g : List (BitVec 24)) : List (BitVec 32) :=
  (List.range 3).map fun i => range (fill x g) (i * 32) 32

def pixels24 (x : BitVec 96) (g : List (BitVec 32)) : List (BitVec 24) :=
  (List.range 4).map fun i => range (fill x g) (i * 24) 24

theorem exists_two {α : Type} {g : List α} (hg : g.length = 2) : ∃ a b, g = [a, b] := by
  match g, hg with
  | [a, b], _ => exact ⟨a, b, rfl⟩

theorem exists_three {α : Type} {g : List α} (hg : g.length = 3) : ∃ a b c, g = [a, b, c] := by
  match g, hg with
  | [a, b, c], _ => exact ⟨a, b, c, rfl⟩

theorem exists_four {α : Type} {g : List α} (hg : g.length = 4) : ∃ a b c d, g = [a, b, c, d] := by
  match g, hg with
  | [a, b, c, d], _ => exact ⟨a, b, c, d, rfl⟩

/-- Four pixels are read, the last of which may be the last of the packet. -/
theorem readGroup_burst (user last : Bool) {g : List (BitVec 24)} (hg : g.length = 4)
    (rest : List NarrowPixel) :
    readGroup 4 false (burst user last g ++ rest) = some (burst user last g, last, rest) := by
  obtain ⟨a, b, c, d, rfl⟩ := exists_four hg
  simp [burst, readGroup]

section

variable {words : List NarrowPixel → List NarrowPixel → Bool → List WidePixel}

theorem packDelayed_done (last : Bool) (input : List NarrowPixel) :
    packDelayed words last true input = some ([], input) := by
  rw [packDelayed, if_pos rfl]

theorem packDelayed_read {last last' : Bool} {input input' ps : List NarrowPixel}
    (h : readGroup 4 last input = some (ps, last', input')) :
    packDelayed words last false input = (packDelayed words last' last input').map fun r =>
      ((if last then [] else words input ps last') ++ r.1, r.2) := by
  rw [packDelayed, if_neg (by decide)]
  split
  · next hnone =>
    rw [h] at hnone
    cases hnone
  · next hsome =>
    rw [h] at hsome
    simp only [Option.some.injEq, Prod.mk.injEq] at hsome
    obtain ⟨rfl, rfl, rfl⟩ := hsome
    rfl

/-- A pass of a delayed loop over a group. -/
theorem packDelayed_pass (user last : Bool) {g : List (BitVec 24)} (hg : g.length = 4)
    (rest : List NarrowPixel) :
    packDelayed words false false (burst user last g ++ rest) =
      if last then some (words (burst user last g ++ rest) (burst user last g) last, rest)
      else (packDelayed words false false rest).map fun r =>
        (words (burst user last g ++ rest) (burst user last g) last ++ r.1, r.2) := by
  rw [packDelayed_read (readGroup_burst user last hg rest)]
  by_cases hlast : last = true
  · -- The pass after the last pixel reads nothing.
    have hread : readGroup 4 true rest = some ([], true, rest) := rfl
    rw [if_pos hlast, hlast, packDelayed_read hread, packDelayed_done]
    simp
  · rw [if_neg hlast, Bool.eq_false_iff.2 hlast]
    rfl

end

/-! ## `pixel_pack` -/

theorem packV24_serves (uninit : List NarrowPixel → Uninit) :
    Serves (packV24 uninit) (Grouped 4 fun _ => True) (groups 4 (words24 0)) := by
  apply Serves.of_pass 3 (by decide) (by decide)
  · intro g _
    simp [words24]
  · intro user last g rest hg
    have hwords : ∀ input, wordsV24 (uninit input) (burst user last g) =
        burst user last (words24 0 g) := by
      intro input
      obtain ⟨a, b, c, d, rfl⟩ := exists_four hg
      have huser := fun i (hi : i < 4) => getLsbD_fill_bits [user, false, false, false] rfl
        (uninit input).hasUser hi
      have hlast := fun i (hi : i < 4) => getLsbD_fill_bits [false, false, false, last] rfl
        (uninit input).hasLast hi
      have hfill := fill_congr (n := 96) (by decide) [a, b, c, d] rfl (uninit input).buffer 0
      simp only [wordsV24, words24, burst, List.map_cons, List.map_nil, List.range_succ,
        List.range_zero, List.nil_append, List.cons_append] at huser hlast ⊢
      rw [huser 0 (by decide), huser 1 (by decide), huser 2 (by decide), hlast 1 (by decide),
        hlast 2 (by decide), hlast 3 (by decide), hfill]
      rfl
    rw [packV24, packDelayed_pass user last hg rest, hwords]
    cases last <;> rfl

/-- The low `k` bits of some pixels in one word. -/
def lowWord (k : Nat) (g : List (BitVec 24)) : List (BitVec 32) := [fill 0 (g.map fun d => range d 0 k)]

theorem packV8_serves (uninit : List NarrowPixel → Uninit) :
    Serves (packV8 uninit) (Grouped 4 fun _ => True) (groups 4 (lowWord 8)) := by
  apply Serves.of_pass 1 (by decide) (by decide)
  · intro g _
    rfl
  · intro user last g rest hg
    have hword : ∀ input, [wordV8 (uninit input) (burst user last g) last] =
        burst user last (lowWord 8 g) := by
      intro input
      obtain ⟨a, b, c, d, rfl⟩ := exists_four hg
      have hfill := fill_congr (n := 32) (by decide)
        ([a, b, c, d].map fun d => range d 0 8) rfl (uninit input).data 0
      simp only [List.map_cons, List.map_nil] at hfill
      simp [wordV8, lowWord, burst, hfill]
    rw [packV8, packDelayed_pass user last hg rest, hword]
    cases last <;> rfl

def words32 (alpha : BitVec 8) (g : List (BitVec 24)) : List (BitVec 32) :=
  g.map fun d => alpha ++ d

theorem packV32_serves (uninit : List NarrowPixel → Uninit) (alpha : BitVec 8) :
    Serves (packV32 uninit alpha) (Grouped 1 fun _ => True) (groups 1 (words32 alpha)) := by
  apply Serves.of_pass 1 (by decide) (by decide)
  · intro g hg
    simpa [words32] using hg
  · intro user last g rest hg
    obtain ⟨d, rfl⟩ := List.length_eq_one_iff.1 hg
    have hword : ∀ x : BitVec 32, setRange (setRange x 0 d) 24 alpha = alpha ++ d := by
      intro x
      apply BitVec.eq_of_getLsbD_eq
      intro i hi
      simp only [getLsbD_setRange, BitVec.getLsbD_append]
      by_cases hlow : i < 24
      · simp [hlow, hi, show ¬ 24 ≤ i by omega]
      · simp [hlow, hi, show 24 ≤ i by omega]
    show (if last then some ([_], rest) else _) = _
    rw [hword]
    cases last <;> rfl

/-- The range of 17 bits that `V_16` reads keeps the 16 that fit. -/
theorem range_17 (d : BitVec 24) : (range d 0 17).setWidth 16 = range d 0 16 := by
  apply BitVec.eq_of_getLsbD_eq
  intro i hi
  rw [BitVec.getLsbD_setWidth, getLsbD_range, getLsbD_range]
  simp [hi, show i < 17 by omega]

theorem packV16_serves (uninit : List NarrowPixel → Uninit) :
    Serves (packV16 uninit) (Grouped 2 fun _ => True) (groups 2 (lowWord 16)) := by
  apply Serves.of_pass 1 (by decide) (by decide)
  · intro g _
    rfl
  · intro user last g rest hg
    obtain ⟨a, b, rfl⟩ := exists_two hg
    show packV16 uninit (⟨a, user, false⟩ :: ⟨b, false, last⟩ :: rest) = _
    rw [packV16]
    simp only [range_17, Bool.or_false]
    rw [fill_congr (n := 32) (by decide) _ rfl _ 0]
    cases last <;> rfl

def words16c (g : List (BitVec 24)) : List (BitVec 32) :=
  let data := fill (0 : BitVec 48) g
  let outC1 : BitVec 9 := (range data 8 8).setWidth 9 + (range data 32 8).setWidth 9
  let outC2 : BitVec 9 := (range data 16 8).setWidth 9 + (range data 40 8).setWidth 9
  [fill 0 [range data 0 8, range outC1 1 8, range data 24 8, range outC2 1 8]]

theorem packV16C_serves (uninit : List NarrowPixel → Uninit) :
    Serves (packV16C uninit) (Grouped 2 fun _ => True) (groups 2 words16c) := by
  apply Serves.of_pass 1 (by decide) (by decide)
  · intro g _
    rfl
  · intro user last g rest hg
    obtain ⟨a, b, rfl⟩ := exists_two hg
    show packV16C uninit (⟨a, user, false⟩ :: ⟨b, false, last⟩ :: rest) = _
    rw [packV16C]
    dsimp only
    rw [fill_congr (n := 48) (by decide) _ rfl _ 0, fill_congr (n := 32) (by decide) _ rfl _ 0,
      Bool.or_false]
    cases last <;> rfl

/-! ## `pixel_unpack` -/

theorem outPixels_burst (user last : Bool) {ds : List (BitVec 24)} (hds : ds ≠ []) :
    outPixels user last ds = burst user last ds := by
  -- Counted from `j`, the pixels after the first one of the packet.
  have htail : ∀ (ds : List (BitVec 24)) (j n : Nat), 0 < j → n = j + ds.length - 1 →
      (ds.zipIdx j).map (fun d => (⟨d.1, if d.2 = 0 then user else false,
        if d.2 = n then last else false⟩ : NarrowPixel)) = burst false last ds := by
    intro ds
    induction ds with
    | nil =>
      intro j n _ _
      rfl
    | cons d ds ih =>
      intro j n hj hn
      rw [List.length_cons] at hn
      rw [List.zipIdx_cons, List.map_cons, ih (j + 1) n (by omega) (by omega)]
      cases ds with
      | nil =>
        rw [List.length_nil] at hn
        obtain rfl : n = j := by omega
        simp [burst, show n ≠ 0 by omega]
      | cons e ds =>
        rw [List.length_cons] at hn
        simp [burst, show j ≠ 0 by omega, show j ≠ n by omega]
  rcases ds with _ | ⟨d, _ | ⟨e, ds⟩⟩
  · exact absurd rfl hds
  · rfl
  · unfold outPixels
    rw [List.zipIdx_cons, List.map_cons, htail (e :: ds) 1 _ (by decide) (by simp)]
    simp [burst]

theorem unpackV24_serves (uninit : List WidePixel → BitVec 96) :
    Serves (unpackV24 uninit) (Grouped 3 fun _ => True) (groups 3 (pixels24 0)) := by
  apply Serves.of_pass 4 (by decide) (by decide)
  · intro g _
    simp [pixels24]
  · intro user last g rest hg
    obtain ⟨a, b, c, rfl⟩ := exists_three hg
    show unpackV24 uninit (⟨a, user, false⟩ :: ⟨b, false, false⟩ :: ⟨c, false, last⟩ :: rest) = _
    rw [unpackV24]
    dsimp only
    rw [fill_congr (n := 96) (by decide) _ rfl _ 0, Bool.or_false, Bool.or_false, Bool.or_false,
      Bool.false_or, outPixels_burst user last (by simp)]
    cases last <;> rfl

theorem unpackWords_serves {pixels : BitVec 32 → List (BitVec 24)} {n : Nat} (hn : 0 < n)
    (hpixels : ∀ d, (pixels d).length = n) :
    Serves (unpackWords pixels) (Grouped 1 fun _ => True) (groups 1 fun g => g.flatMap pixels) := by
  apply Serves.of_pass n (by decide) hn
  · intro g hg
    obtain ⟨d, rfl⟩ := List.length_eq_one_iff.1 hg
    simpa using hpixels d
  · intro user last g rest hg
    obtain ⟨d, rfl⟩ := List.length_eq_one_iff.1 hg
    have hne : pixels d ≠ [] := by
      intro hnil
      have hlen := hpixels d
      rw [hnil, List.length_nil] at hlen
      omega
    show unpackWords pixels (⟨d, user, last⟩ :: rest) = _
    rw [unpackWords]
    dsimp only
    rw [outPixels_burst user last hne, List.flatMap_singleton]
    cases last <;> rfl

/-! ## Groups there and back -/

theorem pixels24_words24 {g : List (BitVec 24)} (hg : g.length = 4) :
    pixels24 0 (words24 0 g) = g := by
  unfold pixels24 words24
  rw [fill_pieces (by decide) (by decide) 0 (fill 0 g), ← hg]
  exact pieces_fill (by decide) g (by omega) 0

theorem words24_pixels24 {g : List (BitVec 32)} (hg : g.length = 3) :
    words24 0 (pixels24 0 g) = g := by
  unfold pixels24 words24
  rw [fill_pieces (by decide) (by decide) 0 (fill 0 g), ← hg]
  exact pieces_fill (by decide) g (by omega) 0

/-- A pixel with nothing above its low `k` bits. -/
theorem setRange_low {k : Nat} {d : BitVec 24} (hd : d.toNat < 2 ^ k) :
    setRange (0 : BitVec 24) 0 (range d 0 k) = d := by
  apply BitVec.eq_of_getLsbD_eq
  intro i hi
  rw [getLsbD_setRange]
  by_cases hk : i < k
  · rw [if_pos (by omega), Nat.sub_zero, getLsbD_range, Nat.zero_add]
    simp [hk, hi]
  · have hhigh : d.getLsbD i = false := by
      rw [BitVec.getLsbD]
      exact Nat.testBit_lt_two_pow (Nat.lt_of_lt_of_le hd (Nat.pow_le_pow_right (by decide) (by omega)))
    rw [if_neg (by omega), hhigh]
    simp

/-- The pixels that `lowWord` keeps the low bits of. -/
def lowPixels (k m : Nat) (d : BitVec 32) : List (BitVec 24) :=
  (List.range m).map fun i => setRange 0 0 (range d (i * k) k)

theorem lowPixels_lowWord {k m : Nat} (hk : 0 < k) (hm : m * k = 32) {g : List (BitVec 24)}
    (hg : g.length = m) (hgood : ∀ d ∈ g, d.toNat < 2 ^ k) :
    (lowWord k g).flatMap (lowPixels k m) = g := by
  have hpieces := pieces_fill (n := 32) hk (g.map fun d => range d 0 k) (by simp [hg, hm]) 0
  rw [List.length_map, hg] at hpieces
  have hmap : lowPixels k m (fill 0 (g.map fun d => range d 0 k)) =
      ((List.range m).map fun j =>
        range (fill (0 : BitVec 32) (g.map fun d => range d 0 k)) (j * k) k).map (setRange 0 0) := by
    rw [List.map_map]
    rfl
  unfold lowWord
  rw [List.flatMap_singleton, hmap, hpieces, List.map_map]
  exact (List.map_congr_left fun d hd => setRange_low (hgood d hd)).trans (List.map_id g)

theorem lowWord_lowPixels {k m : Nat} (hk : 0 < k) (hk' : k ≤ 24) (hm : m * k = 32) (d : BitVec 32) :
    lowWord k (lowPixels k m d) = [d] := by
  have hmap : (lowPixels k m d).map (fun d => range d 0 k) =
      (List.range m).map fun j => range d (j * k) k := by
    unfold lowPixels
    rw [List.map_map]
    exact List.map_congr_left fun i _ => range_setRange (by omega) _ _
  unfold lowWord
  rw [hmap, fill_pieces hk hm]

/-- The mean of a component with itself. -/
theorem mean_self (c : BitVec 8) : range ((c.setWidth 9 + c.setWidth 9 : BitVec 9)) 1 8 = c := by
  have hc := c.isLt
  apply BitVec.eq_of_toNat_eq
  unfold range
  rw [BitVec.extractLsb'_toNat, BitVec.toNat_add, BitVec.toNat_setWidth, Nat.shiftRight_eq_div_pow]
  omega

/-- The three components of a pixel. -/
theorem setRange_parts (d : BitVec 24) :
    setRange (setRange (setRange 0 0 (range d 0 8)) 8 (range d 8 8)) 16 (range d 16 8) = d := by
  apply BitVec.eq_of_getLsbD_eq
  intro i hi
  simp only [getLsbD_setRange, getLsbD_range]
  by_cases h8 : i < 8
  · simp [h8, show ¬ 16 ≤ i by omega, show ¬ 8 ≤ i by omega, hi]
  · by_cases h16 : i < 16
    · simp [h16, show ¬ 16 ≤ i by omega, show 8 ≤ i by omega, hi, show i - 8 < 8 by omega,
        show 8 + (i - 8) = i by omega]
    · simp [show 16 ≤ i by omega, hi, show i - 16 < 8 by omega, show 16 + (i - 16) = i by omega]

/-- The components that the pixels of a group share in `V_16C`. -/
def SharedChroma (g : List (BitVec 24)) : Prop := ∀ d ∈ g, ∀ e ∈ g, range d 8 16 = range e 8 16

/-- A pixel of `V_16C` from its three components. -/
def pixelOf (y c1 c2 : BitVec 8) : BitVec 24 := setRange (setRange (setRange 0 0 y) 8 c1) 16 c2

theorem pixelsV16C_fill (y c1 y' c2 : BitVec 8) :
    pixelsV16C (fill 0 [y, c1, y', c2]) = [pixelOf y c1 c2, pixelOf y' c1 c2] := by
  have hrange : ∀ j < 4, range (fill (0 : BitVec 32) [y, c1, y', c2]) (j * 8) 8 =
      [y, c1, y', c2].getD j 0 := fun j hj =>
    range_fill (by decide) [y, c1, y', c2] rfl 0 hj
  have h0 := hrange 0 (by decide)
  have h1 := hrange 1 (by decide)
  have h2 := hrange 2 (by decide)
  have h3 := hrange 3 (by decide)
  rw [Nat.zero_mul] at h0
  rw [Nat.one_mul] at h1
  show [pixelOf (range _ 0 8) (range _ 8 8) (range _ 24 8),
    pixelOf (range _ 16 8) (range _ 8 8) (range _ 24 8)] = _
  rw [h0, h1, h2, h3]
  rfl

theorem words16c_eq (a b : BitVec 24) (hshared : range a 8 16 = range b 8 16) :
    words16c [a, b] = [fill 0 [range a 0 8, range a 8 8, range b 0 8, range a 16 8]] := by
  have hpart : ∀ j lo, j < 2 → lo + 8 ≤ 24 → range (fill (0 : BitVec 48) [a, b]) (j * 24 + lo) 8 =
      range ([a, b].getD j 0) lo 8 := fun j lo hj hlo => range_fill_part hlo [a, b] rfl 0 hj
  have h8 : range a 8 8 = range b 8 8 := by
    have h := congrArg (fun c => range c 0 8) hshared
    simpa only [range_range (by decide : 0 + 8 ≤ 16)] using h
  have h16 : range a 16 8 = range b 16 8 := by
    have h := congrArg (fun c => range c 8 8) hshared
    simpa only [range_range (by decide : 8 + 8 ≤ 16)] using h
  have h1 := hpart 0 0 (by decide) (by decide)
  have h2 := hpart 0 8 (by decide) (by decide)
  have h3 := hpart 0 16 (by decide) (by decide)
  have h4 := hpart 1 0 (by decide) (by decide)
  have h5 := hpart 1 8 (by decide) (by decide)
  have h6 := hpart 1 16 (by decide) (by decide)
  simp only [Nat.zero_mul, Nat.one_mul, Nat.zero_add, Nat.reduceAdd, List.getD_cons_zero,
    List.getD_cons_succ] at h1 h2 h3 h4 h5 h6
  unfold words16c
  dsimp only
  rw [h1, h2, h3, h4, h5, h6, ← h8, ← h16, mean_self, mean_self]

theorem pixelsV16C_words16c {g : List (BitVec 24)} (hg : g.length = 2) (hgood : SharedChroma g) :
    (words16c g).flatMap pixelsV16C = g := by
  obtain ⟨a, b, rfl⟩ := exists_two hg
  have hshared := hgood a (by simp) b (by simp)
  have h8 : range a 8 8 = range b 8 8 := by
    have h := congrArg (fun c => range c 0 8) hshared
    simpa only [range_range (by decide : 0 + 8 ≤ 16)] using h
  have h16 : range a 16 8 = range b 16 8 := by
    have h := congrArg (fun c => range c 8 8) hshared
    simpa only [range_range (by decide : 8 + 8 ≤ 16)] using h
  have ha : pixelOf (range a 0 8) (range a 8 8) (range a 16 8) = a := setRange_parts a
  have hb : pixelOf (range b 0 8) (range a 8 8) (range a 16 8) = b := by
    rw [h8, h16]
    exact setRange_parts b
  rw [words16c_eq a b hshared, List.flatMap_singleton, pixelsV16C_fill, ha, hb]

theorem range_pixelOf_low (y c1 c2 : BitVec 8) : range (pixelOf y c1 c2) 0 8 = y := by
  apply BitVec.eq_of_getLsbD_eq
  intro i hi
  rw [pixelOf, getLsbD_range, getLsbD_setRange, if_neg (by omega), getLsbD_setRange,
    if_neg (by omega), getLsbD_setRange, if_pos (by omega), Nat.zero_add, Nat.sub_zero]
  simp [hi, show i < 24 by omega]

theorem range_pixelOf_middle (y c1 c2 : BitVec 8) : range (pixelOf y c1 c2) 8 8 = c1 := by
  apply BitVec.eq_of_getLsbD_eq
  intro i hi
  rw [pixelOf, getLsbD_range, getLsbD_setRange, if_neg (by omega), getLsbD_setRange,
    if_pos (by omega), Nat.add_sub_cancel_left]
  simp [hi, show 8 + i < 24 by omega]

theorem range_pixelOf_chroma (y y' c1 c2 : BitVec 8) :
    range (pixelOf y c1 c2) 8 16 = range (pixelOf y' c1 c2) 8 16 := by
  apply BitVec.eq_of_getLsbD_eq
  intro i hi
  simp only [pixelOf, getLsbD_range, getLsbD_setRange]
  simp [show ¬ 8 + i < 8 by omega]

theorem words16c_pixelsV16C (d : BitVec 32) : words16c (pixelsV16C d) = [d] := by
  have hd : fill 0 [range d 0 8, range d 8 8, range d 16 8, range d 24 8] = d :=
    fill_pieces (k := 8) (m := 4) (by decide) (by decide) 0 d
  have hpixels := pixelsV16C_fill (range d 0 8) (range d 8 8) (range d 16 8) (range d 24 8)
  have hhigh : ∀ y : BitVec 8, range (pixelOf y (range d 8 8) (range d 24 8)) 16 8 = range d 24 8 :=
    fun y => range_setRange (by decide) _ _
  rw [hd] at hpixels
  rw [hpixels, words16c_eq _ _ (range_pixelOf_chroma _ _ _ _), range_pixelOf_low,
    range_pixelOf_middle, range_pixelOf_low, hhigh, hd]

/-! ## The cores -/

/-- The lines that a format carries without loss. -/
def Mode.Fits : Mode → List (BitVec 24) → Prop
  | .v24 => Grouped 4 fun _ => True
  | .v32 => Grouped 1 fun _ => True
  | .v8 => Grouped 4 fun g => ∀ d ∈ g, d.toNat < 2 ^ 8
  | .v16 => Grouped 2 fun g => ∀ d ∈ g, d.toNat < 2 ^ 16
  | .v16c => Grouped 2 SharedChroma

/-- The lines of words that a format carries without loss. -/
def Mode.FitsWords (alpha : BitVec 8) : Mode → List (BitVec 32) → Prop
  | .v24 => Grouped 3 fun _ => True
  | .v32 => Grouped 1 fun g => ∀ d ∈ g, range d 24 8 = alpha
  | _ => Grouped 1 fun _ => True

/-- The words of a line. -/
def Mode.words (alpha : BitVec 8) : Mode → List (BitVec 24) → List (BitVec 32)
  | .v24 => groups 4 (words24 0)
  | .v32 => groups 1 (words32 alpha)
  | .v8 => groups 4 (lowWord 8)
  | .v16 => groups 2 (lowWord 16)
  | .v16c => groups 2 words16c

/-- The pixels of a line of words. -/
def Mode.pixels : Mode → List (BitVec 32) → List (BitVec 24)
  | .v24 => groups 3 (pixels24 0)
  | .v32 => groups 1 fun g => g.flatMap pixelV32
  | .v8 => groups 1 fun g => g.flatMap (lowPixels 8 4)
  | .v16 => groups 1 fun g => g.flatMap (lowPixels 16 2)
  | .v16c => groups 1 fun g => g.flatMap pixelsV16C

theorem Mode.ofCode_code (m : Mode) : Mode.ofCode m.code = some m := by
  cases m <;> rfl

/-- How many pixels `pixel_pack` reads in a pass. -/
def Mode.pixelGroup : Mode → Nat
  | .v24 | .v8 => 4
  | .v32 => 1
  | .v16 | .v16c => 2

def Mode.wordGroup : Mode → Nat
  | .v24 => 3
  | _ => 1

theorem pixelPack_serves (uninit : List NarrowPixel → Uninit) (m : Mode) (alpha : BitVec 8) :
    Serves (pixelPack uninit m.code alpha) (Grouped m.pixelGroup fun _ => True) (m.words alpha) := by
  unfold pixelPack
  rw [m.ofCode_code]
  cases m with
  | v24 => exact packV24_serves uninit
  | v32 => exact packV32_serves uninit alpha
  | v8 => exact packV8_serves uninit
  | v16 => exact packV16_serves uninit
  | v16c => exact packV16C_serves uninit

theorem pixelUnpack_serves (uninit : List WidePixel → BitVec 96) (m : Mode) :
    Serves (pixelUnpack uninit m.code) (Grouped m.wordGroup fun _ => True) m.pixels := by
  unfold pixelUnpack
  rw [m.ofCode_code]
  cases m with
  | v24 => exact unpackV24_serves uninit
  | v32 => exact unpackWords_serves (n := 1) (by decide) fun _ => rfl
  | v8 => exact unpackWords_serves (n := 4) (by decide) fun _ => rfl
  | v16 => exact unpackWords_serves (n := 2) (by decide) fun _ => rfl
  | v16c => exact unpackWords_serves (n := 2) (by decide) fun _ => rfl

theorem Mode.Fits.grouped {m : Mode} {ds : List (BitVec 24)} (h : m.Fits ds) :
    Grouped m.pixelGroup (fun _ => True) ds := by
  cases m <;> exact Grouped.imp (fun _ _ => trivial) h

theorem Mode.FitsWords.grouped {m : Mode} {alpha : BitVec 8} {ds : List (BitVec 32)}
    (h : m.FitsWords alpha ds) : Grouped m.wordGroup (fun _ => True) ds := by
  cases m <;> exact Grouped.imp (fun _ _ => trivial) h

theorem pixelV32_words32 (alpha : BitVec 8) (g : List (BitVec 24)) :
    (words32 alpha g).flatMap pixelV32 = g := by
  have hd : ∀ d : BitVec 24, range (alpha ++ d) 0 24 = d := by
    intro d
    apply BitVec.eq_of_getLsbD_eq
    intro i hi
    rw [getLsbD_range, BitVec.getLsbD_append, Nat.zero_add, if_pos hi]
    simp [hi]
  unfold words32 pixelV32
  rw [List.flatMap_map]
  simp [hd]

theorem words32_pixelV32 {alpha : BitVec 8} {d : BitVec 32} (hd : range d 24 8 = alpha) :
    words32 alpha (pixelV32 d) = [d] := by
  have hword : alpha ++ range d 0 24 = d := by
    apply BitVec.eq_of_getLsbD_eq
    intro i hi
    rw [BitVec.getLsbD_append, getLsbD_range, ← hd, getLsbD_range]
    by_cases hlow : i < 24
    · simp [hlow]
    · simp [hlow, show i - 24 < 8 by omega, show 24 + (i - 24) = i by omega]
  unfold words32 pixelV32
  rw [List.map_singleton, hword]

/-- A group of one word, unpacked and packed. -/
theorem single_back {h : List (BitVec 24) → List (BitVec 32)} {pixels : BitVec 32 → List (BitVec 24)}
    {Good : List (BitVec 32) → Prop} (hback : ∀ d, Good [d] → h (pixels d) = [d]) :
    ∀ g : List (BitVec 32), g.length = 1 → Good g → h (g.flatMap pixels) = g := by
  intro g hg hgood
  obtain ⟨d, rfl⟩ := List.length_eq_one_iff.1 hg
  rw [List.flatMap_singleton]
  exact hback d hgood

theorem single_length (pixels : BitVec 32 → List (BitVec 24)) {n : Nat}
    (hpixels : ∀ d, (pixels d).length = n) :
    ∀ g : List (BitVec 32), g.length = 1 → (g.flatMap pixels).length = n := by
  intro g hg
  obtain ⟨d, rfl⟩ := List.length_eq_one_iff.1 hg
  simpa using hpixels d

theorem Mode.words_grouped (alpha : BitVec 8) {m : Mode} {ds : List (BitVec 24)}
    (h : Grouped m.pixelGroup (fun _ => True) ds) :
    Grouped m.wordGroup (fun _ => True) (m.words alpha ds) := by
  cases m with
  | v24 => exact Grouped.groups _ (by decide) (fun g _ _ => ⟨by simp [words24, wordGroup], trivial⟩) h
  | v32 => exact Grouped.groups _ (by decide) (fun g hg _ => ⟨by simpa [words32, wordGroup] using hg, trivial⟩) h
  | v8 => exact Grouped.groups _ (by decide) (fun g _ _ => ⟨rfl, trivial⟩) h
  | v16 => exact Grouped.groups _ (by decide) (fun g _ _ => ⟨rfl, trivial⟩) h
  | v16c => exact Grouped.groups _ (by decide) (fun g _ _ => ⟨rfl, trivial⟩) h

theorem Mode.pixels_grouped {m : Mode} {ds : List (BitVec 32)}
    (h : Grouped m.wordGroup (fun _ => True) ds) :
    Grouped m.pixelGroup (fun _ => True) (m.pixels ds) := by
  cases m with
  | v24 => exact Grouped.groups _ (by decide) (fun g _ _ => ⟨by simp [pixels24, pixelGroup], trivial⟩) h
  | v32 =>
    exact Grouped.groups _ (by decide)
      (fun g hg _ => ⟨single_length pixelV32 (fun _ => rfl) g hg, trivial⟩) h
  | v8 =>
    exact Grouped.groups _ (by decide)
      (fun g hg _ => ⟨single_length (lowPixels 8 4) (fun _ => rfl) g hg, trivial⟩) h
  | v16 =>
    exact Grouped.groups _ (by decide)
      (fun g hg _ => ⟨single_length (lowPixels 16 2) (fun _ => rfl) g hg, trivial⟩) h
  | v16c =>
    exact Grouped.groups _ (by decide)
      (fun g hg _ => ⟨single_length pixelsV16C (fun _ => rfl) g hg, trivial⟩) h

theorem Mode.pixels_words (alpha : BitVec 8) {m : Mode} {ds : List (BitVec 24)} (h : m.Fits ds) :
    m.pixels (m.words alpha ds) = ds := by
  cases m with
  | v24 =>
    exact Grouped.groups_groups (by decide) (by decide) (fun g _ => by simp [words24])
      (fun g hg _ => pixels24_words24 hg) h
  | v32 =>
    exact Grouped.groups_groups (by decide) (by decide) (fun g hg => by simpa [words32] using hg)
      (fun g _ _ => pixelV32_words32 alpha g) h
  | v8 =>
    exact Grouped.groups_groups (by decide) (by decide) (fun g _ => rfl)
      (fun g hg hgood => lowPixels_lowWord (by decide) (by decide) hg hgood) h
  | v16 =>
    exact Grouped.groups_groups (by decide) (by decide) (fun g _ => rfl)
      (fun g hg hgood => lowPixels_lowWord (by decide) (by decide) hg hgood) h
  | v16c =>
    exact Grouped.groups_groups (by decide) (by decide) (fun g _ => rfl)
      (fun g hg hgood => pixelsV16C_words16c hg hgood) h

theorem Mode.words_pixels {alpha : BitVec 8} {m : Mode} {ds : List (BitVec 32)}
    (h : m.FitsWords alpha ds) : m.words alpha (m.pixels ds) = ds := by
  cases m with
  | v24 =>
    exact Grouped.groups_groups (by decide) (by decide) (fun g _ => by simp [pixels24])
      (fun g hg _ => words24_pixels24 hg) h
  | v32 =>
    exact Grouped.groups_groups (by decide) (by decide) (single_length pixelV32 fun _ => rfl)
      (single_back fun d hd => words32_pixelV32 (hd d (by simp))) h
  | v8 =>
    exact Grouped.groups_groups (by decide) (by decide) (single_length (lowPixels 8 4) fun _ => rfl)
      (single_back fun d _ => lowWord_lowPixels (by decide) (by decide) (by decide) d) h
  | v16 =>
    exact Grouped.groups_groups (by decide) (by decide) (single_length (lowPixels 16 2) fun _ => rfl)
      (single_back fun d _ => lowWord_lowPixels (by decide) (by decide) (by decide) d) h
  | v16c =>
    exact Grouped.groups_groups (by decide) (by decide) (single_length pixelsV16C fun _ => rfl)
      (single_back fun d _ => words16c_pixelsV16C d) h

/-- Lines that two maps turn into others and back. -/
theorem map_back {v w : Nat} {f : List (BitVec v) → List (BitVec w)} {g : List (BitVec w) → List (BitVec v)}
    {lines : List (Bool × List (BitVec v))} (h : ∀ l ∈ lines, g (f l.2) = l.2) :
    (lines.map fun l => (l.1, f l.2)).map (fun l => (l.1, g l.2)) = lines := by
  rw [List.map_map]
  conv_rhs => rw [← List.map_id lines]
  apply List.map_congr_left
  intro l hl
  show (l.1, g (f l.2)) = l
  rw [h l hl]

/-- A stream of packed lines is unpacked to the lines it was packed from: one activation of
each core for a line, in every format, and whatever the uninitialised variables hold. -/
theorem unpack_packed (uninit : List NarrowPixel → Uninit) (uninit' : List WidePixel → BitVec 96)
    (m : Mode) (alpha : BitVec 8) (lines : List (Bool × List (BitVec 24)))
    (hlines : ∀ l ∈ lines, m.Fits l.2) (rest : List NarrowPixel) (rest' : List WidePixel) :
    ∃ words, activations (pixelPack uninit m.code alpha) lines.length (stream lines ++ rest) =
        some (words, rest) ∧
      activations (pixelUnpack uninit' m.code) lines.length (words ++ rest') =
        some (stream lines, rest') := by
  have hpack := (pixelPack_serves uninit m alpha).stream lines
    (fun l hl => (hlines l hl).grouped) rest
  refine ⟨_, hpack, ?_⟩
  have hunpack := (pixelUnpack_serves uninit' m).stream (lines.map fun l => (l.1, m.words alpha l.2))
    (by
      intro l hl
      obtain ⟨l', hl', rfl⟩ := List.mem_map.1 hl
      exact Mode.words_grouped alpha (hlines l' hl').grouped) rest'
  rw [List.length_map, map_back fun l hl => Mode.pixels_words alpha (hlines l hl)] at hunpack
  exact hunpack

theorem unpack_packed_shared :
    ∃ words, activations (pixelPack (fun _ => ⟨7, 1, 2, 3, 4, 5⟩) Mode.v16c.code 0) 1
        (stream [(true, [0x2211AA, 0x2211BB])] ++ []) = some (words, []) ∧
      activations (pixelUnpack (fun _ => 9) Mode.v16c.code) 1 (words ++ []) =
        some (stream [(true, [0x2211AA, 0x2211BB])], []) := by
  apply unpack_packed (fun _ => ⟨7, 1, 2, 3, 4, 5⟩) (fun _ => 9) .v16c 0
    [(true, [0x2211AA, 0x2211BB])]
  intro l hl
  obtain rfl := List.mem_singleton.1 hl
  have hchroma : ∀ d : BitVec 24, d = 0x2211AA ∨ d = 0x2211BB → range d 8 16 = 0x2211 := by
    rintro d (rfl | rfl) <;> decide
  refine Grouped.one _ rfl ?_
  intro d hd e he
  rw [hchroma d (by simpa using hd), hchroma e (by simpa using he)]

/-- A stream of words survives the other way around. -/
theorem pack_unpacked (uninit : List NarrowPixel → Uninit) (uninit' : List WidePixel → BitVec 96)
    (m : Mode) (alpha : BitVec 8) (lines : List (Bool × List (BitVec 32)))
    (hlines : ∀ l ∈ lines, m.FitsWords alpha l.2) (rest : List WidePixel)
    (rest' : List NarrowPixel) :
    ∃ pixels, activations (pixelUnpack uninit' m.code) lines.length (stream lines ++ rest) =
        some (pixels, rest) ∧
      activations (pixelPack uninit m.code alpha) lines.length (pixels ++ rest') =
        some (stream lines, rest') := by
  have hunpack := (pixelUnpack_serves uninit' m).stream lines
    (fun l hl => (hlines l hl).grouped) rest
  refine ⟨_, hunpack, ?_⟩
  have hpack := (pixelPack_serves uninit m alpha).stream (lines.map fun l => (l.1, m.pixels l.2))
    (by
      intro l hl
      obtain ⟨l', hl', rfl⟩ := List.mem_map.1 hl
      exact Mode.pixels_grouped (hlines l' hl').grouped) rest'
  rw [List.length_map, map_back fun l hl => Mode.words_pixels (hlines l hl)] at hpack
  exact hpack

theorem pack_unpacked_alpha :
    ∃ pixels, activations (pixelUnpack (fun _ => 9) Mode.v32.code) 1
        (stream [(true, [0xFF112233, 0xFF445566])] ++ []) = some (pixels, []) ∧
      activations (pixelPack (fun _ => ⟨7, 1, 2, 3, 4, 5⟩) Mode.v32.code 0xFF) 1 (pixels ++ []) =
        some (stream [(true, [0xFF112233, 0xFF445566])], []) := by
  apply pack_unpacked (fun _ => ⟨7, 1, 2, 3, 4, 5⟩) (fun _ => 9) .v32 0xFF
    [(true, [0xFF112233, 0xFF445566])]
  intro l hl
  obtain rfl := List.mem_singleton.1 hl
  have hword : ∀ d : BitVec 32, d = 0xFF112233 ∨ d = 0xFF445566 → range d 24 8 = 0xFF := by
    rintro d (rfl | rfl) <;> decide
  refine Grouped.more [0xFF112233] _ rfl ?_ (Grouped.one [0xFF445566] rfl ?_)
  · intro d hd
    exact hword d (.inl (List.mem_singleton.1 hd))
  · intro d hd
    exact hword d (.inr (List.mem_singleton.1 hd))

end Hls
