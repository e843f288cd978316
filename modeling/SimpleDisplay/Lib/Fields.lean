import Mathlib.Data.List.Basic

/-!
# Fields of a word

Assignments to a range of bits of a wider word, and a word filled with narrower ones from
the low end.
-/

namespace Fields

variable {n k : Nat}

/-- `x(lo + k - 1, lo) = v`. -/
def setRange (x : BitVec n) (lo : Nat) (v : BitVec k) : BitVec n :=
  (x &&& ~~~(BitVec.setWidth n (BitVec.allOnes k) <<< lo)) ||| (BitVec.setWidth n v <<< lo)

/-- `x(lo + k - 1, lo)`. -/
def range (x : BitVec n) (lo k : Nat) : BitVec k := x.extractLsb' lo k

/-- The words `ds` written one after the other, from word `j` on. -/
def fillFrom (x : BitVec n) : Nat → List (BitVec k) → BitVec n
  | _, [] => x
  | j, d :: ds => fillFrom (setRange x (j * k) d) (j + 1) ds

def fill (x : BitVec n) (ds : List (BitVec k)) : BitVec n := fillFrom x 0 ds

@[simp] theorem getLsbD_setRange (x : BitVec n) (lo : Nat) (v : BitVec k) (i : Nat) :
    (setRange x lo v).getLsbD i =
      if lo ≤ i ∧ i < lo + k then decide (i < n) && v.getLsbD (i - lo) else x.getLsbD i := by
  unfold setRange
  simp only [BitVec.getLsbD_or, BitVec.getLsbD_and, BitVec.getLsbD_not, BitVec.getLsbD_shiftLeft,
    BitVec.getLsbD_setWidth, BitVec.getLsbD_allOnes]
  by_cases hn : i < n
  · have hn' : i - lo < n := by omega
    by_cases hlo : i < lo
    · simp [hn, hlo, show ¬ lo ≤ i by omega]
    · by_cases hk : i - lo < k
      · simp [hn, hn', hlo, hk, show lo ≤ i by omega, show i < lo + k by omega]
      · simp [hn, hn', hlo, hk, show ¬ i < lo + k by omega, BitVec.getLsbD_of_ge v (i - lo) (by omega)]
  · have hx : x.getLsbD i = false := BitVec.getLsbD_of_ge x i (by omega)
    simp [hn, hx]

@[simp] theorem getLsbD_range (x : BitVec n) (lo k i : Nat) :
    (range x lo k).getLsbD i = (decide (i < k) && x.getLsbD (lo + i)) :=
  BitVec.getLsbD_extractLsb' lo k x i

theorem getLsbD_fillFrom (hk : 0 < k) (ds : List (BitVec k)) : ∀ (x : BitVec n) (j i : Nat), i < n →
    (fillFrom x j ds).getLsbD i =
      if j * k ≤ i ∧ i < (j + ds.length) * k then (ds.getD (i / k - j) 0).getLsbD (i % k)
      else x.getLsbD i := by
  induction ds with
  | nil =>
    intro x j i _
    rw [if_neg (by simp), fillFrom]
  | cons d ds ih =>
    intro x j i hi
    have hmul : i / k * k + i % k = i := Nat.div_add_mod' i k
    have hmod : i % k < k := Nat.mod_lt i hk
    have hsucc : (j + 1) * k = j * k + k := Nat.succ_mul j k
    have hend : (j + (ds.length + 1)) * k = (j + 1 + ds.length) * k := by
      rw [Nat.add_right_comm, Nat.add_assoc]
    rw [fillFrom, ih _ _ _ hi, getLsbD_setRange, List.length_cons, hend]
    have hlen : (j + 1) * k ≤ (j + 1 + ds.length) * k := Nat.mul_le_mul_right k (by omega)
    by_cases hlow : i < j * k
    · rw [if_neg (by omega), if_neg (by omega), if_neg (by omega)]
    · by_cases hhigh : i < (j + 1) * k
      · -- Word `j` itself.
        have hdiv : i / k = j := Nat.div_eq_of_lt_le (by omega) hhigh
        rw [hdiv] at hmul
        rw [if_neg (by omega), if_pos (by omega), if_pos (by omega), hdiv, Nat.sub_self,
          show i - j * k = i % k by omega]
        simp [hi]
      · have hdiv : j + 1 ≤ i / k := (Nat.le_div_iff_mul_le hk).2 (by omega)
        by_cases hin : i < (j + 1 + ds.length) * k
        · rw [if_pos (by omega), if_pos (by omega), show i / k - j = i / k - (j + 1) + 1 by omega,
            List.getD_cons_succ]
        · rw [if_neg (by omega), if_neg (by omega), if_neg (by omega)]

/-- A word that is filled up holds nothing of what was in it. -/
theorem getLsbD_fill (hk : 0 < k) {ds : List (BitVec k)} (hds : ds.length * k = n) (x : BitVec n)
    {i : Nat} (hi : i < n) : (fill x ds).getLsbD i = (ds.getD (i / k) 0).getLsbD (i % k) := by
  unfold fill
  rw [getLsbD_fillFrom hk ds x 0 i hi, if_pos ⟨by omega, by rw [Nat.zero_add]; omega⟩, Nat.sub_zero]

theorem fill_congr (hk : 0 < k) (ds : List (BitVec k)) (hds : ds.length * k = n) (x y : BitVec n) :
    fill x ds = fill y ds := by
  apply BitVec.eq_of_getLsbD_eq
  intro i hi
  rw [getLsbD_fill hk hds x hi, getLsbD_fill hk hds y hi]

/-- A word of single bits. -/
theorem getLsbD_fill_bits (bs : List Bool) (hbs : bs.length = n) (x : BitVec n) {i : Nat}
    (hi : i < n) : (fill x (bs.map BitVec.ofBool)).getLsbD i = bs.getD i false := by
  rw [getLsbD_fill (by decide) (by simpa using hbs) x hi, Nat.div_one, Nat.mod_one]
  have hi' : i < bs.length := by omega
  simp [List.getD_eq_getElem?_getD, hi']

/-- Cut into pieces and filled up again, a word is what it was. -/
theorem fill_pieces (hk : 0 < k) {m : Nat} (hm : m * k = n) (x y : BitVec n) :
    fill x ((List.range m).map fun j => range y (j * k) k) = y := by
  apply BitVec.eq_of_getLsbD_eq
  intro i hi
  have hdiv : i / k < m := Nat.div_lt_of_lt_mul (by rw [Nat.mul_comm]; omega)
  have hpiece : ((List.range m).map fun j => range y (j * k) k).getD (i / k) 0 =
      range y (i / k * k) k := by
    simp [List.getD_eq_getElem?_getD, hdiv]
  rw [getLsbD_fill hk (by simpa using hm) x hi, hpiece, getLsbD_range, Nat.div_add_mod' i k]
  simp [Nat.mod_lt i hk]

/-- A piece of a word that was filled up is the word that was put there. -/
theorem range_fill (hk : 0 < k) (ds : List (BitVec k)) (hds : ds.length * k = n) (x : BitVec n)
    {j : Nat} (hj : j < ds.length) : range (fill x ds) (j * k) k = ds.getD j 0 := by
  apply BitVec.eq_of_getLsbD_eq
  intro i hi
  have hend : (j + 1) * k ≤ ds.length * k := Nat.mul_le_mul_right k hj
  rw [Nat.succ_mul] at hend
  have hdiv : (j * k + i) / k = j := by
    rw [Nat.mul_comm, Nat.mul_add_div hk, Nat.div_eq_of_lt hi, Nat.add_zero]
  have hmod : (j * k + i) % k = i := by
    rw [Nat.mul_comm, Nat.mul_add_mod, Nat.mod_eq_of_lt hi]
  rw [getLsbD_range, getLsbD_fill hk hds x (by omega), hdiv, hmod]
  simp [hi]

theorem pieces_fill (hk : 0 < k) (ds : List (BitVec k)) (hds : ds.length * k = n) (x : BitVec n) :
    ((List.range ds.length).map fun j => range (fill x ds) (j * k) k) = ds := by
  apply List.ext_getElem (by simp)
  intro j _ hj
  rw [List.getElem_map, List.getElem_range, range_fill hk ds hds x hj]
  simp [List.getD_eq_getElem?_getD, hj]

theorem range_setRange {lo : Nat} (hlo : lo + k ≤ n) (x : BitVec n) (v : BitVec k) :
    range (setRange x lo v) lo k = v := by
  apply BitVec.eq_of_getLsbD_eq
  intro i hi
  rw [getLsbD_range, getLsbD_setRange, if_pos (by omega), Nat.add_sub_cancel_left]
  simp [hi, show lo + i < n by omega]

theorem range_range {l lo lo' : Nat} (hl : lo' + l ≤ k) (x : BitVec n) :
    range (range x lo k) lo' l = range x (lo + lo') l := by
  apply BitVec.eq_of_getLsbD_eq
  intro i hi
  rw [getLsbD_range, getLsbD_range, getLsbD_range, Nat.add_assoc]
  simp [show lo' + i < k by omega]

/-- A part of one of the words that were put into a word. -/
theorem range_fill_part {l lo : Nat} (hl : lo + l ≤ k) (ds : List (BitVec k))
    (hds : ds.length * k = n) (x : BitVec n) {j : Nat} (hj : j < ds.length) :
    range (fill x ds) (j * k + lo) l = range (ds.getD j 0) lo l := by
  apply BitVec.eq_of_getLsbD_eq
  intro i hi
  have hk : 0 < k := by omega
  have hpiece : (range (fill x ds) (j * k) k).getLsbD (lo + i) = (ds.getD j 0).getLsbD (lo + i) := by
    rw [range_fill hk ds hds x hj]
  rw [getLsbD_range] at hpiece
  rw [getLsbD_range, getLsbD_range, ← hpiece, Nat.add_assoc]
  simp [show lo + i < k by omega]

end Fields
