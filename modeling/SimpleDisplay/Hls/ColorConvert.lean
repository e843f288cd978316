import Mathlib.Algebra.Ring.Int.Defs
import SimpleDisplay.Lib.AxiStream
import SimpleDisplay.Lib.Fields

/-!
# Color conversion

`color_convert` in exact arithmetic: the components are `ap_ufixed<8,0>`, the coefficients
`ap_fixed<10,2>`, so a sum of products has 16 fractional bits before it is rounded
(`AP_RND`) and saturated (`AP_SAT`) to a component again.
-/

namespace Hls

open AxiStream Fields

/-- `struct coeffs`, each by its bits. -/
structure Coeffs where
  c1 : BitVec 10
  c2 : BitVec 10
  c3 : BitVec 10

/-- A value with 16 fractional bits as a component. -/
def toComp (x : Int) : BitVec 8 :=
  let rounded := (x + 2 ^ 7) / 2 ^ 8
  if rounded < 0 then 0 else if 255 < rounded then 255 else BitVec.ofInt 8 rounded

def convertComp (data : BitVec 24) (c : Coeffs) (bias : BitVec 10) : BitVec 8 :=
  toComp ((range data 0 8).toNat * c.c1.toInt + (range data 8 8).toNat * c.c2.toInt +
    (range data 16 8).toNat * c.c3.toInt + bias.toInt * 2 ^ 8)

/-- `color_convert` on the data of one pixel. -/
def convertData (c1 c2 c3 bias : Coeffs) (data : BitVec 24) : BitVec 24 :=
  convertComp data c3 bias.c3 ++ (convertComp data c2 bias.c2 ++ convertComp data c1 bias.c1)

def colorConvert (c1 c2 c3 bias : Coeffs) : Core 24 24
  | [] => none
  | p :: input => some ([{ p with data := convertData c1 c2 c3 bias p.data }], input)

/-- Each component times one. -/
def identityC1 : Coeffs := ⟨256, 0, 0⟩
def identityC2 : Coeffs := ⟨0, 256, 0⟩
def identityC3 : Coeffs := ⟨0, 0, 256⟩
def noBias : Coeffs := ⟨0, 0, 0⟩

theorem toComp_exact (c : BitVec 8) : toComp (c.toNat * 2 ^ 8) = c := by
  have hc := c.isLt
  have hround : ((c.toNat : Int) * 2 ^ 8 + 2 ^ 7) / 2 ^ 8 = c.toNat := by omega
  unfold toComp
  dsimp only
  rw [hround, if_neg (by omega), if_neg (by omega)]
  apply BitVec.eq_of_toNat_eq
  rw [BitVec.ofInt_natCast, BitVec.toNat_ofNat]
  omega

/-- The coefficient 256 is one. -/
theorem toInt_one : (256 : BitVec 10).toInt = 2 ^ 8 := by decide

/-- The components of a pixel, put together again. -/
theorem range_append (data : BitVec 24) :
    range data 16 8 ++ (range data 8 8 ++ range data 0 8) = data := by
  apply BitVec.eq_of_getLsbD_eq
  intro i hi
  rw [BitVec.getLsbD_append, BitVec.getLsbD_append, getLsbD_range, getLsbD_range, getLsbD_range]
  by_cases h8 : i < 8
  · simp [h8, show i < 8 + 8 by omega]
  · by_cases h16 : i < 8 + 8
    · simp [h8, h16, show i - 8 < 8 by omega, show 8 + (i - 8) = i by omega]
    · simp [h16, show i - (8 + 8) < 8 by omega, show 16 + (i - (8 + 8)) = i by omega]

theorem convertData_identity (data : BitVec 24) :
    convertData identityC1 identityC2 identityC3 noBias data = data := by
  have hzero : (0 : BitVec 10).toInt = 0 := rfl
  have h1 : convertComp data identityC1 0 = range data 0 8 := by
    simp only [convertComp, identityC1, hzero, toInt_one, mul_zero, zero_mul, add_zero]
    exact toComp_exact _
  have h2 : convertComp data identityC2 0 = range data 8 8 := by
    simp only [convertComp, identityC2, hzero, toInt_one, mul_zero, zero_mul, add_zero, zero_add]
    exact toComp_exact _
  have h3 : convertComp data identityC3 0 = range data 16 8 := by
    simp only [convertComp, identityC3, hzero, toInt_one, mul_zero, zero_mul, add_zero, zero_add]
    exact toComp_exact _
  show convertComp data identityC3 0 ++ (convertComp data identityC2 0 ++
    convertComp data identityC1 0) = data
  rw [h1, h2, h3, range_append]

/-- The core is started for every pixel. -/
theorem colorConvert_stream (c1 c2 c3 bias : Coeffs) (pixels rest : List (Beat 24)) :
    activations (colorConvert c1 c2 c3 bias) pixels.length (pixels ++ rest) =
      some (pixels.map fun p => { p with data := convertData c1 c2 c3 bias p.data }, rest) := by
  induction pixels with
  | nil => rfl
  | cons p pixels ih =>
    show (activations (colorConvert c1 c2 c3 bias) pixels.length (pixels ++ rest)).map _ = _
    rw [ih]
    rfl

end Hls
