import Mathlib.Tactic.Common
import Mathlib.Data.Int.ModEq

/-!
# C integer conversions

The values of C's fixed-width integers are kept as `Nat` and `Int`; `u32`, `s32` and
`u64` are the conversions that an assignment or a mixed-sign operation makes.
-/

namespace Word

def u32 (x : Int) : Nat := (x % 4294967296).toNat

def s32 (x : Int) : Int := Int.bmod x 4294967296

def u64 (x : Nat) : Nat := x % 18446744073709551616

theorem u32_of_range (x : Int) (h0 : 0 ≤ x) (h1 : x < 4294967296) : (u32 x : Int) = x := by
  unfold u32; omega

theorem u32_natCast (n : Nat) : u32 n = n % 4294967296 := by
  unfold u32; omega

theorem s32_of_range (x : Int) (h0 : -2147483648 ≤ x) (h1 : x < 2147483648) : s32 x = x := by
  unfold s32
  rw [Int.bmod_def]
  split <;> omega

theorem u64_lt (x : Nat) : u64 x < 2 ^ 64 := Nat.mod_lt _ (by decide)

theorem u64_of_lt {x : Nat} (h : x < 18446744073709551616) : u64 x = x := Nat.mod_eq_of_lt h

end Word
