import Mathlib.Algebra.Ring.Nat
import Mathlib.Tactic.Common

/-!
# Unsigned arithmetic that remembers wrap-around

A `Word w` is a `w`-bit value together with whether an operation that formed it left the
range.  A test hands that fact to the `Flagged` computation that makes it, so the flag of a
run says whether anything it depended on had wrapped.
-/

namespace Wrap

structure Word (w : Nat) where
  val : BitVec w
  wrapped : Bool
  deriving DecidableEq, Repr

abbrev Flagged := StateM Bool

namespace Word

variable {w : Nat}

/-- A value that no operation formed. -/
def ofBits (x : BitVec w) : Word w := ⟨x, false⟩

def nat (w n : Nat) : Word w := ofBits (BitVec.ofNat w n)

instance : Add (Word w) where
  add x y := ⟨x.val + y.val, x.wrapped || y.wrapped || BitVec.uaddOverflow x.val y.val⟩

instance : Sub (Word w) where
  sub x y := ⟨x.val - y.val, x.wrapped || y.wrapped || BitVec.usubOverflow x.val y.val⟩

instance : OrOp (Word w) where
  or x y := ⟨x.val ||| y.val, x.wrapped || y.wrapped⟩

instance : AndOp (Word w) where
  and x y := ⟨x.val &&& y.val, x.wrapped || y.wrapped⟩

def test (p : Nat → Nat → Bool) (x y : Word w) : Flagged Bool := fun flag =>
  (p x.val.toNat y.val.toNat, flag || x.wrapped || y.wrapped)

def lt (x y : Word w) : Flagged Bool := test (fun a b => decide (a < b)) x y
def gt (x y : Word w) : Flagged Bool := test (fun a b => decide (b < a)) x y
def ge (x y : Word w) : Flagged Bool := test (fun a b => decide (b ≤ a)) x y
def eq (x y : Word w) : Flagged Bool := test (fun a b => decide (a = b)) x y
def ne (x y : Word w) : Flagged Bool := test (fun a b => decide (a ≠ b)) x y

/-! ## Words that are numbers -/

theorem ofBits_eq_nat (x : BitVec w) : ofBits x = nat w x.toNat := by
  unfold nat
  rw [BitVec.ofNat_toNat, BitVec.setWidth_eq]

@[simp] theorem nat_toNat {n : Nat} (h : n < 2 ^ w) : (nat w n).val.toNat = n := by
  show (BitVec.ofNat w n).toNat = n
  rw [BitVec.toNat_ofNat, Nat.mod_eq_of_lt h]

theorem nat_add {a b : Nat} (h : a + b < 2 ^ w) : nat w a + nat w b = nat w (a + b) := by
  have hover : BitVec.uaddOverflow (nat w a).val (nat w b).val = false := by
    rw [BitVec.uaddOverflow, nat_toNat (by omega), nat_toNat (by omega)]
    simpa using h
  show Word.mk _ (false || false || _) = Word.mk _ false
  rw [hover, Word.mk.injEq]
  exact ⟨BitVec.ofNat_add_ofNat a b, rfl⟩

theorem nat_sub {a b : Nat} (ha : a < 2 ^ w) (h : b ≤ a) : nat w a - nat w b = nat w (a - b) := by
  have hover : BitVec.usubOverflow (nat w a).val (nat w b).val = false := by
    rw [BitVec.usubOverflow, nat_toNat ha, nat_toNat (by omega)]
    simpa using h
  show Word.mk _ (false || false || _) = Word.mk _ false
  rw [hover, Word.mk.injEq]
  exact ⟨BitVec.ofNat_sub_ofNat_of_le a b (by omega) h, rfl⟩

theorem nat_or (a b : Nat) : nat w a ||| nat w b = nat w (a ||| b) := by
  show Word.mk _ (false || false) = Word.mk _ false
  rw [Word.mk.injEq]
  exact ⟨BitVec.ofNat_or.symm, rfl⟩

theorem nat_and (a b : Nat) : nat w a &&& nat w b = nat w (a &&& b) := by
  show Word.mk _ (false || false) = Word.mk _ false
  rw [Word.mk.injEq]
  exact ⟨BitVec.ofNat_and.symm, rfl⟩

/-! ## Tests of numbers leave the flag as it is -/

theorem test_nat (p : Nat → Nat → Bool) {a b : Nat} (ha : a < 2 ^ w) (hb : b < 2 ^ w) :
    test p (nat w a) (nat w b) = pure (p a b) := by
  funext flag
  show (p (nat w a).val.toNat (nat w b).val.toNat, flag || false || false) = (p a b, flag)
  rw [nat_toNat ha, nat_toNat hb, Bool.or_false, Bool.or_false]

section

variable {a b : Nat} (ha : a < 2 ^ w) (hb : b < 2 ^ w)
include ha hb

theorem lt_nat : (nat w a).lt (nat w b) = pure (decide (a < b)) := test_nat _ ha hb
theorem gt_nat : (nat w a).gt (nat w b) = pure (decide (b < a)) := test_nat _ ha hb
theorem ge_nat : (nat w a).ge (nat w b) = pure (decide (b ≤ a)) := test_nat _ ha hb
theorem eq_nat : (nat w a).eq (nat w b) = pure (decide (a = b)) := test_nat _ ha hb
theorem ne_nat : (nat w a).ne (nat w b) = pure (decide (a ≠ b)) := test_nat _ ha hb

end

end Word

/-- A disjunction whose first part is decided. -/
theorem pure_orM (p : Bool) (y : Flagged Bool) :
    (pure p <||> y) = if p then pure true else y := by
  cases p <;> rfl

theorem pure_orM_pure (p q : Bool) :
    ((pure p : Flagged Bool) <||> pure q) = (pure (p || q) : Flagged Bool) := by
  cases p <;> rfl

end Wrap
