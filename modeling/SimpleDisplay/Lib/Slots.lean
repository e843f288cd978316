import Mathlib.Data.List.Induction
import Mathlib.Data.List.Range
import Mathlib.Logic.Function.Basic

/-!
# Loops over the slots of an array

`forSlots base n f d` is the loop `for (i = 0; i < n; i++) d[base + i] = f(i, d[base + i])`.
Each slot of the range is changed once (`forSlots_in`), and no other (`forSlots_out`).
-/

namespace Slots

variable {α : Type*}

/-- Writes one slot. -/
def set (d : Nat → α) (i : Nat) (v : α) : Nat → α := fun j => if j = i then v else d j

def forSlots (base n : Nat) (f : Nat → α → α) (d : Nat → α) : Nat → α :=
  (List.range n).foldl (fun d i => set d (base + i) (f i (d (base + i)))) d

@[simp] theorem set_same (d : Nat → α) (i : Nat) (v : α) : set d i v i = v := if_pos rfl

theorem set_of_ne {d : Nat → α} {i j : Nat} {v : α} (h : j ≠ i) : set d i v j = d j := if_neg h

theorem forSlots_succ (base n : Nat) (f : Nat → α → α) (d : Nat → α) :
    forSlots base (n + 1) f d =
      set (forSlots base n f d) (base + n) (f n (forSlots base n f d (base + n))) := by
  unfold forSlots
  rw [List.range_succ, List.foldl_append]
  rfl

theorem forSlots_out {base n j : Nat} (f : Nat → α → α) (d : Nat → α) (h : j < base ∨ base + n ≤ j) :
    forSlots base n f d j = d j := by
  induction n with
  | zero => rfl
  | succ n ih =>
    rw [forSlots_succ, set_of_ne (by omega)]
    exact ih (by omega)

theorem forSlots_in {base n i : Nat} (f : Nat → α → α) (d : Nat → α) (h : i < n) :
    forSlots base n f d (base + i) = f i (d (base + i)) := by
  induction n with
  | zero => omega
  | succ n ih =>
    rw [forSlots_succ]
    by_cases hi : i = n
    · rw [hi, set_same, forSlots_out f d (by omega)]
    · rw [set_of_ne (by omega)]
      exact ih (by omega)

end Slots
