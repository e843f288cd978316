import Mathlib.Algebra.BigOperators.Group.List.Basic
import Mathlib.Algebra.Ring.Nat
import Mathlib.Tactic.Common

/-!
# Slices of a sequence

`slice b i j` is `b[i:j]` and `splice b i xs` the assignment `b[i:i + len(xs)] = xs` of a
language with byte strings.  A slice sees its own positions only (`slice_congr`), and a
splice inside the sequence changes just its own (`getElem?_splice`).
-/

namespace Slice

variable {α : Type*}

def slice (b : List α) (i j : Nat) : List α := (b.take j).drop i

def splice (b : List α) (i : Nat) (xs : List α) : List α :=
  b.take i ++ xs ++ b.drop (i + xs.length)

section

variable {b b' xs : List α} {i j k : Nat}

theorem getElem?_slice : (slice b i j)[k]? = if i + k < j then b[i + k]? else none := by
  unfold slice
  rw [List.getElem?_drop, List.getElem?_take]

theorem slice_congr (h : ∀ k, i ≤ k → k < j → b[k]? = b'[k]?) : slice b i j = slice b' i j := by
  apply List.ext_getElem?
  intro k
  rw [getElem?_slice, getElem?_slice]
  by_cases hk : i + k < j
  · rw [if_pos hk, if_pos hk, h _ (Nat.le_add_right i k) hk]
  · rw [if_neg hk, if_neg hk]

/-- A slice that is `xs` has `xs` at its positions. -/
theorem slice_eq_iff : slice b i (i + xs.length) = xs ↔ ∀ k < xs.length, b[i + k]? = xs[k]? := by
  constructor
  · intro h k hk
    have hget : (slice b i (i + xs.length))[k]? = xs[k]? := by rw [h]
    rwa [getElem?_slice, if_pos (by omega)] at hget
  · intro h
    apply List.ext_getElem?
    intro k
    rw [getElem?_slice]
    by_cases hk : k < xs.length
    · rw [if_pos (by omega), h k hk]
    · rw [if_neg (by omega), List.getElem?_eq_none (by omega)]

theorem slice_inside (h : slice b i (i + xs.length) = xs) (hpos : 0 < xs.length) :
    i + xs.length ≤ b.length := by
  have hlen := congrArg List.length h
  unfold slice at hlen
  rw [List.length_drop, List.length_take] at hlen
  omega

/-- Another sequence has the slice just when it has the same elements there. -/
theorem slice_same_iff (h : slice b i (i + xs.length) = xs) :
    slice b' i (i + xs.length) = xs ↔ ∀ k, i ≤ k → k < i + xs.length → b'[k]? = b[k]? := by
  constructor
  · intro h' k hi hk
    obtain ⟨n, rfl⟩ := Nat.exists_eq_add_of_le hi
    rw [slice_eq_iff.1 h' n (by omega), slice_eq_iff.1 h n (by omega)]
  · intro hsame
    rw [slice_congr hsame, h]

/-- What a splice does to a sum. -/
theorem sum_splice (b : List α) (i : Nat) (xs : List α) (f : α → Nat) :
    ((splice b i xs).map f).sum + ((slice b i (i + xs.length)).map f).sum =
      (b.map f).sum + (xs.map f).sum := by
  have hparts : b = b.take i ++ slice b i (i + xs.length) ++ b.drop (i + xs.length) := by
    unfold slice
    conv_lhs => rw [← List.take_append_drop (i + xs.length) b]
    congr 1
    conv_lhs => rw [← List.take_append_drop i (b.take (i + xs.length))]
    rw [List.take_take, Nat.min_eq_left (by omega)]
  have hsum := congrArg (fun l => (l.map f).sum) hparts
  unfold splice
  simp only [List.map_append, List.sum_append] at hsum ⊢
  omega

variable (hin : i + xs.length ≤ b.length)
include hin

theorem length_splice : (splice b i xs).length = b.length := by
  unfold splice
  simp only [List.length_append, List.length_take, List.length_drop]
  omega

theorem getElem?_splice :
    (splice b i xs)[k]? = if i ≤ k ∧ k < i + xs.length then xs[k - i]? else b[k]? := by
  have htake : (b.take i).length = i := by
    rw [List.length_take]
    omega
  unfold splice
  rw [List.append_assoc]
  by_cases hlow : k < i
  · rw [List.getElem?_append_left (by omega), if_neg (by omega), List.getElem?_take, if_pos hlow]
  · rw [List.getElem?_append_right (by omega), htake]
    by_cases hhigh : k < i + xs.length
    · rw [List.getElem?_append_left (by omega), if_pos (by omega)]
    · rw [List.getElem?_append_right (by omega), if_neg (by omega), List.getElem?_drop]
      congr 1
      omega

end

end Slice
