import Mathlib.Data.List.Nodup
import Mathlib.Data.List.Range
import Mathlib.Data.Nat.ModEq
import Mathlib.Tactic.Common

/-!
# Rows of a ring

Slots of a ring of `size` are taken from slot `i` on, as many at a time as there are up to the
end of the ring.  The rows go through the slots `i`, `i + 1`, … counted round the ring
(`slots_rows`), so that no slot is taken twice exactly when no more are taken than there are
(`nodup_rows_iff`).
-/

namespace Rows

/-- The rows in which `n` slots are taken: where each begins, and its length. -/
def rows (size i n : Nat) : List (Nat × Nat) :=
  if _h : min n (size - i) = 0 then []
  else (i, min n (size - i)) :: rows size ((i + min n (size - i)) % size) (n - min n (size - i))
termination_by n
decreasing_by omega

/-- The slots of a row. -/
def slots (r : Nat × Nat) : List Nat := List.range' r.1 r.2

variable {size i n : Nat}

theorem rows_zero (size i : Nat) : rows size i 0 = [] := by
  rw [rows, dif_pos (Nat.zero_min _)]

/-- All the slots fit before the end. -/
theorem rows_inside (hn : 0 < n) (h : i + n ≤ size) : rows size i n = [(i, n)] := by
  have hmin : min n (size - i) = n := by omega
  rw [rows, dif_neg (by omega), hmin, Nat.sub_self, rows_zero]

/-- The first row goes up to the end, and the next one begins at slot 0. -/
theorem rows_wrap (hi : i < size) (h : size < i + n) :
    rows size i n = (i, size - i) :: rows size 0 (n - (size - i)) := by
  have hmin : min n (size - i) = size - i := by omega
  have hend : i + (size - i) = size := by omega
  rw [rows, dif_neg (by omega), hmin, hend, Nat.mod_self]

/-- One row after another. -/
theorem rows_cases (hi : i < size) (hn : 0 < n) :
    (i + n ≤ size ∧ rows size i n = [(i, n)]) ∨
    (size < i + n ∧ rows size i n = (i, size - i) :: rows size 0 (n - (size - i))) := by
  by_cases h : i + n ≤ size
  · exact .inl ⟨h, rows_inside hn h⟩
  · exact .inr ⟨by omega, rows_wrap hi (by omega)⟩

theorem length_rows_pos (hi : i < size) (hn : 0 < n) : 0 < (rows size i n).length := by
  rcases rows_cases hi hn with ⟨-, heq⟩ | ⟨-, heq⟩
  · rw [heq]
    exact Nat.one_pos
  · rw [heq]
    exact Nat.succ_pos _

/-- The rows are the next slots round the ring. -/
theorem slots_rows (hi : i < size) :
    (rows size i n).flatMap slots = (List.range n).map fun j => (i + j) % size := by
  induction n using Nat.strongRecOn generalizing i with
  | ind n ih =>
    have hrow : ∀ k, i + k ≤ size → slots (i, k) = (List.range k).map fun j => (i + j) % size := by
      intro k hk
      unfold slots
      rw [List.range'_eq_map_range]
      refine List.map_congr_left fun j hj => ?_
      rw [Nat.mod_eq_of_lt]
      have hlt := List.mem_range.1 hj
      omega
    rcases Nat.eq_zero_or_pos n with rfl | hn
    · rw [rows_zero]
      rfl
    rcases rows_cases hi hn with ⟨hfit, heq⟩ | ⟨hwrap, heq⟩
    · rw [heq, List.flatMap_singleton]
      exact hrow n hfit
    · rw [heq, List.flatMap_cons, ih (n - (size - i)) (by omega) (by omega), hrow _ (by omega)]
      have hsplit : n = size - i + (n - (size - i)) := by omega
      rw [show List.range n = List.range (size - i + (n - (size - i))) by rw [← hsplit],
        List.range_add, List.map_append, List.map_map]
      congr 1
      refine List.map_congr_left fun j _ => ?_
      show (0 + j) % size = (i + (size - i + j)) % size
      rw [show i + (size - i + j) = 0 + j + size by omega, Nat.add_mod_right]

/-- **No slot is taken twice** exactly when no more are taken than there are. -/
theorem nodup_rows_iff (hi : i < size) : ((rows size i n).flatMap slots).Nodup ↔ n ≤ size := by
  rw [slots_rows hi]
  constructor
  · intro hnodup
    by_contra hn
    have hinj := List.inj_on_of_nodup_map hnodup (x := 0) (List.mem_range.2 (by omega)) (y := size)
      (List.mem_range.2 (by omega)) (by
        show (i + 0) % size = (i + size) % size
        rw [Nat.add_mod_right, Nat.add_zero])
    omega
  · intro hn
    refine List.Nodup.map_on (fun j hj k hk heq => ?_) List.nodup_range
    have hj := List.mem_range.1 hj
    have hk := List.mem_range.1 hk
    have hmod : j % size = k % size := Nat.ModEq.add_left_cancel' i heq
    rwa [Nat.mod_eq_of_lt (by omega), Nat.mod_eq_of_lt (by omega)] at hmod

/-- Two rows are enough exactly up to the end of the next round. -/
theorem length_rows_le_two_iff (hi : i < size) : (rows size i n).length ≤ 2 ↔ n ≤ size - i + size := by
  rcases Nat.eq_zero_or_pos n with rfl | hn
  · rw [rows_zero]
    simp
  rcases rows_cases hi hn with ⟨hfit, heq⟩ | ⟨hwrap, heq⟩
  · rw [heq, List.length_singleton]
    omega
  · have hzero : 0 < size := by omega
    rw [heq, List.length_cons]
    rcases rows_cases hzero (show 0 < n - (size - i) by omega) with ⟨hfit, heq'⟩ | ⟨hwrap', heq'⟩
    · rw [heq', List.length_singleton]
      omega
    · rw [heq', List.length_cons]
      rcases rows_cases hzero (show 0 < n - (size - i) - (size - 0) by omega) with
        ⟨-, heq''⟩ | ⟨-, heq''⟩
      · rw [heq'', List.length_singleton]
        omega
      · rw [heq'', List.length_cons]
        omega

end Rows
