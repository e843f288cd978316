import Mathlib.Data.List.Range
import Mathlib.Tactic.Common

/-!
# Chains that are read in bursts

An element of a chain says where the next one is, how many more lie behind that one, and
whether the chain ends with it.  A reader fetches a whole burst at a time.  A chain that
lies in a row is read element by element, each once, and nothing behind its end
(`InRow.fetch_eq`).
-/

namespace Chain

variable {α : Type*}

structure Links (α : Type*) where
  next : α → Nat
  more : α → Nat
  stop : α → Bool

/-- The elements of a burst: an address and a count. -/
def burst (size : Nat) (mem : Nat → α) (b : Nat × Nat) : List α :=
  (List.range b.2).map fun k => mem (b.1 + size * k)

/-- The bursts that are read from `b` on, until one of them has the end of the chain. -/
def fetch (links : Links α) (size : Nat) (mem : Nat → α) : (fuel : Nat) → (b : Nat × Nat) →
    Option (List (Nat × Nat))
  | 0, _ => none
  | fuel + 1, b =>
    if (burst size mem b).any links.stop then some [b]
    else
      let last := mem (b.1 + size * (b.2 - 1))
      (fetch links size mem fuel (links.next last, links.more last + 1)).map (b :: ·)

/-- `n` elements lie in a row from `base` on. -/
structure InRow (links : Links α) (size : Nat) (mem : Nat → α) (base n : Nat) : Prop where
  stop : ∀ i < n, links.stop (mem (base + size * i)) = true ↔ i + 1 = n
  next : ∀ i, i + 1 < n → links.next (mem (base + size * i)) = base + size * (i + 1)
  more : ∀ i, i + 1 < n → i + 1 + links.more (mem (base + size * i)) < n

variable {links : Links α} {size : Nat} {mem : Nat → α} {base n : Nat}

theorem burst_row (i k : Nat) : burst size mem (base + size * i, k) =
    (List.range' i k).map fun j => mem (base + size * j) := by
  unfold burst
  rw [List.range'_eq_map_range, List.map_map]
  refine List.map_congr_left fun j _ => ?_
  show mem (base + size * i + size * j) = mem (base + size * (i + j))
  rw [Nat.mul_add, Nat.add_assoc]

theorem InRow.any_stop (h : InRow links size mem base n) {i k : Nat} (hk : 0 < k) (hik : i + k ≤ n) :
    (burst size mem (base + size * i, k)).any links.stop = decide (i + k = n) := by
  rw [burst_row, Bool.eq_iff_iff, List.any_eq_true, decide_eq_true_iff]
  constructor
  · rintro ⟨a, ha, hstop⟩
    obtain ⟨j, hj, rfl⟩ := List.mem_map.1 ha
    rw [List.mem_range'_1] at hj
    have hlast := (h.stop j (by omega)).1 hstop
    omega
  · intro hlast
    refine ⟨_, List.mem_map_of_mem (a := i + k - 1) ?_, (h.stop (i + k - 1) (by omega)).2 (by omega)⟩
    rw [List.mem_range'_1]
    omega

/-- Each burst is the first one or the one that an element of the chain asks for. -/
theorem InRow.fetch_eq (h : InRow links size mem base n) (fuel : Nat) {i k : Nat} (hk : 0 < k)
    (hik : i + k ≤ n) (hfuel : n ≤ i + fuel) :
    ∃ bursts, fetch links size mem fuel (base + size * i, k) = some bursts ∧
      bursts.flatMap (burst size mem) = (List.range' i (n - i)).map (fun j => mem (base + size * j)) ∧
      ∀ b ∈ bursts, b = (base + size * i, k) ∨
        ∃ j, j + 1 < n ∧ b = (base + size * (j + 1), links.more (mem (base + size * j)) + 1) := by
  induction fuel generalizing i k with
  | zero => omega
  | succ fuel ih =>
    unfold fetch
    rw [h.any_stop hk hik]
    by_cases hlast : i + k = n
    · rw [if_pos (decide_eq_true hlast)]
      refine ⟨_, rfl, ?_, fun b hb => .inl (List.mem_singleton.1 hb)⟩
      rw [List.flatMap_singleton, burst_row]
      congr 2
      omega
    · have hnext := h.next (i + k - 1) (by omega)
      have hmore := h.more (i + k - 1) (by omega)
      have hprev : base + size * i + size * (k - 1) = base + size * (i + k - 1) := by
        rw [Nat.add_assoc, ← Nat.mul_add, Nat.add_sub_assoc hk]
      have hstep : i + k - 1 + 1 = i + k := by omega
      rw [hstep] at hnext hmore
      obtain ⟨bursts, hrun, hall, hasked⟩ :=
        ih (i := i + k) (k := links.more (mem (base + size * (i + k - 1))) + 1) (by omega) (by omega)
          (by omega)
      rw [if_neg (by simpa using hlast)]
      dsimp only
      rw [hprev, hnext, hrun]
      refine ⟨_, rfl, ?_, fun b hb => ?_⟩
      · rw [List.flatMap_cons, hall, burst_row, ← List.map_append]
        congr 1
        rw [show n - i = k + (n - (i + k)) by omega, ← List.range'_append_1]
      · rcases List.mem_cons.1 hb with rfl | hb
        · exact .inl rfl
        · rcases hasked b hb with rfl | hj
          · exact .inr ⟨i + k - 1, by omega, by rw [hstep]⟩
          · exact .inr hj

end Chain
