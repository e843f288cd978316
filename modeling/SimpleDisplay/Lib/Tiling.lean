import Mathlib.Data.List.Range
import SimpleDisplay.Lib.Blocks

/-!
# Tilings

`Tiles start len lo l hi` says that the spans of `l` follow each other from `lo` to `hi`.
They then cover every number in between, each once and no other (`Tiles.flatMap_range'`),
and a memory that is written span by span keeps what each span put there
(`Tiles.putAll_inside`).
-/

namespace Tiling

open Blocks

variable {α β : Type*}

def Tiles (start len : α → Nat) : (lo : Nat) → List α → (hi : Nat) → Prop
  | lo, [], hi => lo = hi
  | lo, s :: l, hi => start s = lo ∧ Tiles start len (lo + len s) l hi

section

variable {start len : α → Nat} {lo hi : Nat} {l : List α}

theorem Tiles.le (h : Tiles start len lo l hi) : lo ≤ hi := by
  induction l generalizing lo with
  | nil => exact Nat.le_of_eq h
  | cons s l ih =>
    have hrest := ih h.2
    omega

theorem Tiles.append {mid : Nat} {l' : List α} (h : Tiles start len lo l mid)
    (h' : Tiles start len mid l' hi) : Tiles start len lo (l ++ l') hi := by
  induction l generalizing lo with
  | nil =>
    rw [show lo = mid from h]
    exact h'
  | cons s l ih => exact ⟨h.1, ih h.2⟩

/-- Tilings of consecutive intervals. -/
theorem tiles_flatMap (bound : Nat → Nat) {line : Nat → List α} (n : Nat)
    (h : ∀ k < n, Tiles start len (bound k) (line k) (bound (k + 1))) :
    Tiles start len (bound 0) ((List.range n).flatMap line) (bound n) := by
  induction n with
  | zero => exact rfl
  | succ n ih =>
    rw [List.range_succ, List.flatMap_append, List.flatMap_singleton]
    exact (ih fun k hk => h k (by omega)).append (h n (by omega))

/-- The same tiling in another unit and from another origin. -/
theorem Tiles.scale {start' len' : α → Nat} (unit origin : Nat) (h : Tiles start len lo l hi)
    (hspan : ∀ s ∈ l, start' s = origin + start s * unit ∧ len' s = len s * unit) :
    Tiles start' len' (origin + lo * unit) l (origin + hi * unit) := by
  induction l generalizing lo with
  | nil => rw [show lo = hi from h]; exact rfl
  | cons s l ih =>
    obtain ⟨hstart, hlen⟩ := hspan s List.mem_cons_self
    have hrest := ih h.2 fun s hs => hspan s (List.mem_cons_of_mem _ hs)
    rw [Nat.add_mul, ← Nat.add_assoc, ← hlen] at hrest
    rw [h.1] at hstart
    exact ⟨hstart, hrest⟩

/-- A span lies between the bounds. -/
theorem Tiles.mem (h : Tiles start len lo l hi) {s : α} (hs : s ∈ l) :
    lo ≤ start s ∧ start s + len s ≤ hi := by
  induction l generalizing lo with
  | nil => cases hs
  | cons t l ih =>
    obtain ⟨hstart, hrest⟩ := h
    rcases List.mem_cons.mp hs with rfl | hs
    · have hle := hrest.le
      omega
    · have hin := ih hrest hs
      omega

theorem Tiles.covers (h : Tiles start len lo l hi) {i : Nat} (hlo : lo ≤ i) (hhi : i < hi) :
    ∃ s ∈ l, start s ≤ i ∧ i < start s + len s := by
  induction l generalizing lo with
  | nil =>
    have hempty : lo = hi := h
    omega
  | cons t l ih =>
    obtain ⟨hstart, hrest⟩ := h
    by_cases hin : i < lo + len t
    · exact ⟨t, List.mem_cons_self, by omega, by omega⟩
    · obtain ⟨s, hs, hspan⟩ := ih hrest (by omega)
      exact ⟨s, List.mem_cons_of_mem _ hs, hspan⟩

/-- The spans are the numbers between the bounds, in order. -/
theorem Tiles.flatMap_range' (h : Tiles start len lo l hi) :
    l.flatMap (fun s => List.range' (start s) (len s)) = List.range' lo (hi - lo) := by
  induction l generalizing lo with
  | nil =>
    rw [show lo = hi from h, Nat.sub_self]
    rfl
  | cons s l ih =>
    obtain ⟨hstart, hrest⟩ := h
    have hle := hrest.le
    rw [List.flatMap_cons, ih hrest, hstart, List.range'_append_1]
    congr 1
    omega

end

/-! ## Memory -/

section

variable {start len : α → Nat} {f : α → Nat → β} {lo hi : Nat} {l : List α}

/-- A memory after the spans were put, one after another. -/
def putAll (start len : α → Nat) (f : α → Nat → β) (l : List α) (m : Nat → β) : Nat → β :=
  l.foldl (fun m s => put m (start s) (len s) (f s)) m

theorem putAll_cons (s : α) (l : List α) (m : Nat → β) :
    putAll start len f (s :: l) m = putAll start len f l (put m (start s) (len s) (f s)) := rfl

theorem Tiles.putAll_outside (h : Tiles start len lo l hi) (m : Nat → β) {i : Nat}
    (hi' : i < lo ∨ hi ≤ i) : putAll start len f l m i = m i := by
  induction l generalizing lo m with
  | nil => rfl
  | cons s l ih =>
    obtain ⟨hstart, hrest⟩ := h
    have hle := hrest.le
    rw [putAll_cons, ih hrest _ (by omega), put_outside (by omega)]

theorem Tiles.putAll_inside (h : Tiles start len lo l hi) (m : Nat → β) {s : α} (hs : s ∈ l)
    {i : Nat} (hi' : i < len s) : putAll start len f l m (start s + i) = f s i := by
  induction l generalizing lo m with
  | nil => cases hs
  | cons t l ih =>
    obtain ⟨hstart, hrest⟩ := h
    rw [putAll_cons]
    rcases List.mem_cons.mp hs with rfl | hs
    · -- the later spans are above this one
      rw [hrest.putAll_outside _ (by omega), put_inside hi']
    · exact ih hrest _ hs

end

end Tiling
