import Mathlib.Tactic.Common

/-!
# Blocks of memory

A memory is a function of its addresses.  `put` replaces one block of cells; `puts`
replaces blocks of one length in turn, each by what memory holds when its turn comes.

* A block keeps what was put into it as long as no later one meets it (`puts_inside`),
  and a cell outside every block is not touched (`puts_outside`).
* Blocks copied within one memory arrive as they were when no block is overwritten before
  it is read (`puts_copy`).
* The lines of a `Raster` are such blocks: two spans of one raster are apart if their lines
  differ (`Raster.apart`).
-/

namespace Blocks

variable {α : Type*}

/-- `n` cells from `lo` on become `f 0`, `f 1`, ... -/
def put (m : Nat → α) (lo n : Nat) (f : Nat → α) : Nat → α := fun i =>
  if lo ≤ i ∧ i < lo + n then f (i - lo) else m i

/-- The first `k` blocks; block `j` is computed by `f j` from what memory holds then. -/
def puts (start : Nat → Nat) (n : Nat) (f : Nat → (Nat → α) → Nat → α) :
    Nat → (Nat → α) → Nat → α
  | 0, m => m
  | k + 1, m => put (puts start n f k m) (start k) n (f k (puts start n f k m))

/-- Two blocks of `n` cells have no cell in common. -/
def Apart (n lo lo' : Nat) : Prop := lo + n ≤ lo' ∨ lo' + n ≤ lo

section

variable {m : Nat → α} {lo n i : Nat} {f : Nat → α}

theorem put_inside (h : i < n) : put m lo n f (lo + i) = f i := by
  unfold put
  rw [if_pos (by omega), Nat.add_sub_cancel_left]

theorem put_outside (h : i < lo ∨ lo + n ≤ i) : put m lo n f i = m i := by
  unfold put
  rw [if_neg (by omega)]

end

section

variable {start : Nat → Nat} {n : Nat} {f : Nat → (Nat → α) → Nat → α} {m : Nat → α} {k : Nat}

theorem puts_outside {i : Nat} (h : ∀ j < k, i < start j ∨ start j + n ≤ i) :
    puts start n f k m i = m i := by
  induction k with
  | zero => rfl
  | succ k ih =>
      rw [puts, put_outside (h k (by omega))]
      exact ih fun j hj => h j (by omega)

/-- A block that the first `k` leave alone. -/
theorem puts_apart {lo i : Nat} (h : ∀ j < k, Apart n (start j) lo) (hi : i < n) :
    puts start n f k m (lo + i) = m (lo + i) := by
  apply puts_outside
  intro j hj
  have hapart := h j hj
  unfold Apart at hapart
  omega

theorem puts_inside (hstart : ∀ j < k, ∀ j' < j, Apart n (start j) (start j')) {j i : Nat}
    (hj : j < k) (hi : i < n) :
    puts start n f k m (start j + i) = f j (puts start n f j m) i := by
  induction k with
  | zero => omega
  | succ k ih =>
      rw [puts]
      by_cases hlast : j = k
      · subst hlast
        exact put_inside hi
      · -- The last block is apart from block `j`.
        have hapart := hstart k (by omega) j (by omega)
        unfold Apart at hapart
        rw [put_outside (by omega)]
        exact ih (fun j hj => hstart j (by omega)) (by omega)

/-- A copy within one memory, block by block. -/
theorem puts_copy {dst src : Nat → Nat}
    (hdst : ∀ j < k, ∀ j' < j, Apart n (dst j) (dst j'))
    (hsrc : ∀ j < k, ∀ j' < j, Apart n (dst j') (src j)) {j i : Nat} (hj : j < k) (hi : i < n) :
    puts dst n (fun j m i => m (src j + i)) k m (dst j + i) = m (src j + i) := by
  rw [puts_inside hdst hj hi]
  exact puts_apart (hsrc j hj) hi

end

/-! ## Lines -/

section

/-- A block of line `y`, where every line has a memory of its own. -/
def putLine (m : Nat → Nat → α) (y lo n : Nat) (f : Nat → α) : Nat → Nat → α := fun y' i =>
  if y' = y then put (m y') lo n f i else m y' i

theorem putLine_same (m : Nat → Nat → α) (y lo n : Nat) (f : Nat → α) (i : Nat) :
    putLine m y lo n f y i = put (m y) lo n f i := if_pos rfl

theorem putLine_of_ne {y y' : Nat} (h : y' ≠ y) (m : Nat → Nat → α) (lo n : Nat) (f : Nat → α)
    (i : Nat) : putLine m y lo n f y' i = m y' i := if_neg h

theorem putLine_apply (m : Nat → Nat → α) (y lo n : Nat) (f : Nat → α) (y' i : Nat) :
    putLine m y lo n f y' i = if y' = y ∧ lo ≤ i ∧ i < lo + n then f (i - lo) else m y' i := by
  unfold putLine put
  by_cases hy : y' = y
  · simp [hy]
  · simp [hy]

/-- A block put cell group by cell group, `depth` at a time. -/
theorem foldl_putLine_cells (m : Nat → Nat → α) (y lo depth : Nat) (f : Nat → α) (k : Nat) :
    (List.range k).foldl
      (fun m j => putLine m y (lo + j * depth) depth fun b => f (j * depth + b)) m =
      putLine m y lo (k * depth) f := by
  induction k with
  | zero =>
      funext y' i
      by_cases hy : y' = y
      · subst hy
        rw [putLine_same, put_outside (by omega)]
        rfl
      · rw [putLine_of_ne hy]
        rfl
  | succ k ih =>
      rw [List.range_succ, List.foldl_append, ih, List.foldl_cons, List.foldl_nil]
      funext y' i
      by_cases hy : y' = y
      · subst hy
        rw [putLine_same, putLine_same, Nat.succ_mul]
        by_cases hlast : lo + k * depth ≤ i ∧ i < lo + k * depth + depth
        · obtain ⟨b, rfl⟩ := Nat.exists_eq_add_of_le hlast.1
          rw [put_inside (by omega), Nat.add_assoc, put_inside (by omega)]
        · rw [put_outside (by omega)]
          unfold put
          rw [putLine_same]
          unfold put
          by_cases hi : lo ≤ i ∧ i < lo + k * depth
          · rw [if_pos hi, if_pos (by omega)]
          · rw [if_neg hi, if_neg (by omega)]
      · rw [putLine_of_ne hy, putLine_of_ne hy, putLine_of_ne hy]

/-- The same block on `k` lines, each with cells of its own. -/
theorem foldl_putLine (m : Nat → Nat → α) (y₀ lo n : Nat) (f : Nat → Nat → α) (k : Nat) :
    (List.range k).foldl (fun m j => putLine m (y₀ + j) lo n (f j)) m =
      fun y i => if y₀ ≤ y ∧ y < y₀ + k then put (m y) lo n (f (y - y₀)) i else m y i := by
  induction k with
  | zero =>
      funext y i
      rw [if_neg (by omega)]
      rfl
  | succ k ih =>
      rw [List.range_succ, List.foldl_append, ih, List.foldl_cons, List.foldl_nil]
      funext y i
      by_cases hy : y = y₀ + k
      · subst hy
        rw [putLine_same, if_pos (by omega), Nat.add_sub_cancel_left]
        unfold put
        dsimp only
        rw [if_neg (show ¬ (y₀ ≤ y₀ + k ∧ y₀ + k < y₀ + k) by omega)]
      · rw [putLine_of_ne hy]
        by_cases hin : y₀ ≤ y ∧ y < y₀ + k
        · rw [if_pos hin, if_pos (by omega)]
        · rw [if_neg hin, if_neg (by omega)]

end

/-! ## Rasters -/

/-- Lines of cells, `stride` apart. -/
structure Raster where
  base : Nat
  stride : Nat

namespace Raster

variable {r : Raster}

/-- Pixel `x` of line `y`, where a pixel has `depth` cells. -/
def address (r : Raster) (depth x y : Nat) : Nat := r.base + y * r.stride + x * depth

def pixel (r : Raster) (depth : Nat) (m : Nat → α) (x y : Nat) : List α :=
  (List.range depth).map fun b => m (r.address depth x y + b)

theorem address_add (depth x i y : Nat) :
    r.address depth (x + i) y = r.address depth x y + i * depth := by
  unfold address
  rw [Nat.add_mul, ← Nat.add_assoc]

/-- Spans of one line end before any later line starts. -/
theorem address_le {depth x y x' y' : Nat} {n : Nat} (hn : x * depth + n ≤ r.stride)
    (h : y < y') : r.address depth x y + n ≤ r.address depth x' y' := by
  have hline : (y + 1) * r.stride ≤ y' * r.stride := Nat.mul_le_mul_right _ h
  rw [Nat.succ_mul] at hline
  unfold address
  omega

theorem apart {depth x y x' y' n : Nat} (hx : x * depth + n ≤ r.stride)
    (hx' : x' * depth + n ≤ r.stride) (h : y ≠ y') :
    Apart n (r.address depth x y) (r.address depth x' y') := by
  rcases Nat.lt_or_gt_of_ne h with h | h
  · exact .inl (address_le hx h)
  · exact .inr (address_le hx' h)

/-- The cells of a pixel that is not on a span of `width` pixels. -/
theorem address_outside {depth x y x' y' width b : Nat} (hx : (x + 1) * depth ≤ r.stride)
    (hx' : (x' + width) * depth ≤ r.stride) (h : y ≠ y' ∨ x < x' ∨ x' + width ≤ x)
    (hb : b < depth) :
    r.address depth x y + b < r.address depth x' y' ∨
      r.address depth x' y' + width * depth ≤ r.address depth x y + b := by
  rw [Nat.add_mul] at hx hx'
  by_cases hy : y = y'
  · subst hy
    rcases h with h | h | h
    · exact absurd rfl h
    · have hcell : (x + 1) * depth ≤ x' * depth := Nat.mul_le_mul_right _ h
      rw [Nat.add_mul] at hcell
      unfold address
      omega
    · have hcell : (x' + width) * depth ≤ x * depth := Nat.mul_le_mul_right _ h
      rw [Nat.add_mul] at hcell
      unfold address
      omega
  · rcases Nat.lt_or_gt_of_ne hy with hy | hy
    · have hline : r.address depth x y + 1 * depth ≤ r.address depth x' y' := address_le hx hy
      omega
    · have hline : r.address depth x' y' + width * depth ≤ r.address depth x y :=
        address_le hx' hy
      omega

/-- A pixel is seen by its cells. -/
theorem pixel_congr {r' : Raster} {depth : Nat} {m m' : Nat → α} {x y x' y' : Nat}
    (h : ∀ b < depth, m (r.address depth x y + b) = m' (r'.address depth x' y' + b)) :
    r.pixel depth m x y = r'.pixel depth m' x' y' := by
  unfold pixel
  apply List.map_congr_left
  intro b hb
  exact h b (List.mem_range.1 hb)

/-! ### Rectangles -/

/-- A rectangle has been drawn up to line `k`, which may be partly drawn. -/
structure Drawn (r : Raster) (depth x y width height k : Nat) (value : Nat → Nat → List α)
    (before after : Nat → α) : Prop where
  complete : ∀ i < width, ∀ j < k, r.pixel depth after (x + i) (y + j) = value i j
  cells : ∀ c, (∀ j < min (k + 1) height, c < r.address depth x (y + j) ∨
    r.address depth x (y + j) + width * depth ≤ c) → after c = before c
  pixels : ∀ x' y', (x' + 1) * depth ≤ r.stride →
    ¬ ((x ≤ x' ∧ x' < x + width) ∧ y ≤ y' ∧ y' < y + min (k + 1) height) →
    r.pixel depth after x' y' = r.pixel depth before x' y'

theorem Drawn.congr {depth x y width height k : Nat} {value value' : Nat → Nat → List α}
    {before after : Nat → α} (h : r.Drawn depth x y width height k value before after)
    (hvalue : ∀ i j, value i j = value' i j) :
    r.Drawn depth x y width height k value' before after := by
  have heq : value = value' := funext₂ hvalue
  rw [← heq]
  exact h

/-- Lines put one after the other draw a rectangle. -/
theorem drawn_of_puts {depth x y width height k : Nat} (f : Nat → Nat → α) {before after : Nat → α}
    (hline : (x + width) * depth ≤ r.stride) (hk : k ≤ height)
    (hafter : ∀ c, (k < height → c < r.address depth x (y + k) ∨
        r.address depth x (y + k) + width * depth ≤ c) →
      after c = puts (fun j => r.address depth x (y + j)) (width * depth) (fun j _ => f j) k
        before c) :
    r.Drawn depth x y width height k
      (fun i j => (List.range depth).map fun b => f j (i * depth + b)) before after := by
  have hspan : x * depth + width * depth ≤ r.stride := by
    rw [← Nat.add_mul]
    exact hline
  have hcells : ∀ c, (∀ j < min (k + 1) height, c < r.address depth x (y + j) ∨
      r.address depth x (y + j) + width * depth ≤ c) → after c = before c := by
    intro c hout
    rw [hafter c fun hlt => hout k (by omega)]
    exact puts_outside fun j hj => hout j (by omega)
  refine ⟨fun i hi j hj => ?_, hcells, fun x' y' hx' hout => ?_⟩
  · unfold pixel
    apply List.map_congr_left
    intro b hb
    have hcell : i * depth + b < width * depth := by
      have hpixel : (i + 1) * depth ≤ width * depth := Nat.mul_le_mul_right _ hi
      rw [Nat.succ_mul] at hpixel
      have hdepth := List.mem_range.1 hb
      omega
    rw [address_add, Nat.add_assoc, hafter]
    · have hstart : ∀ j < k, ∀ j' < j,
          Apart (width * depth) (r.address depth x (y + j)) (r.address depth x (y + j')) :=
        fun _ _ _ hlt => apart hspan hspan (by omega)
      exact puts_inside hstart hj hcell
    · intro _
      have hlast : Apart (width * depth) (r.address depth x (y + j)) (r.address depth x (y + k)) :=
        apart hspan hspan (by omega)
      unfold Apart at hlast
      omega
  · apply pixel_congr
    intro b hb
    apply hcells
    intro j hj
    exact address_outside hx' hline (by omega) hb

end Raster

end Blocks
