import Mathlib.Algebra.BigOperators.Group.List.Basic
import Mathlib.Algebra.Ring.Nat
import Mathlib.Tactic.Common
import SimpleDisplay.Lib.Tiling

/-!
# Cutting a stream

A stream comes in chunks.  It is cut at every multiple of `line`, at the end of every
chunk, and after `max` bytes at the latest (`stream`).

* The pieces tile the stream (`stream_tiles`); none is empty, longer than `max`, or
  crosses a multiple of `line` (`stream_piece`) or the end of a chunk (`stream_chunk`).
* Of pieces that tile `a` to `b` and cross no multiple, `b / line - a / line` end at one
  (`Tiles.countP_marks`).
* The slices that tile a list concatenate to it (`Tiles.flatMap_slice`).
-/

namespace Cut

structure Piece where
  start : Nat
  len : Nat
deriving DecidableEq

def Piece.stop (p : Piece) : Nat := p.start + p.len

/-- The pieces follow each other from `a` to `b`. -/
def Tiles : Nat → List Piece → Nat → Prop
  | a, [], b => a = b
  | a, p :: ps, b => p.start = a ∧ Tiles p.stop ps b

/-- The next piece at `pos`, `n` bytes before the end of its chunk. -/
def pieceLen (line max pos n : Nat) : Nat := min (min n (line - pos % line)) max

def chunk (line max pos n : Nat) : List Piece :=
  if _h : pieceLen line max pos n = 0 then []
  else
    ⟨pos, pieceLen line max pos n⟩ ::
      chunk line max (pos + pieceLen line max pos n) (n - pieceLen line max pos n)
termination_by n
decreasing_by unfold pieceLen at *; omega

def stream (line max : Nat) : Nat → List Nat → List Piece
  | _, [] => []
  | pos, n :: ns => chunk line max pos n ++ stream line max (pos + n) ns

/-! ## Positions and lines -/

/-- The position stays within its line. -/
theorem add_within {line pos len : Nat} (h : pos % line + len < line) :
    (pos + len) % line = pos % line + len ∧ (pos + len) / line = pos / line := by
  have hpos := Nat.div_add_mod pos line
  have hadd : pos + len = line * (pos / line) + (pos % line + len) := by omega
  rw [hadd]
  constructor
  · rw [Nat.mul_add_mod, Nat.mod_eq_of_lt h]
  · rw [Nat.mul_add_div (by omega), Nat.div_eq_of_lt h, Nat.add_zero]

/-- The position reaches the end of its line. -/
theorem add_reaches {line pos len : Nat} (hl : 0 < line) (h : pos % line + len = line) :
    (pos + len) % line = 0 ∧ (pos + len) / line = pos / line + 1 := by
  have hpos := Nat.div_add_mod pos line
  have hadd : pos + len = line * (pos / line + 1) := by
    rw [Nat.mul_add, Nat.mul_one]
    omega
  rw [hadd]
  constructor
  · exact Nat.mul_mod_right _ _
  · exact Nat.mul_div_cancel_left _ hl

/-- What begins below a multiple and crosses none does not exceed it. -/
theorem add_le_mul {line pos len m : Nat} (h : pos % line + len ≤ line) (hpos : pos < line * m) :
    pos + len ≤ line * m := by
  have hmod := Nat.div_add_mod pos line
  have hmul : line * (pos / line + 1) ≤ line * m :=
    Nat.mul_le_mul_left _ (Nat.div_lt_of_lt_mul hpos)
  rw [Nat.mul_add, Nat.mul_one] at hmul
  omega

/-- A piece that crosses no multiple ends at one exactly when it fills its line. -/
theorem mod_stop_eq_zero_iff {line pos len : Nat} (hlen : 0 < len) (h : pos % line + len ≤ line) :
    (pos + len) % line = 0 ↔ pos % line + len = line := by
  rcases Nat.lt_or_eq_of_le h with hlt | heq
  · rw [(add_within hlt).1]
    omega
  · have hl : 0 < line := by omega
    simp only [(add_reaches hl heq).1, heq]

/-! ## Pieces -/

section

variable {line max pos n : Nat}

theorem pieceLen_le : pieceLen line max pos n ≤ n := by
  unfold pieceLen
  omega

theorem pieceLen_le_max : pieceLen line max pos n ≤ max := by
  unfold pieceLen
  omega

theorem pieceLen_line (hl : 0 < line) (max pos n : Nat) :
    pos % line + pieceLen line max pos n ≤ line := by
  have hmod := Nat.mod_lt pos hl
  unfold pieceLen
  omega

theorem pieceLen_eq_zero_iff (hl : 0 < line) :
    pieceLen line max pos n = 0 ↔ n = 0 ∨ max = 0 := by
  have hmod := Nat.mod_lt pos hl
  unfold pieceLen
  omega

theorem chunk_zero : chunk line max pos 0 = [] := by
  have h : pieceLen line max pos 0 = 0 := by
    unfold pieceLen
    omega
  rw [chunk, dif_pos h]

theorem chunk_of_ne_zero (h : pieceLen line max pos n ≠ 0) :
    chunk line max pos n = ⟨pos, pieceLen line max pos n⟩ ::
      chunk line max (pos + pieceLen line max pos n) (n - pieceLen line max pos n) := by
  rw [chunk, dif_neg h]

/-! ## Tilings -/

theorem tiles_iff {a b : Nat} {ps : List Piece} :
    Tiles a ps b ↔ Tiling.Tiles Piece.start Piece.len a ps b := by
  induction ps generalizing a with
  | nil => exact Iff.rfl
  | cons p ps ih =>
    constructor
    · rintro ⟨rfl, h⟩
      exact ⟨rfl, ih.mp h⟩
    · rintro ⟨rfl, h⟩
      exact ⟨rfl, ih.mpr h⟩

theorem Tiles.append {a b c : Nat} {ps qs : List Piece} (h : Tiles a ps b) (h' : Tiles b qs c) :
    Tiles a (ps ++ qs) c :=
  tiles_iff.mpr ((tiles_iff.mp h).append (tiles_iff.mp h'))

theorem Tiles.le {a b : Nat} {ps : List Piece} (h : Tiles a ps b) : a ≤ b := (tiles_iff.mp h).le

/-- A piece starts where the lengths before it add up to. -/
theorem Tiles.start_eq {a b : Nat} {ps : List Piece} (h : Tiles a ps b) (j : Nat)
    (hj : j < ps.length) : ps[j].start = a + ((ps.take j).map Piece.len).sum := by
  induction ps generalizing a j with
  | nil => cases hj
  | cons p ps ih =>
    cases j with
    | zero => simpa using h.1
    | succ j =>
      have hrec := ih h.2 j (by simpa using hj)
      have hstart := h.1
      simp only [List.getElem_cons_succ, List.take_succ_cons, List.map_cons, List.sum_cons, hrec,
        Piece.stop]
      omega

theorem Tiles.sum_len {a b : Nat} {ps : List Piece} (h : Tiles a ps b) :
    a + (ps.map Piece.len).sum = b := by
  induction ps generalizing a with
  | nil => exact h
  | cons p ps ih =>
    have hrec := ih h.2
    have hstart := h.1
    unfold Piece.stop at hrec
    rw [List.map_cons, List.sum_cons]
    omega

/-- Every multiple of `line` between `a` and `b` ends one piece. -/
theorem Tiles.countP_marks {a b : Nat} {ps : List Piece} (h : Tiles a ps b)
    (hp : ∀ p ∈ ps, 0 < p.len ∧ p.start % line + p.len ≤ line) :
    a / line + ps.countP (fun p => p.stop % line = 0) = b / line := by
  induction ps generalizing a with
  | nil =>
    rw [show a = b from h]
    rfl
  | cons p ps ih =>
    obtain ⟨rfl, htiles⟩ := h
    obtain ⟨hlen, hline⟩ := hp p List.mem_cons_self
    have hrec := ih htiles fun q hq => hp q (List.mem_cons_of_mem _ hq)
    have hmark := mod_stop_eq_zero_iff hlen hline
    rw [List.countP_cons]
    unfold Piece.stop at hrec ⊢
    rcases Nat.lt_or_eq_of_le hline with hlt | heq
    · have hdiv := (add_within hlt).2
      have hno : ¬ (p.start + p.len) % line = 0 := by omega
      simp only [hno, decide_false, Bool.false_eq_true, if_false]
      omega
    · have hdiv := (add_reaches (by omega) heq).2
      have hyes : (p.start + p.len) % line = 0 := by omega
      simp only [hyes, decide_true, if_true]
      omega

/-- The slices of a list at the pieces, counted from `c`, are the slice of the whole. -/
theorem Tiles.flatMap_slice {α : Type*} {a b c : Nat} {ps : List Piece} (h : Tiles a ps b)
    (hc : c ≤ a) (l : List α) :
    ps.flatMap (fun p => (l.drop (p.start - c)).take p.len) = (l.drop (a - c)).take (b - a) := by
  induction ps generalizing a with
  | nil =>
    rw [show a = b from h, Nat.sub_self, List.take_zero, List.flatMap_nil]
  | cons p ps ih =>
    obtain ⟨rfl, htiles⟩ := h
    have hle := htiles.le
    unfold Piece.stop at hle
    rw [List.flatMap_cons, ih htiles (by unfold Piece.stop; omega)]
    have hb : b - p.start = p.len + (b - p.stop) := by
      unfold Piece.stop
      omega
    have hdrop : p.stop - c = (p.start - c) + p.len := by
      unfold Piece.stop
      omega
    rw [hb, List.take_add, hdrop, List.drop_drop]

/-! ## The pieces of a stream -/

theorem chunk_tiles (hl : 0 < line) (hm : 0 < max) (pos n : Nat) :
    Tiles pos (chunk line max pos n) (pos + n) := by
  induction n using Nat.strongRecOn generalizing pos with
  | ind n ih =>
    by_cases h : pieceLen line max pos n = 0
    · have hn : n = 0 := by
        rcases (pieceLen_eq_zero_iff hl).1 h with h | h
        · exact h
        · omega
      rw [hn, chunk_zero]
      rfl
    · have hle := @pieceLen_le line max pos n
      rw [chunk_of_ne_zero h]
      refine ⟨rfl, ?_⟩
      have hrec := ih (n - pieceLen line max pos n) (by omega) (pos + pieceLen line max pos n)
      rwa [show pos + pieceLen line max pos n + (n - pieceLen line max pos n) = pos + n by omega]
        at hrec

theorem chunk_piece (hl : 0 < line) {p : Piece} (hp : p ∈ chunk line max pos n) :
    0 < p.len ∧ p.len ≤ max ∧ p.start % line + p.len ≤ line ∧ pos ≤ p.start ∧ p.stop ≤ pos + n := by
  induction n using Nat.strongRecOn generalizing pos with
  | ind n ih =>
    by_cases h : pieceLen line max pos n = 0
    · rw [chunk, dif_pos h] at hp
      cases hp
    · have hle := @pieceLen_le line max pos n
      rw [chunk_of_ne_zero h] at hp
      rcases List.mem_cons.1 hp with rfl | hp
      · refine ⟨Nat.pos_of_ne_zero h, pieceLen_le_max, pieceLen_line hl max pos n, Nat.le_refl _, ?_⟩
        show pos + pieceLen line max pos n ≤ pos + n
        omega
      · obtain ⟨h1, h2, h3, h4, h5⟩ := ih (n - pieceLen line max pos n) (by omega) hp
        exact ⟨h1, h2, h3, by omega, by omega⟩

theorem stream_tiles (hl : 0 < line) (hm : 0 < max) (pos : Nat) (ns : List Nat) :
    Tiles pos (stream line max pos ns) (pos + ns.sum) := by
  induction ns generalizing pos with
  | nil => rfl
  | cons n ns ih =>
    have hrest := ih (pos + n)
    rw [Nat.add_assoc, ← List.sum_cons] at hrest
    exact (chunk_tiles hl hm pos n).append hrest

theorem stream_piece (hl : 0 < line) {ns : List Nat} {p : Piece} (hp : p ∈ stream line max pos ns) :
    0 < p.len ∧ p.len ≤ max ∧ p.start % line + p.len ≤ line := by
  induction ns generalizing pos with
  | nil => cases hp
  | cons n ns ih =>
    rcases List.mem_append.1 hp with hp | hp
    · obtain ⟨h1, h2, h3, -⟩ := chunk_piece hl hp
      exact ⟨h1, h2, h3⟩
    · exact ih hp

/-- A piece lies in one chunk. -/
theorem stream_chunk (hl : 0 < line) {ns : List Nat} {p : Piece} (hp : p ∈ stream line max pos ns) :
    ∃ k, k < ns.length ∧ pos + (ns.take k).sum ≤ p.start ∧
      p.stop ≤ pos + (ns.take (k + 1)).sum := by
  induction ns generalizing pos with
  | nil => cases hp
  | cons n ns ih =>
    rcases List.mem_append.1 hp with hp | hp
    · obtain ⟨-, -, -, h4, h5⟩ := chunk_piece hl hp
      refine ⟨0, Nat.zero_lt_succ _, by simpa using h4, ?_⟩
      simpa using h5
    · obtain ⟨k, hk, h1, h2⟩ := ih hp
      refine ⟨k + 1, by simpa using hk, ?_, ?_⟩
      · rw [List.take_succ_cons, List.sum_cons]
        omega
      · rw [List.take_succ_cons, List.sum_cons]
        omega

end

end Cut
