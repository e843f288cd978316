import Mathlib.Data.List.Basic

/-!
# Packets that marks close

A stream comes in pieces; a marked piece is the last of its packet.  When no piece crosses the
end of a line, and exactly those that end a line are marked, the packets are the lines.
-/

namespace Delimited

variable {α : Type*}

/-- The packets of some pieces; the current one has `acc` so far. -/
def packets : (acc : List α) → List (List α × Bool) → List (List α)
  | _, [] => []
  | acc, (piece, mark) :: pieces =>
    if mark then (acc ++ piece) :: packets [] pieces else packets (acc ++ piece) pieces

/-- The first `n` lines of a stream. -/
def lines (len n : Nat) (l : List α) : List (List α) :=
  (List.range n).map fun y => (l.drop (y * len)).take len

/-- From `pos` in a line on the marks are the line ends, up to the end of a line. -/
def Marked (len : Nat) : Nat → List (List α × Bool) → Prop
  | pos, [] => pos = 0
  | pos, (piece, mark) :: pieces => pos + piece.length ≤ len ∧
    (mark = true ↔ pos + piece.length = len) ∧
      Marked len (if mark then 0 else pos + piece.length) pieces

def content (pieces : List (List α × Bool)) : List α := pieces.flatMap Prod.fst

theorem lines_succ (len n : Nat) (l : List α) :
    lines len (n + 1) l = l.take len :: lines len n (l.drop len) := by
  unfold lines
  rw [List.range_succ_eq_map, List.map_cons, List.map_map, Nat.zero_mul, List.drop_zero]
  congr 1
  apply List.map_congr_left
  intro y _
  show ((l.drop ((y + 1) * len)).take len) = _
  rw [List.drop_drop, Nat.succ_mul, Nat.add_comm]

theorem packets_eq_lines {len : Nat} (hlen : 0 < len) {pieces : List (List α × Bool)} :
    ∀ {acc : List α} {n : Nat}, Marked len acc.length pieces →
      (acc ++ content pieces).length = n * len → packets acc pieces = lines len n (acc ++ content pieces) := by
  induction pieces with
  | nil =>
    intro acc n h hn
    have hacc : acc = [] := List.length_eq_zero_iff.1 h
    subst hacc
    have hzero : n = 0 := by
      have hprod : n * len = 0 := hn.symm
      rcases Nat.mul_eq_zero.1 hprod with h0 | h0
      · exact h0
      · omega
    subst hzero
    rfl
  | cons p pieces ih =>
    intro acc n h hn
    obtain ⟨piece, mark⟩ := p
    obtain ⟨hle, hmark, hrest⟩ := h
    have hcontent : acc ++ content ((piece, mark) :: pieces) = (acc ++ piece) ++ content pieces := by
      show acc ++ (piece ++ content pieces) = _
      rw [List.append_assoc]
    rw [hcontent] at hn ⊢
    cases mark with
    | true =>
      have hfull : (acc ++ piece).length = len := by
        rw [List.length_append]
        exact hmark.1 rfl
      rw [List.length_append, hfull] at hn
      cases n with
      | zero => omega
      | succ n =>
        have htail : ([] ++ content pieces).length = n * len := by
          rw [Nat.succ_mul] at hn
          rw [List.nil_append]
          omega
        have hlines := @ih [] n hrest htail
        show (acc ++ piece) :: packets [] pieces = _
        rw [hlines, lines_succ, List.nil_append, ← hfull, List.take_left, List.drop_left]
    | false =>
      have hpos : (acc ++ piece).length = acc.length + piece.length := List.length_append
      show packets (acc ++ piece) pieces = _
      exact ih (by rw [hpos]; exact hrest) hn

end Delimited
