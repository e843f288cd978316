import SimpleDisplay.Lib.AxiStream

/-!
# Trace capture

`trace_cntrl_32` and `trace_cntrl_64` drop the samples before the trigger and pass on
`length` samples from there, the last of them marked.  Both compare 32 bits: the upper half of
a 64-bit trigger does not count.
-/

namespace Hls

open AxiStream

variable {w : Nat}

/-- `to_int()` keeps the low 32 bits. -/
def matchesTrigger (trigger : BitVec w) (data : BitVec w) : Bool :=
  (trigger.setWidth 32 &&& data.setWidth 32) == trigger.setWidth 32

/-- The loop, with `i` stepped back when nothing was captured. -/
def traceLoop (trigger : BitVec w) (length i samples : Int) (matched : Bool) :
    List (Beat w) → Option (List (Beat w) × List (Beat w))
  | [] => if i < length then none else some ([], [])
  | t :: input =>
    if i < length then
      let matched := matched || matchesTrigger trigger t.data
      if matched then
        (traceLoop trigger length (i + 1) (samples + 1) matched input).map fun r =>
          ({ t with last := samples = length - 1 } :: r.1, r.2)
      else traceLoop trigger length (i - 1 + 1) samples matched input
    else some ([], t :: input)

/-- `trace_cntrl_32` for 32 bits and `trace_cntrl_64` for 64. -/
def traceCntrl (trigger : BitVec w) (length : Int) : Core w w := traceLoop trigger length 0 0 false

/-- The samples of a capture, with only the last one marked. -/
def markLast : List (Beat w) → List (Beat w)
  | [] => []
  | [t] => [{ t with last := true }]
  | t :: t' :: ts => { t with last := false } :: markLast (t' :: ts)

/-- From the trigger on, the next `n` samples are captured. -/
theorem traceLoop_matched (trigger : BitVec w) (length : Nat) (input : List (Beat w)) :
    ∀ i ≤ length, traceLoop trigger length i i true input =
      if length - i ≤ input.length then
        some (markLast (input.take (length - i)), input.drop (length - i))
      else none := by
  induction input with
  | nil =>
    intro i hi
    unfold traceLoop
    by_cases hend : i = length
    · rw [if_neg (by omega), if_pos (by omega), hend, Nat.sub_self]
      rfl
    · rw [if_pos (by omega), if_neg (by rw [List.length_nil]; omega)]
  | cons t input ih =>
    intro i hi
    unfold traceLoop
    by_cases hend : i = length
    · rw [if_neg (by omega), if_pos (by omega), hend, Nat.sub_self]
      rfl
    · obtain ⟨k, hk⟩ : ∃ k, length - i = k + 1 := ⟨length - i - 1, by omega⟩
      have hnext := ih (i + 1) (by omega)
      rw [show length - (i + 1) = k by omega] at hnext
      rw [if_pos (by omega), hk, List.length_cons, List.take_succ_cons, List.drop_succ_cons]
      simp only [Bool.true_or, if_true]
      rw [show ((i : Int) + 1) = ((i + 1 : Nat) : Int) by omega, hnext]
      by_cases henough : k ≤ input.length
      · rw [if_pos henough, if_pos (by omega), Option.map_some]
        rcases input with _ | ⟨t', input⟩
        · have hk0 : k = 0 := by simpa using henough
          subst hk0
          simp [markLast, show (i : Int) = length - 1 by omega]
        · cases k with
          | zero => simp [markLast, show (i : Int) = length - 1 by omega]
          | succ k => simp [markLast, show ¬ (i : Int) = length - 1 by omega]
      · rw [if_neg henough, if_neg (by omega)]
        rfl

/-- A capture of `length` samples, which is 1 or more: the input up to the first sample that has
all the low 32 bits of the trigger is dropped, then exactly `length` samples follow, the last of
them and no other marked; with fewer samples the core waits. -/
theorem traceCntrl_captures (trigger : BitVec w) (length : Nat) (hlength : 0 < length)
    (input : List (Beat w)) :
    let hits := input.dropWhile fun t => !matchesTrigger trigger t.data
    traceCntrl trigger length input =
      if length ≤ hits.length then some (markLast (hits.take length), hits.drop length) else none := by
  dsimp only
  unfold traceCntrl
  induction input with
  | nil =>
    unfold traceLoop
    rw [if_pos (by omega), if_neg (by simp; omega)]
  | cons t input ih =>
    by_cases hmatch : matchesTrigger trigger t.data = true
    · -- The trigger itself is the first sample.
      have hfirst := traceLoop_matched trigger length (t :: input) 0 (by omega)
      rw [Nat.sub_zero] at hfirst
      rw [List.dropWhile_cons_of_neg (by simp [hmatch]), ← hfirst]
      unfold traceLoop
      simp [hmatch]
    · rw [List.dropWhile_cons_of_pos (by simp [hmatch]), ← ih]
      conv_lhs => unfold traceLoop
      simp [hmatch, hlength]

theorem traceCntrl_captures_two :
    let hits := [(⟨1, false, false⟩ : Beat 32), ⟨6, false, false⟩, ⟨0, false, true⟩].dropWhile
      fun t => !matchesTrigger 4 t.data
    traceCntrl 4 (2 : Nat) [⟨1, false, false⟩, ⟨6, false, false⟩, ⟨0, false, true⟩] =
      if 2 ≤ hits.length then some (markLast (hits.take 2), hits.drop 2) else none :=
  traceCntrl_captures 4 2 (by decide) _

end Hls
