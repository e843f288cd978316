import Mathlib.Data.List.Basic
import Mathlib.Logic.Relation

/-!
# A mailbox that coalesces

Values are posted to a log, and a reader shows some of them: any posted value at or
after the last one shown.  A reader that is slower than the writers skips values, and
never shows one that was not posted or goes back in time (`reachable_sound`).
-/

/-- `(n, v)` in `shown` says that `v` was shown as the `n`-th value posted, from 1 on. -/
structure Mailbox (α : Type*) where
  log : List α
  shown : List (Nat × α)

namespace Mailbox

variable {α : Type*}

def empty : Mailbox α := ⟨[], []⟩

inductive Step (m : Mailbox α) : Mailbox α → Prop
  | idle : Step m m
  | post (v : α) : Step m ⟨m.log ++ [v], m.shown⟩
  | show (n : Nat) (v : α) (hn : 0 < n) (hv : m.log[n - 1]? = some v) (hlast : ∀ e ∈ m.shown, e.1 ≤ n) :
      Step m ⟨m.log, m.shown ++ [(n, v)]⟩

/-- What was shown was posted, under its number, and in the order of the posts. -/
structure Sound (m : Mailbox α) : Prop where
  posted : ∀ e ∈ m.shown, 0 < e.1 ∧ m.log[e.1 - 1]? = some e.2
  ordered : m.shown.Pairwise (fun e e' => e.1 ≤ e'.1)

theorem Sound.step {m m' : Mailbox α} (h : m.Sound) (hs : Step m m') : m'.Sound := by
  cases hs with
  | idle => exact h
  | post v =>
    refine ⟨fun e he => ?_, h.ordered⟩
    obtain ⟨h0, hv⟩ := h.posted e he
    have hlt : e.1 - 1 < m.log.length := (List.getElem?_eq_some_iff.1 hv).1
    exact ⟨h0, by rw [List.getElem?_append_left hlt, hv]⟩
  | «show» n v hn hv hlast =>
    refine ⟨fun e he => ?_, ?_⟩
    · obtain he | he := List.mem_append.1 he
      · exact h.posted e he
      · rw [List.mem_singleton.1 he]
        exact ⟨hn, hv⟩
    · rw [List.pairwise_append]
      refine ⟨h.ordered, List.pairwise_singleton _ _, fun e he e' he' => ?_⟩
      rw [List.mem_singleton.1 he']
      exact hlast e he

theorem reachable_sound {m : Mailbox α} (h : Relation.ReflTransGen Step empty m) : m.Sound := by
  induction h with
  | refl => exact ⟨fun e he => (nomatch he), List.Pairwise.nil⟩
  | tail _ hs ih => exact ih.step hs

end Mailbox
