import Mathlib.Data.List.Basic
import Mathlib.Algebra.Ring.Nat

/-!
# Packets on a stream

The beats of a stream come in packets: `last` ends one, `user` marks a beat, here the first
of a packet.  A core is started again and again, and one activation serves one packet.  Most
cores read a packet `m` beats at a time; for these it is enough to know one pass.
-/

namespace AxiStream

structure Beat (w : Nat) where
  data : BitVec w
  user : Bool
  last : Bool
  deriving DecidableEq

variable {v w : Nat}

/-- The beats of `ds`, the first with `user` and the last one with `last`. -/
def burst (user last : Bool) : List (BitVec w) → List (Beat w)
  | [] => []
  | [d] => [⟨d, user, last⟩]
  | d :: d' :: ds => ⟨d, user, false⟩ :: burst false last (d' :: ds)

/-- A packet with its `user` mark. -/
def packet (p : Bool × List (BitVec w)) : List (Beat w) := burst p.1 true p.2

def stream (ps : List (Bool × List (BitVec w))) : List (Beat w) := ps.flatMap packet

/-- One activation: what it writes and what it leaves of its input; `none` while it waits for
more input. -/
abbrev Core (v w : Nat) := List (Beat v) → Option (List (Beat w) × List (Beat v))

/-- `n` activations, one after the other. -/
def activations (core : Core v w) : Nat → Core v w
  | 0, input => some ([], input)
  | n + 1, input =>
    match core input with
    | none => none
    | some (out, input) => (activations core n input).map fun r => (out ++ r.1, r.2)

/-- An activation turns a packet of `ds` into one of `f ds`, whatever follows it. -/
def Serves (core : Core v w) (Fits : List (BitVec v) → Prop) (f : List (BitVec v) → List (BitVec w)) :
    Prop :=
  ∀ user ds rest, Fits ds → core (packet (user, ds) ++ rest) = some (packet (user, f ds), rest)

/-- One activation for each packet of a stream. -/
theorem Serves.stream {core : Core v w} {Fits : List (BitVec v) → Prop}
    {f : List (BitVec v) → List (BitVec w)} (h : Serves core Fits f)
    (ps : List (Bool × List (BitVec v))) (hps : ∀ p ∈ ps, Fits p.2) (rest : List (Beat v)) :
    activations core ps.length (AxiStream.stream ps ++ rest) =
      some (AxiStream.stream (ps.map fun p => (p.1, f p.2)), rest) := by
  induction ps with
  | nil => rfl
  | cons p ps ih =>
    have hhead : core (packet p ++ (AxiStream.stream ps ++ rest)) =
        some (packet (p.1, f p.2), AxiStream.stream ps ++ rest) := h p.1 p.2 _ (hps p (by simp))
    have htail := ih fun q hq => hps q (by simp [hq])
    show activations core (ps.length + 1) ((packet p ++ AxiStream.stream ps) ++ rest) = _
    rw [List.append_assoc, activations, hhead]
    dsimp only
    rw [htail]
    rfl

theorem burst_append {user last : Bool} {ds ds' : List (BitVec w)} (hds : ds ≠ []) (hds' : ds' ≠ []) :
    burst user last (ds ++ ds') = burst user false ds ++ burst false last ds' := by
  induction ds generalizing user with
  | nil => exact absurd rfl hds
  | cons d ds ih =>
    cases ds with
    | nil =>
      cases ds' with
      | nil => exact absurd rfl hds'
      | cons d' ds' => rfl
    | cons e ds =>
      show ⟨d, user, false⟩ :: burst false last ((e :: ds) ++ ds') = _
      rw [ih (by simp)]
      rfl

theorem burst_data (user last : Bool) (ds : List (BitVec w)) :
    (burst user last ds).map (·.data) = ds := by
  induction ds generalizing user with
  | nil => rfl
  | cons d ds ih =>
    cases ds with
    | nil => rfl
    | cons e ds =>
      show d :: (burst false last (e :: ds)).map _ = _
      rw [ih]

theorem burst_any_user (user last : Bool) {ds : List (BitVec w)} (hds : ds ≠ []) :
    (burst user last ds).any (·.user) = user := by
  induction ds generalizing user with
  | nil => exact absurd rfl hds
  | cons d ds ih =>
    cases ds with
    | nil => simp [burst]
    | cons e ds =>
      show (user || (burst false last (e :: ds)).any _) = _
      rw [ih false (by simp), Bool.or_false]

/-- The end of a packet is marked. -/
theorem burst_getLast (user last : Bool) (ds : List (BitVec w)) :
    ∀ b ∈ (burst user last ds).getLast?, b.last = last := by
  induction ds generalizing user with
  | nil => simp [burst]
  | cons d ds ih =>
    cases ds with
    | nil => simp [burst]
    | cons e ds =>
      intro b hb
      have hne : burst false last (e :: ds) ≠ [] := by
        cases ds <;> simp [burst]
      apply ih false b
      rw [show burst user last (d :: e :: ds) = ⟨d, user, false⟩ :: burst false last (e :: ds) from rfl,
        List.getLast?_cons, List.getLast?_eq_some_getLast hne] at hb
      rw [List.getLast?_eq_some_getLast hne]
      exact hb

/-! ## Groups -/

/-- Every `m` words of `ds` turned into words by `h`. -/
def regroup (m : Nat) (h : List (BitVec v) → List (BitVec w)) : Nat → List (BitVec v) → List (BitVec w)
  | 0, _ => []
  | n + 1, ds => h (ds.take m) ++ regroup m h n (ds.drop m)

/-- The words of a packet in groups of `m`. -/
def groups (m : Nat) (h : List (BitVec v) → List (BitVec w)) (ds : List (BitVec v)) :
    List (BitVec w) :=
  regroup m h (ds.length / m) ds

/-- One group of `m` words or more, each of which is `Good`, and no words left over. -/
inductive Grouped (m : Nat) (Good : List (BitVec v) → Prop) : List (BitVec v) → Prop
  | one (g : List (BitVec v)) : g.length = m → Good g → Grouped m Good g
  | more (g ds : List (BitVec v)) : g.length = m → Good g → Grouped m Good ds →
      Grouped m Good (g ++ ds)

section

variable {m : Nat} {h : List (BitVec v) → List (BitVec w)} {Good : List (BitVec v) → Prop}
  {ds g : List (BitVec v)}

theorem groups_append (hm : 0 < m) (hg : g.length = m) :
    groups m h (g ++ ds) = h g ++ groups m h ds := by
  unfold groups
  have hlen : (g ++ ds).length / m = ds.length / m + 1 := by
    rw [List.length_append, hg, Nat.add_comm, Nat.add_div_right _ hm]
  rw [hlen, regroup, ← hg, List.take_left, List.drop_left]

theorem groups_one (hm : 0 < m) (hg : g.length = m) : groups m h g = h g := by
  have happend : groups m h (g ++ []) = h g ++ groups m h [] := groups_append hm hg
  unfold groups at happend ⊢
  rw [List.append_nil, List.length_nil, Nat.zero_div, regroup, List.append_nil] at happend
  exact happend

theorem Grouped.ne_nil (hm : 0 < m) (hds : Grouped m Good ds) : ds ≠ [] := by
  rintro rfl
  generalize hnil : ([] : List (BitVec v)) = ds at hds
  induction hds with
  | one g hg _ =>
    rw [← hnil, List.length_nil] at hg
    omega
  | more g ds hg _ _ _ =>
    rw [(List.append_eq_nil_iff.1 hnil.symm).1, List.length_nil] at hg
    omega

/-- A packet is made of groups when its length is that of some groups. -/
theorem grouped_iff (hm : 0 < m) :
    Grouped m (fun _ => True) ds ↔ ds ≠ [] ∧ m ∣ ds.length := by
  constructor
  · intro hds
    refine ⟨hds.ne_nil hm, ?_⟩
    induction hds with
    | one g hg _ => simp [hg]
    | more g ds hg _ _ ih =>
      rw [List.length_append, hg]
      exact Nat.dvd_add (Nat.dvd_refl m) ih
  · rintro ⟨hne, n, hn⟩
    induction n generalizing ds with
    | zero => exact absurd (List.length_eq_zero_iff.1 (by omega)) hne
    | succ n ih =>
      rw [Nat.mul_succ] at hn
      have htake : (ds.take m).length = m := by
        rw [List.length_take]
        omega
      have hdrop : (ds.drop m).length = m * n := by
        rw [List.length_drop]
        omega
      rw [← List.take_append_drop m ds]
      by_cases hrest : ds.drop m = []
      · rw [hrest, List.append_nil]
        exact .one _ htake trivial
      · exact .more _ _ htake trivial (ih hrest hdrop)

theorem Grouped.imp {Good' : List (BitVec v) → Prop} (himp : ∀ g, Good g → Good' g)
    (hds : Grouped m Good ds) : Grouped m Good' ds := by
  induction hds with
  | one g hg hgood => exact .one g hg (himp g hgood)
  | more g ds hg hgood _ ih => exact .more g ds hg (himp g hgood) ih

theorem Grouped.groups {m' : Nat} (Good' : List (BitVec w) → Prop) (hm : 0 < m)
    (hh : ∀ g, g.length = m → Good g → (h g).length = m' ∧ Good' (h g)) (hds : Grouped m Good ds) :
    Grouped m' Good' (groups m h ds) := by
  induction hds with
  | one g hg hgood =>
    rw [groups_one hm hg]
    exact .one _ (hh g hg hgood).1 (hh g hg hgood).2
  | more g ds hg hgood _ ih =>
    rw [groups_append hm hg]
    exact .more _ _ (hh g hg hgood).1 (hh g hg hgood).2 ih

/-- Groups that are turned back one by one. -/
theorem Grouped.groups_groups {m' : Nat} {h' : List (BitVec w) → List (BitVec v)} (hm : 0 < m) (hm' : 0 < m')
    (hh : ∀ g, g.length = m → (h g).length = m')
    (hback : ∀ g, g.length = m → Good g → h' (h g) = g) (hds : Grouped m Good ds) :
    AxiStream.groups m' h' (AxiStream.groups m h ds) = ds := by
  induction hds with
  | one g hg hgood => rw [groups_one hm hg, groups_one hm' (hh g hg), hback g hg hgood]
  | more g ds hg hgood _ ih =>
    rw [groups_append hm hg, groups_append hm' (hh g hg), hback g hg hgood, ih]

/-- A core that reads a packet `m` beats a pass, and stops after the pass with the last one. -/
theorem Serves.of_pass {core : Core v w} (m' : Nat) (hm : 0 < m) (hm' : 0 < m')
    (hh : ∀ g, g.length = m → (h g).length = m')
    (hpass : ∀ user last g rest, g.length = m → core (burst user last g ++ rest) =
      if last then some (burst user true (h g), rest)
      else (core rest).map fun r => (burst user false (h g) ++ r.1, r.2)) :
    Serves core (Grouped m fun _ => True) (AxiStream.groups m h) := by
  intro user ds rest hds
  show core (burst user true ds ++ rest) = some (burst user true (AxiStream.groups m h ds), rest)
  induction hds generalizing user with
  | one g hg _ =>
    rw [hpass user true g rest hg, groups_one hm hg]
    rfl
  | more g ds hg _ hds ih =>
    have hne : ∀ {u : Nat} {g : List (BitVec u)} {n : Nat}, 0 < n → g.length = n → g ≠ [] := by
      rintro u g n hn hlen rfl
      rw [List.length_nil] at hlen
      omega
    have hout : AxiStream.groups m h ds ≠ [] :=
      (hds.groups (fun _ => True) hm fun g hg _ => ⟨hh g hg, trivial⟩).ne_nil hm'
    rw [burst_append (hne hm hg) (hds.ne_nil hm), List.append_assoc, hpass user false g _ hg,
      ih false, groups_append hm hg, burst_append (hne hm' (hh g hg)) hout]
    rfl

end

end AxiStream
