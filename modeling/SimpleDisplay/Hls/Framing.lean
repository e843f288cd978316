import SimpleDisplay.Hls.RoundTrip

/-!
# Which lines stay packets

A line whose length does not fit the groups of a format: `V_8` fills up its last word,
`V_24` marks the end of the line a pixel early or not at all, and the loops over two pixels
read into the next line.
-/

namespace Hls

open AxiStream Fields

/-- The lengths for which `pixel_pack` turns a line into one packet. -/
def Mode.Frames : Mode → Nat → Prop
  | .v24, n => 4 ∣ n
  | .v16, n | .v16c, n => 2 ∣ n
  | _, _ => True

/-- A full group and what comes after it. -/
theorem split_group {m : Nat} {ds : List (BitVec 24)} (hm : m < ds.length) :
    ∃ g ds', ds = g ++ ds' ∧ g.length = m ∧ ds' ≠ [] ∧ ds'.length + m = ds.length := by
  refine ⟨ds.take m, ds.drop m, (List.take_append_drop m ds).symm, ?_, ?_, ?_⟩
  · rw [List.length_take]
    omega
  · intro hnil
    have hlen := congrArg List.length hnil
    rw [List.length_drop, List.length_nil] at hlen
    omega
  · rw [List.length_drop]
    omega

/-- The last group of a line. -/
theorem readGroup_tail (user : Bool) (rest : List NarrowPixel) : ∀ {n : Nat} {g : List (BitVec 24)},
    g ≠ [] → g.length ≤ n →
      readGroup n false (burst user true g ++ rest) = some (burst user true g, true, rest) := by
  intro n g hg hn
  induction g generalizing n user with
  | nil => exact absurd rfl hg
  | cons d g ih =>
    rw [List.length_cons] at hn
    obtain ⟨n, rfl⟩ : ∃ k, n = k + 1 := ⟨n - 1, by omega⟩
    cases g with
    | nil =>
      show (readGroup n true rest).map _ = _
      cases n <;> rfl
    | cons e g =>
      show (readGroup n false (burst false true (e :: g) ++ rest)).map _ = _
      rw [ih false (by simp) (by omega)]
      rfl

section

variable {words : List NarrowPixel → List NarrowPixel → Bool → List WidePixel}

/-- The pass over the last group of a line. -/
theorem packDelayed_tail (user : Bool) {g : List (BitVec 24)} (hg : g ≠ []) (hn : g.length ≤ 4)
    (rest : List NarrowPixel) : packDelayed words false false (burst user true g ++ rest) =
      some (words (burst user true g ++ rest) (burst user true g) true, rest) := by
  have hread : readGroup 4 true rest = some ([], true, rest) := rfl
  rw [packDelayed_read (readGroup_tail user rest hg hn), packDelayed_read hread, packDelayed_done]
  simp

/-- The passes before it. -/
theorem packDelayed_more (user : Bool) {g ds : List (BitVec 24)} (hg : g.length = 4) (hds : ds ≠ [])
    (rest : List NarrowPixel) : packDelayed words false false (burst user true (g ++ ds) ++ rest) =
      (packDelayed words false false (burst false true ds ++ rest)).map fun r =>
        (words (burst user false g ++ (burst false true ds ++ rest)) (burst user false g) false ++ r.1,
          r.2) := by
  have hne : g ≠ [] := by
    rintro rfl
    cases hg
  rw [burst_append hne hds, List.append_assoc, packDelayed_pass user false hg, if_neg (by decide)]

end

theorem wordV8_burst (u : Uninit) (user last : Bool) {ds : List (BitVec 24)} (hds : ds ≠ []) :
    [wordV8 u (burst user last ds) last] =
      burst user last [fill u.data (ds.map fun d => range d 0 8)] := by
  have hdata : (burst user last ds).map (fun p => range p.data 0 8) = ds.map fun d => range d 0 8 := by
    conv_rhs => rw [← burst_data user last ds]
    rw [List.map_map]
    rfl
  unfold wordV8
  rw [hdata, burst_any_user user last hds]
  rfl

/-- `V_8` keeps every line a packet. -/
theorem packV8_framed (uninit : List NarrowPixel → Uninit) (rest : List NarrowPixel) :
    ∀ (n : Nat) (user : Bool) (ds : List (BitVec 24)), ds.length ≤ n → ds ≠ [] →
      ∃ out, out ≠ [] ∧
        packV8 uninit (burst user true ds ++ rest) = some (burst user true out, rest) := by
  intro n
  induction n with
  | zero =>
    intro user ds hn hds
    exact absurd (List.length_eq_zero_iff.1 (by omega)) hds
  | succ n ih =>
    intro user ds hn hds
    by_cases hlen : ds.length ≤ 4
    · rw [packV8, packDelayed_tail user hds hlen, wordV8_burst _ user true hds]
      exact ⟨_, by simp, rfl⟩
    · obtain ⟨g, ds', rfl, hg, hds', hlen'⟩ := split_group (m := 4) (Nat.lt_of_not_le hlen)
      obtain ⟨out, hout, hpack⟩ := ih false ds' (by omega) hds'
      have hne : g ≠ [] := by
        rintro rfl
        cases hg
      rw [packV8] at hpack
      rw [packV8, packDelayed_more user hg hds', hpack, wordV8_burst _ user false hne]
      refine ⟨[fill (uninit (burst user false g ++ (burst false true ds' ++ rest))).data
        (g.map fun d => range d 0 8)] ++ out, by simp, ?_⟩
      rw [burst_append (by simp) hout]
      rfl

/-! ## Lines that do not fit -/

/-- What the uninitialised variables hold when they happen to be zero. -/
def zeros (_ : List NarrowPixel) : Uninit := ⟨0, 0, 0, 0, 0, 0⟩

/-- The mark on the last word of a pass of `V_24` is that of the fourth pixel. -/
theorem wordsV24_mark (u : Uninit) (ps : List NarrowPixel) :
    ∃ b ∈ (wordsV24 u ps).getLast?,
      b.last = (fill u.hasLast (ps.map fun p => BitVec.ofBool p.last)).getLsbD 3 := by
  unfold wordsV24
  dsimp only
  rw [show List.range 3 = [0, 1] ++ [2] from rfl, List.map_append, List.getLast?_append]
  exact ⟨_, rfl, rfl⟩

/-- Without a fourth pixel it is what the variable held before. -/
theorem short_mark (x : BitVec 4) {ps : List NarrowPixel} (hps : ps.length < 4) :
    (fill x (ps.map fun p => BitVec.ofBool p.last)).getLsbD 3 = x.getLsbD 3 := by
  unfold fill
  rw [getLsbD_fillFrom (by decide) _ x 0 3 (by decide), if_neg (by rw [List.length_map]; omega)]

/-- The end of a line that leaves the last group of `V_24` short is not marked on the last
word. -/
theorem packV24_short : ∀ (n : Nat) (user : Bool) (ds : List (BitVec 24)) (out : List WidePixel)
    (rest : List NarrowPixel), ds.length ≤ n → ds ≠ [] →
      packV24 zeros (burst user true ds) = some (out, rest) →
        out ≠ [] ∧ ((∀ b ∈ out.getLast?, b.last = true) → 4 ∣ ds.length) := by
  intro n
  induction n with
  | zero =>
    intro user ds out rest hn hds _
    exact absurd (List.length_eq_zero_iff.1 (by omega)) hds
  | succ n ih =>
    intro user ds out rest hn hds hpack
    unfold packV24 at hpack ih
    by_cases hlen : ds.length ≤ 4
    · rw [← List.append_nil (burst user true ds), packDelayed_tail user hds hlen] at hpack
      simp only [Option.some.injEq, Prod.mk.injEq] at hpack
      obtain ⟨rfl, -⟩ := hpack
      refine ⟨by simp [wordsV24], fun hlast => ?_⟩
      obtain ⟨b, hb, hmark⟩ := wordsV24_mark (zeros (burst user true ds ++ [])) (burst user true ds)
      have hpixels : (burst user true ds).length = ds.length := by
        conv_rhs => rw [← burst_data user true ds, List.length_map]
      have hpos : 0 < ds.length := List.length_pos_of_ne_nil hds
      by_cases hfour : ds.length = 4
      · simp [hfour]
      · rw [hlast b hb, short_mark _ (by omega)] at hmark
        simp [zeros] at hmark
    · obtain ⟨g, ds', rfl, hg, hds', hlen'⟩ := split_group (m := 4) (Nat.lt_of_not_le hlen)
      rw [← List.append_nil (burst user true (g ++ ds')), packDelayed_more user hg hds'] at hpack
      obtain ⟨⟨out', rest'⟩, hpack', heq⟩ := Option.map_eq_some_iff.1 hpack
      rw [List.append_nil] at hpack'
      obtain ⟨hne, hmark⟩ := ih false ds' out' rest' (by omega) hds' hpack'
      simp only [Prod.mk.injEq] at heq
      obtain ⟨rfl, -⟩ := heq
      refine ⟨by simp [hne], fun hlast => ?_⟩
      have hdvd := hmark fun b hb => hlast b (by
        rw [List.getLast?_append, List.getLast?_eq_some_getLast hne]
        rw [List.getLast?_eq_some_getLast hne] at hb
        exact hb)
      omega

/-- The loops over two pixels wait for the one that a line of odd length does not have. -/
theorem packPairs_short {core : Core 24 32} (hone : ∀ p, core [p] = none)
    (hmore : ∀ p q (input : List NarrowPixel), q.last = false →
      (core input = none → core (p :: q :: input) = none)) :
    ∀ (n : Nat) (user : Bool) (ds : List (BitVec 24)), ds.length = 2 * n + 1 →
      core (burst user true ds) = none := by
  intro n
  induction n with
  | zero =>
    intro user ds hn
    obtain ⟨d, rfl⟩ := List.length_eq_one_iff.1 hn
    exact hone _
  | succ n ih =>
    intro user ds hn
    match ds, hn with
    | d :: e :: f :: ds, hn =>
      simp only [List.length_cons] at hn
      show core (⟨d, user, false⟩ :: ⟨e, false, false⟩ :: burst false true (f :: ds)) = none
      exact hmore _ _ _ rfl (ih false (f :: ds) (by rw [List.length_cons]; omega))

theorem packV16_short (uninit : List NarrowPixel → Uninit) {user : Bool} {ds : List (BitVec 24)}
    (hodd : ¬ 2 ∣ ds.length) : packV16 uninit (burst user true ds) = none := by
  apply packPairs_short (fun _ => rfl) ?_ (ds.length / 2) user ds (by omega)
  intro p q input hq hnone
  rw [packV16]
  simp [hq, hnone]

theorem packV16C_short (uninit : List NarrowPixel → Uninit) {user : Bool} {ds : List (BitVec 24)}
    (hodd : ¬ 2 ∣ ds.length) : packV16C uninit (burst user true ds) = none := by
  apply packPairs_short (fun _ => rfl) ?_ (ds.length / 2) user ds (by omega)
  intro p q input hq hnone
  rw [packV16C]
  simp [hq, hnone]

/-! ## Top theorem -/

/-- `pixel_pack` turns a line into one packet, whatever its uninitialised variables hold and
whatever follows the line, exactly when the length fits the format. -/
theorem framed_iff (m : Mode) (alpha : BitVec 8) (user : Bool) (ds : List (BitVec 24))
    (hds : ds ≠ []) :
    (∀ uninit rest, ∃ out, pixelPack uninit m.code alpha (packet (user, ds) ++ rest) =
      some (packet (user, out), rest)) ↔ m.Frames ds.length := by
  have hserves : (m.pixelGroup ∣ ds.length) → ∀ uninit rest, ∃ out,
      pixelPack uninit m.code alpha (packet (user, ds) ++ rest) = some (packet (user, out), rest) := by
    intro hdvd uninit rest
    have hpos : 0 < m.pixelGroup := by cases m <;> decide
    exact ⟨_, pixelPack_serves uninit m alpha user ds rest ((grouped_iff hpos).2 ⟨hds, hdvd⟩)⟩
  unfold pixelPack at hserves ⊢
  rw [m.ofCode_code] at hserves ⊢
  cases m with
  | v24 =>
    refine ⟨fun h => ?_, hserves⟩
    obtain ⟨out, hout⟩ := h zeros []
    rw [List.append_nil] at hout
    exact (packV24_short _ user ds _ _ (Nat.le_refl _) hds hout).2 (burst_getLast user true out)
  | v32 => exact ⟨fun _ => trivial, fun _ => hserves (Nat.one_dvd _)⟩
  | v8 =>
    refine ⟨fun _ => trivial, fun _ uninit rest => ?_⟩
    obtain ⟨out, -, hout⟩ := packV8_framed uninit rest _ user ds (Nat.le_refl _) hds
    exact ⟨out, hout⟩
  | v16 =>
    refine ⟨fun h => ?_, hserves⟩
    by_contra hodd
    obtain ⟨out, hout⟩ := h zeros []
    rw [List.append_nil] at hout
    exact absurd (hout.symm.trans (packV16_short zeros hodd)) (by simp)
  | v16c =>
    refine ⟨fun h => ?_, hserves⟩
    by_contra hodd
    obtain ⟨out, hout⟩ := h zeros []
    rw [List.append_nil] at hout
    exact absurd (hout.symm.trans (packV16C_short zeros hodd)) (by simp)

theorem framed_iff_three :
    (∀ uninit rest, ∃ out, pixelPack uninit Mode.v24.code 0 (packet (true, [1, 2, 3]) ++ rest) =
      some (packet (true, out), rest)) ↔ Mode.v24.Frames 3 :=
  framed_iff .v24 0 true [1, 2, 3] (by decide)

end Hls
