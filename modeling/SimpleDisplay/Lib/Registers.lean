import SimpleDisplay.Lib.Keep

/-!
# Programming a register file

A driver reads and writes the registers of a device that also changes them by itself:
`drift k u v` says that register `k` may go from `u` to `v` without being written, and
`disturbs a v k` that writing `v` to `a` may change register `k` as well.  What the driver
knows of the registers is a list of addresses and values, the newest first; every access
has a rule for what is known after it.
-/

namespace Registers

structure Hardware where
  drift : Nat → Nat → Nat → Prop
  drift_trans : ∀ {k u v w : Nat}, drift k u v → drift k v w → drift k u w
  disturbs : Nat → Nat → Nat → Bool

namespace Hardware

variable (hw : Hardware)

/-- A read of `a` that gives `v`, with the registers before and after. -/
structure Read (file : Nat → Nat) (a v : Nat) (file' : Nat → Nat) : Prop where
  value : hw.drift a (file a) v
  after : hw.drift a v (file' a)
  others : ∀ k, k ≠ a → hw.drift k (file k) (file' k)

/-- A write of `v` to `a`. -/
structure Write (file : Nat → Nat) (a v : Nat) (file' : Nat → Nat) : Prop where
  after : hw.drift a v (file' a)
  others : ∀ k, k ≠ a → hw.disturbs a v k = false → hw.drift k (file k) (file' k)

/-- Each register that is known has at most drifted since. -/
def Knows (known : List (Nat × Nat)) (file : Nat → Nat) : Prop :=
  ∀ k v, known.lookup k = some v → hw.drift k v (file k)

/-- What a write leaves known of the other registers. -/
def kept (a v : Nat) (known : List (Nat × Nat)) : List (Nat × Nat) :=
  known.filter fun p => !hw.disturbs a v p.1

variable {hw} {known : List (Nat × Nat)} {file file' : Nat → Nat} {a v : Nat}

theorem lookup_cons (k a v : Nat) (known : List (Nat × Nat)) :
    ((a, v) :: known).lookup k = if k = a then some v else known.lookup k := by
  by_cases h : k = a
  · rw [if_pos h, h, List.lookup_cons_self]
  · rw [if_neg h, List.lookup_cons, beq_eq_false_iff_ne.2 h]

/-- A filter on the addresses alone. -/
theorem lookup_filter (f : Nat → Bool) (known : List (Nat × Nat)) (k : Nat) :
    (known.filter fun p => f p.1).lookup k = if f k then known.lookup k else none := by
  induction known with
  | nil => simp
  | cons p known ih =>
    obtain ⟨a, v⟩ := p
    by_cases ha : f a = true
    · rw [List.filter_cons_of_pos (by exact ha), lookup_cons, lookup_cons, ih]
      by_cases hk : k = a
      · simp [hk, ha]
      · simp [hk]
    · rw [List.filter_cons_of_neg (by exact ha), ih, lookup_cons]
      by_cases hk : k = a
      · simp [hk, ha]
      · simp [hk]

theorem Knows.read (h : hw.Knows known file) (hread : hw.Read file a v file') :
    hw.Knows ((a, v) :: known) file' ∧ ∀ u, known.lookup a = some u → hw.drift a u v := by
  refine ⟨?_, fun u hu => hw.drift_trans (h a u hu) hread.value⟩
  intro k u hu
  rw [lookup_cons] at hu
  by_cases hk : k = a
  · rw [if_pos hk] at hu
    obtain rfl := Option.some.inj hu
    rw [hk]
    exact hread.after
  · rw [if_neg hk] at hu
    exact hw.drift_trans (h k u hu) (hread.others k hk)

theorem Knows.write (h : hw.Knows known file) (hwrite : hw.Write file a v file') :
    hw.Knows ((a, v) :: hw.kept a v known) file' := by
  intro k u hu
  rw [lookup_cons] at hu
  by_cases hk : k = a
  · rw [if_pos hk] at hu
    obtain rfl := Option.some.inj hu
    rw [hk]
    exact hwrite.after
  · rw [if_neg hk] at hu
    unfold kept at hu
    rw [lookup_filter fun b => !hw.disturbs a v b] at hu
    by_cases hd : hw.disturbs a v k = false
    · rw [hd] at hu
      exact hw.drift_trans (h k u hu) (hwrite.others k hk hd)
    · simp [hd] at hu

/-- Known facts may be forgotten, and put in another order. -/
theorem Knows.mono {known' : List (Nat × Nat)} (h : hw.Knows known file)
    (hsub : ∀ k u, known'.lookup k = some u → known.lookup k = some u) : hw.Knows known' file :=
  fun k u hu => h k u (hsub k u hu)

/-- The newest fact forgotten: what was known before it still holds. -/
theorem Knows.tail (h : hw.Knows ((a, v) :: known) file)
    (hvalue : ∀ u, known.lookup a = some u → hw.drift a u v) : hw.Knows known file := by
  intro k u hu
  by_cases hk : k = a
  · subst hk
    exact hw.drift_trans (hvalue u hu) (h k v (by rw [lookup_cons, if_pos rfl]))
  · exact h k u (by rw [lookup_cons, if_neg hk]; exact hu)

/-- Facts about registers of which nothing was known before, forgotten. -/
theorem Knows.of_append {new : List (Nat × Nat)} (h : hw.Knows (new ++ known) file)
    (hnew : ∀ p ∈ new, known.lookup p.1 = none) : hw.Knows known file := by
  apply h.mono
  intro k u hu
  have hnone : new.lookup k = none := by
    rw [List.lookup_eq_none_iff]
    intro p hp
    rw [bne_iff_ne]
    rintro rfl
    rw [hnew p hp] at hu
    cases hu
  rw [List.lookup_append, hnone]
  exact hu

/-- A write that changes no other register. -/
def Calm (hw : Hardware) (a v : Nat) : Prop := ∀ k, hw.disturbs a v k = false

theorem Calm.kept (h : hw.Calm a v) : hw.kept a v known = known := by
  unfold Hardware.kept
  rw [List.filter_eq_self]
  intro p _
  rw [h p.1]
  rfl

end Hardware

/-! ## Rules for drivers -/

section

variable {σ ε : Type} (hw : Hardware) (regs : σ → Nat → Nat)

/-- Where `x` returns, it has read register `a`. -/
def Reads (x : ExceptT ε (StateM σ) Nat) (a : Nat) : Prop :=
  ∀ s v t, x s = (.ok v, t) → hw.Read (regs s) a v (regs t)

/-- Where `x` returns, it has written `v` to register `a`. -/
def Writes (x : ExceptT ε (StateM σ) Unit) (a v : Nat) : Prop :=
  ∀ s u t, x s = (.ok u, t) → hw.Write (regs s) a v (regs t)

/-- Where `x` returns from a state with `known`, what is known of the result is `Q`. -/
def Learns {α : Type} (known : List (Nat × Nat)) (x : ExceptT ε (StateM σ) α)
    (Q : α → List (Nat × Nat) → Prop) : Prop :=
  Ends (fun s => hw.Knows known (regs s)) x
    (fun a s => ∃ known', Q a known' ∧ hw.Knows known' (regs s)) fun _ _ => True

variable {hw regs} {α β : Type} {known : List (Nat × Nat)} {a : Nat}

theorem Learns.pure {b : α} {Q : α → List (Nat × Nat) → Prop} (h : Q b known) :
    Learns hw regs known (pure b : ExceptT ε (StateM σ) α) Q :=
  Ends.pure fun _ hs => ⟨known, h, hs⟩

theorem Learns.throw {e : ε} {Q : α → List (Nat × Nat) → Prop} :
    Learns hw regs known (throw e : ExceptT ε (StateM σ) α) Q :=
  Ends.throw fun _ _ => trivial

theorem Learns.imp {x : ExceptT ε (StateM σ) α} {Q R : α → List (Nat × Nat) → Prop}
    (hx : Learns hw regs known x Q) (h : ∀ b known', Q b known' → R b known') :
    Learns hw regs known x R := by
  refine Ends.imp hx (fun _ hs => hs) ?_ fun _ _ _ => trivial
  rintro b s ⟨known', hQ, hs⟩
  exact ⟨known', h b known' hQ, hs⟩

theorem Learns.bind {x : ExceptT ε (StateM σ) α} {f : α → ExceptT ε (StateM σ) β}
    {Q : α → List (Nat × Nat) → Prop} {R : β → List (Nat × Nat) → Prop}
    (hx : Learns hw regs known x Q) (hf : ∀ b known', Q b known' → Learns hw regs known' (f b) R) :
    Learns hw regs known (x >>= f : ExceptT ε (StateM σ) β) R := by
  apply Ends.bind hx
  rintro b s ⟨known', hQ, hs⟩
  exact hf b known' hQ s hs

/-- A step that tells nothing. -/
theorem Learns.skip {x : ExceptT ε (StateM σ) α} {f : α → ExceptT ε (StateM σ) β}
    {R : β → List (Nat × Nat) → Prop} (hx : Learns hw regs known x fun _ known' => known' = known)
    (hf : ∀ b, Learns hw regs known (f b) R) :
    Learns hw regs known (x >>= f : ExceptT ε (StateM σ) β) R := by
  apply hx.bind
  rintro b _ rfl
  exact hf b

theorem Learns.forM {γ : Type} {f : γ → ExceptT ε (StateM σ) PUnit} (l : List γ)
    (h : ∀ c ∈ l, Learns hw regs known (f c) fun _ known' => known' = known) :
    Learns hw regs known (l.forM f) fun _ known' => known' = known := by
  induction l with
  | nil => exact .pure rfl
  | cons c l ih =>
    apply (h c List.mem_cons_self).skip
    intro _
    exact ih fun d hd => h d (List.mem_cons_of_mem c hd)

/-- A loop of one pass. -/
theorem Learns.forM_singleton {γ : Type} {f : γ → ExceptT ε (StateM σ) PUnit} {c : γ}
    {Q : PUnit → List (Nat × Nat) → Prop} (h : Learns hw regs known (f c) Q) :
    Learns hw regs known ([c].forM f) Q :=
  h.bind fun _ _ hQ => .pure hQ

theorem Learns.of_knows {x : ExceptT ε (StateM σ) α} {Q : α → List (Nat × Nat) → Prop}
    {known' : List (Nat × Nat)} (hx : Learns hw regs known x Q)
    (h : ∀ file, hw.Knows known' file → hw.Knows known file) : Learns hw regs known' x Q :=
  fun s hs => hx s (h _ hs)

/-- A read, and what it tells about a register that was known. -/
theorem Reads.learns {x : ExceptT ε (StateM σ) Nat} (hx : Reads hw regs x a) :
    Learns hw regs known x fun v known' =>
      known' = (a, v) :: known ∧ ∀ u, known.lookup a = some u → hw.drift a u v := by
  intro s hs
  refine ⟨fun v t ht => ?_, fun _ _ _ => trivial⟩
  obtain ⟨hknows, hvalue⟩ := hs.read (hx s v t ht)
  exact ⟨_, ⟨rfl, hvalue⟩, hknows⟩

/-- A read whose value does not matter. -/
theorem Reads.skips {x : ExceptT ε (StateM σ) Nat} (hx : Reads hw regs x a) :
    Learns hw regs known x fun _ known' => known' = known := by
  intro s hs
  refine ⟨fun v t ht => ?_, fun _ _ _ => trivial⟩
  obtain ⟨hknows, hvalue⟩ := hs.read (hx s v t ht)
  exact ⟨_, rfl, hknows.tail hvalue⟩

theorem Writes.learns {x : ExceptT ε (StateM σ) Unit} {v : Nat} (hx : Writes hw regs x a v) :
    Learns hw regs known x fun _ known' => known' = (a, v) :: hw.kept a v known := by
  intro s hs
  exact ⟨fun u t ht => ⟨_, rfl, hs.write (hx s u t ht)⟩, fun _ _ _ => trivial⟩

theorem Writes.learns_calm {x : ExceptT ε (StateM σ) Unit} {v : Nat} (hx : Writes hw regs x a v)
    (hcalm : hw.Calm a v) :
    Learns hw regs known x fun _ known' => known' = (a, v) :: known := by
  intro s hs
  obtain ⟨hok, herr⟩ := hx.learns s hs
  rw [hcalm.kept] at hok
  exact ⟨hok, herr⟩

/-- A write of a register that nothing is known of. -/
theorem Writes.skips {x : ExceptT ε (StateM σ) Unit} {v : Nat} (hx : Writes hw regs x a v)
    (hcalm : hw.Calm a v) (hnew : known.lookup a = none) :
    Learns hw regs known x fun _ known' => known' = known := by
  intro s hs
  refine ⟨fun u t ht => ?_, fun _ _ _ => trivial⟩
  have hknows := hs.write (hx s u t ht)
  rw [hcalm.kept] at hknows
  refine ⟨_, rfl, hknows.tail fun w hw => ?_⟩
  rw [hnew] at hw
  cases hw

/-- A write, and the rest of the program. -/
theorem Writes.seq {x : ExceptT ε (StateM σ) Unit} {v : Nat} (hx : Writes hw regs x a v)
    (hcalm : hw.Calm a v) {f : Unit → ExceptT ε (StateM σ) β} {R : β → List (Nat × Nat) → Prop}
    (hf : Learns hw regs ((a, v) :: known) (f ()) R) :
    Learns hw regs known (x >>= f : ExceptT ε (StateM σ) β) R := by
  apply (hx.learns_calm hcalm).bind
  rintro ⟨⟩ _ rfl
  exact hf

/-- A table of writes. -/
theorem Learns.forM_writes {γ : Type} {f : γ → ExceptT ε (StateM σ) PUnit} {g : γ → Nat × Nat}
    (table : List γ) (hf : ∀ c ∈ table, Writes hw regs (f c) (g c).1 (g c).2)
    (hcalm : ∀ c ∈ table, hw.Calm (g c).1 (g c).2) : ∀ known,
    Learns hw regs known (table.forM f) fun _ known' => known' = (table.map g).reverse ++ known := by
  induction table with
  | nil => exact fun known => .pure rfl
  | cons c table ih =>
    intro known
    apply (hf c List.mem_cons_self).seq (hcalm c List.mem_cons_self)
    have hrest := ih (fun d hd => hf d (List.mem_cons_of_mem c hd))
      (fun d hd => hcalm d (List.mem_cons_of_mem c hd)) (g c :: known)
    rw [List.map_cons, List.reverse_cons, List.append_assoc]
    exact hrest

/-- What a computation keeps it does not forget. -/
theorem Learns.of_keeps {x : ExceptT ε (StateM σ) α} (h : Keeps (fun s => hw.Knows known (regs s)) x) :
    Learns hw regs known x fun _ known' => known' = known := by
  intro s hs
  refine ⟨fun b t ht => ⟨known, rfl, ?_⟩, fun _ _ _ => trivial⟩
  have ht' := h s hs
  rw [ht] at ht'
  exact ht'

/-- Where nothing is known, nothing is lost. -/
theorem Learns.nothing (x : ExceptT ε (StateM σ) α) :
    Learns hw regs [] x fun _ known' => known' = [] :=
  .of_keeps fun _ _ k v hv => by cases hv

end

end Registers
