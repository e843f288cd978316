import SimpleDisplay.Drm.StaticPipeline
import SimpleDisplay.Lib.Fifo
import SimpleDisplay.Pipeline.Handoff

/-!
# Programming the HDMI transmitter

The IIC controller has a transmit queue that it empties onto the bus.  Both drivers reset it
and put the words of their table into it, each after the status register has shown room.  No
word is lost, and after a success the queue is empty: the bus has carried the whole table.
-/

namespace SimpleDisplay

open Fifo

def iicStatusRegister : Nat := axi (iicOffset + iicStatus)
def iicTxFifoRegister : Nat := axi (iicOffset + iicTxFifo)
def iicControlRegister : Nat := axi (iicOffset + iicControl)
def iicReset : Nat := axi (iicOffset + iicResetRegister)

/-- A write that empties the transmit queue. -/
def iicResets (a v : Nat) : Bool :=
  a == iicReset && v == iicResetValue || a == iicControlRegister && v &&& iicControlTxFifoReset != 0

/-- What a write of `v` to register `a` does to the transmit queue. -/
def iicAccept (depth : Nat) (q : Queue Nat) (a v : Nat) : Queue Nat :=
  if a = iicTxFifoRegister then q.put depth v else if iicResets a v then q.flush else q

/-- A read of `v` from `a`: the status is that of the queue at some moment of the access. -/
structure IicRead (depth : Nat) (q : Queue Nat) (a v : Nat) (q' : Queue Nat) : Prop where
  seen : ∃ mid, q.Drains mid ∧ mid.Drains q' ∧ (a = iicStatusRegister →
    (v &&& iicStatusTxFifoFull = 0 ↔ mid.waiting.length < depth) ∧
      (v &&& iicStatusTxFifoEmpty = iicStatusTxFifoEmpty ↔ mid.waiting = []))

structure IicWrite (depth : Nat) (q : Queue Nat) (a v : Nat) (q' : Queue Nat) : Prop where
  done : ∃ mid, q.Drains mid ∧ (iicAccept depth mid a v).Drains q'

/-- `ioread32` and `iowrite32` reach the controller. -/
structure IicMmio {σ : Type} (depth : Nat) (io : FpgaDrm.Mmio σ) (queue : σ → Queue Nat) : Prop where
  read : ∀ offset s,
    IicRead depth (queue s) (axi offset) (io.ioread32 offset s).1 (queue (io.ioread32 offset s).2)
  write : ∀ value offset s,
    IicWrite depth (queue s) (axi offset) value (queue (io.iowrite32 value offset s))

/-- `PciIo` reaches the controller through BAR2; an access that fails was not made. -/
structure IicPci {σ : Type} (depth : Nat) (pci : PciIo σ) (queue : σ → Queue Nat) : Prop where
  read : ∀ offset s, let r := pci.memRead barIndex offset 1 s
    if r.1.1.isError then (queue s).Drains (queue r.2)
    else IicRead depth (queue s) (axi offset) (leWord r.1.2) (queue r.2)
  write : ∀ offset bytes s, let r := pci.memWrite barIndex offset 1 bytes s
    if r.1.isError then (queue s).Drains (queue r.2)
    else IicWrite depth (queue s) (axi offset) (leWord bytes) (queue r.2)

/-! ## On the bus -/

/-- The words of a write of `data` to a register of a device. -/
def iicWords (setting : Nat × Nat × Nat) : List Nat :=
  [iicDynamicStart ||| setting.1, setting.2.1, iicDynamicStop ||| setting.2.2]

/-- The table of either driver. -/
def hdmiWords : List Nat := hdmiSettings.flatMap iicWords

/-- The transfers that a controller in dynamic mode makes of its words: a start word opens
one and a stop word closes it. -/
def busTransfers : Option (List Nat) → List Nat → Option (List (List Nat))
  | none, [] => some []
  | some _, [] => none
  | none, w :: ws =>
    if w &&& iicDynamicStart ≠ 0 then busTransfers (some [w % 256]) ws else none
  | some bytes, w :: ws =>
    if w &&& iicDynamicStart ≠ 0 then none
    else if w &&& iicDynamicStop ≠ 0 then
      (busTransfers none ws).map fun ts => (bytes ++ [w % 256]) :: ts
    else busTransfers (some (bytes ++ [w % 256])) ws

theorem byte_bits {b : Nat} (hb : b < 256) :
    b &&& iicDynamicStart = 0 ∧ b &&& iicDynamicStop = 0 ∧ (iicDynamicStart ||| b) % 256 = b ∧
      (iicDynamicStop ||| b) % 256 = b ∧ (iicDynamicStart ||| b) &&& iicDynamicStart ≠ 0 ∧
      (iicDynamicStop ||| b) &&& iicDynamicStart = 0 ∧
      (iicDynamicStop ||| b) &&& iicDynamicStop ≠ 0 := by
  revert b
  decide +kernel

/-- The transfers of a table are its settings. -/
theorem busTransfers_settings (table : List (Nat × Nat × Nat))
    (h : ∀ t ∈ table, t.1 < 256 ∧ t.2.1 < 256 ∧ t.2.2 < 256) :
    busTransfers none (table.flatMap iicWords) = some (table.map fun t => [t.1, t.2.1, t.2.2]) := by
  induction table with
  | nil => rfl
  | cons t table ih =>
    obtain ⟨hdevice, hregister, hdata⟩ := h t List.mem_cons_self
    obtain ⟨-, -, hstart, -, hopens, -⟩ := byte_bits hdevice
    obtain ⟨hplain, hplain', -⟩ := byte_bits hregister
    obtain ⟨-, -, -, hstop, -, hgoes, hcloses⟩ := byte_bits hdata
    rw [List.flatMap_cons, List.map_cons]
    show busTransfers none ((iicDynamicStart ||| t.1) :: t.2.1 :: (iicDynamicStop ||| t.2.2) ::
      table.flatMap iicWords) = _
    rw [busTransfers, if_pos hopens, busTransfers, if_neg (not_not.2 hplain),
      if_neg (not_not.2 hplain'), busTransfers, if_neg (not_not.2 hgoes), if_pos hcloses,
      ih fun u hu => h u (List.mem_cons_of_mem t hu), hstart, hstop, Nat.mod_eq_of_lt hregister]
    rfl

/-! ## Accesses -/

section

variable {σ ε : Type} {depth : Nat} {queue : σ → Queue Nat}

/-- `x` is a read of the status register. -/
def ReadsStatus (depth : Nat) (queue : σ → Queue Nat) (x : ExceptT ε (StateM σ) Nat) : Prop :=
  ∀ s, (∀ e, (x s).1 = .error e → (queue s).Drains (queue (x s).2)) ∧
    ∀ v, (x s).1 = .ok v → IicRead depth (queue s) iicStatusRegister v (queue (x s).2)

/-- `x` is a write of `v` to `a`. -/
def WritesIic (depth : Nat) (queue : σ → Queue Nat) (x : ExceptT ε (StateM σ) Unit) (a v : Nat) :
    Prop :=
  ∀ s, (∀ e, (x s).1 = .error e → (queue s).Drains (queue (x s).2)) ∧
    ((x s).1 = .ok () → IicWrite depth (queue s) a v (queue (x s).2))

/-- What a wait for some bits knows of the queue where it returns. -/
def Shown (depth clear set : Nat) (q : Queue Nat) : Prop :=
  (clear = iicStatusTxFifoFull → q.waiting.length < depth) ∧
    (set = iicStatusTxFifoEmpty → q.waiting = [])

theorem ReadsStatus.looks {x : ExceptT ε (StateM σ) Nat} (h : ReadsStatus depth queue x) :
    Looks queue (fun _ => True) x fun v q => ∀ clear set, v &&& clear = 0 → v &&& set = set →
      Shown depth clear set q := by
  intro s _
  obtain ⟨herr, hok⟩ := h s
  rcases hrun : (x s).1 with e | v
  · refine ⟨herr e hrun, ?_⟩
    rintro _ ⟨⟩
  · obtain ⟨mid, hd, hd', hstatus⟩ := (hok v hrun).seen
    obtain ⟨hfull, hempty⟩ := hstatus rfl
    refine ⟨hd.trans hd', ?_⟩
    rintro _ ⟨⟩ clear set hclear hset
    refine ⟨?_, ?_⟩
    · rintro rfl
      exact Nat.lt_of_le_of_lt hd'.length_le (hfull.1 hclear)
    · rintro rfl
      exact hd'.nil (hempty.1 hset)

theorem WritesIic.enqueues {x : ExceptT ε (StateM σ) Unit} {v : Nat}
    (h : WritesIic depth queue x iicTxFifoRegister v) : Enqueues queue depth x v := by
  intro s
  obtain ⟨herr, hok⟩ := h s
  rcases hrun : (x s).1 with e | ⟨⟩
  · exact ⟨queue s, .refl _, by rintro ⟨⟩, fun _ _ => herr e hrun⟩
  · obtain ⟨mid, hd, hd'⟩ := (hok hrun).done
    refine ⟨mid, hd, fun _ => ?_, by rintro _ ⟨⟩⟩
    unfold iicAccept at hd'
    rw [if_pos rfl] at hd'
    exact hd'

/-- A write to another register, while nothing waits. -/
theorem WritesIic.idle {x : ExceptT ε (StateM σ) Unit} {a v : Nat} (h : WritesIic depth queue x a v)
    (ha : a ≠ iicTxFifoRegister) {base ws : List Nat} :
    Ends (fun s => Sent queue base ws s ∧ (queue s).waiting = []) x
      (fun _ s => Sent queue base ws s ∧ (queue s).waiting = []) fun _ => Sent queue base ws := by
  rintro s ⟨hs, hnil⟩
  obtain ⟨herr, hok⟩ := h s
  refine ⟨fun u t ht => ?_, fun e t ht => ?_⟩
  · rw [ht] at hok
    obtain ⟨mid, hd, hd'⟩ := (hok rfl).done
    have hmid : iicAccept depth mid a v = mid := by
      unfold iicAccept Queue.flush
      rw [if_neg ha, ← hd.nil hnil]
      split <;> rfl
    rw [hmid] at hd'
    exact ⟨hs.later (hd.trans hd'), hd'.nil (hd.nil hnil)⟩
  · rw [ht] at herr
    exact hs.later (herr e rfl)

/-- The words that the bus had carried by a reset. -/
def carried (q : Queue Nat) (n : Nat) : List Nat := q.gone ++ q.waiting.take n

/-- A reset starts a new count. -/
theorem WritesIic.resets {x : ExceptT ε (StateM σ) Unit} {a v : Nat} (h : WritesIic depth queue x a v)
    (ha : a ≠ iicTxFifoRegister) (hreset : iicResets a v = true) (words : List Nat) (s₀ : σ) :
    Ends (fun s => s = s₀) x
      (fun _ s => ∃ n, Sent queue (carried (queue s₀) n) [] s ∧ (queue s).waiting = [])
      fun _ s => ∃ n, Partly queue (carried (queue s₀) n) words s := by
  rintro s rfl
  obtain ⟨herr, hok⟩ := h s
  refine ⟨fun u t ht => ?_, fun e t ht => ?_⟩
  · rw [ht] at hok
    obtain ⟨mid, hd, hd'⟩ := (hok rfl).done
    obtain ⟨n, hn⟩ := Queue.flush_all hd
    unfold iicAccept at hd'
    rw [if_neg ha, if_pos hreset] at hd'
    refine ⟨n, ?_, hd'.nil rfl⟩
    unfold Sent carried
    rw [hd'.all, hn, List.append_nil]
  · rw [ht] at herr
    refine ⟨(queue s).waiting.length, [], List.nil_prefix, ?_⟩
    unfold Sent carried
    rw [(herr e rfl).all, List.take_length, List.append_nil]
    rfl

/-- What programming the transmitter leaves, whether it succeeds or not: since the reset the
queue was given a part of `words`, in order, and after a success the bus has carried them all. -/
def Delivers (queue : σ → Queue Nat) (words : List Nat) (x : ExceptT ε (StateM σ) Unit) : Prop :=
  ∀ s, ∃ n, Partly queue (carried (queue s) n) words (x s).2 ∧
    ((x s).1 = .ok () → queue (x s).2 = ⟨carried (queue s) n ++ words, []⟩)

theorem Delivers.of_ends {x : ExceptT ε (StateM σ) Unit} {words : List Nat}
    (h : ∀ s₀, Ends (fun s => s = s₀) x
      (fun _ s => ∃ n, Sent queue (carried (queue s₀) n) words s ∧ (queue s).waiting = [])
      fun _ s => ∃ n, Partly queue (carried (queue s₀) n) words s) : Delivers queue words x := by
  intro s
  obtain ⟨hok, herr⟩ := h s s rfl
  rcases hrun : x s with ⟨e | ⟨⟩, t⟩
  · obtain ⟨n, hn⟩ := herr e t hrun
    refine ⟨n, hn, ?_⟩
    rintro ⟨⟩
  · obtain ⟨n, hsent, hnil⟩ := hok () t hrun
    refine ⟨n, hsent.partly List.prefix_rfl, fun _ => ?_⟩
    unfold Sent Queue.all at hsent
    rw [hnil, List.append_nil] at hsent
    rw [← hsent, ← hnil]

/-- The writes of a driver after its reset, while the queue is empty, and then its table. -/
theorem Delivers.of_reset {γ : Type} {x y z : ExceptT ε (StateM σ) Unit} {a v b w b' w' : Nat}
    (hx : WritesIic depth queue x a v) (ha : a ≠ iicTxFifoRegister) (hreset : iicResets a v = true)
    (hy : WritesIic depth queue y b w) (hb : b ≠ iicTxFifoRegister)
    (hz : WritesIic depth queue z b' w') (hb' : b' ≠ iicTxFifoRegister)
    {table : List γ} {f : γ → ExceptT ε (StateM σ) PUnit} {words : γ → List Nat}
    (hf : ∀ c ∈ table, ∀ base ws, Ends (Sent queue base ws) (f c)
      (fun _ s => Sent queue base (ws ++ words c) s ∧ (queue s).waiting = [])
      fun _ => Partly queue base (ws ++ words c)) :
    Delivers queue (table.flatMap words) (do x; y; z; table.forM f) := by
  apply Delivers.of_ends
  intro s₀
  apply (hx.resets ha hreset (table.flatMap words) s₀).bind
  rintro ⟨⟩ s ⟨n, hs⟩
  have hloop := forM_sends (R := fun q => q.waiting = []) table
    (fun c hc ws => hf c hc (carried (queue s₀) n) ws) []
  rw [List.nil_append] at hloop
  have hnone : ∀ t, Sent queue (carried (queue s₀) n) [] t →
      Partly queue (carried (queue s₀) n) (table.flatMap words) t :=
    fun t ht => ht.partly List.nil_prefix
  have hsecond := (hy.idle hb).imp (fun _ h => h) (fun _ _ h => h) fun _ => hnone
  have hthird := (hz.idle hb').imp (fun _ h => h) (fun _ _ h => h) fun _ => hnone
  obtain ⟨hok, herr⟩ := (hsecond.bind fun _ => hthird.bind fun _ => hloop) s hs
  exact ⟨fun u t ht => ⟨n, hok u t ht⟩, fun e t ht => ⟨n, herr e t ht⟩⟩

/-- Three words, each after a look for room, between two waits. -/
theorem setting_sends {wait wait' : ExceptT ε (StateM σ) Unit} {room : ExceptT ε (StateM σ) Unit}
    {write : Nat → ExceptT ε (StateM σ) Unit} {a b c : Nat}
    (hwait : Looks queue (fun _ => True) wait fun _ _ => True)
    (hroom : Looks queue (fun _ => True) room fun _ q => q.waiting.length < depth)
    (hwrite : ∀ w ∈ [a, b, c], Enqueues queue depth (write w) w)
    (hwait' : Looks queue (fun _ => True) wait' fun _ q => q.waiting = []) (base ws : List Nat) :
    Ends (Sent queue base ws)
      (do wait; (do room; write a); (do room; write b); (do room; write c); wait')
      (fun _ s => Sent queue base (ws ++ [a, b, c]) s ∧ (queue s).waiting = [])
      fun _ => Partly queue base (ws ++ [a, b, c]) := by
  have hput : ∀ w ∈ [a, b, c], ∀ vs, vs <+: ws ++ [a, b, c] → Ends (Sent queue base vs)
      (do room; write w) (fun _ => Sent queue base (vs ++ [w]))
      fun _ => Partly queue base (ws ++ [a, b, c]) := by
    intro w hw vs hvs
    exact (hroom.puts (hwrite w hw)).imp (fun s hs => ⟨hs, trivial⟩) (fun _ _ hs => hs)
      fun _ s hs => hs.partly hvs
  have hlook : ∀ {x : ExceptT ε (StateM σ) Unit} {R : Queue Nat → Prop} {vs : List Nat},
      Looks queue (fun _ => True) x (fun _ => R) → vs <+: ws ++ [a, b, c] →
      Ends (Sent queue base vs) x (fun _ s => Sent queue base vs s ∧ R (queue s))
        fun _ => Partly queue base (ws ++ [a, b, c]) := by
    intro x R vs hx hvs
    exact hx.ends.imp (fun s hs => ⟨hs, trivial⟩) (fun _ _ hs => hs) fun _ s hs => hs.partly hvs
  have h0 : ws <+: ws ++ [a, b, c] := ⟨[a, b, c], rfl⟩
  have h1 : ws ++ [a] <+: ws ++ [a, b, c] := ⟨[b, c], by simp⟩
  have h2 : ws ++ [a] ++ [b] <+: ws ++ [a, b, c] := ⟨[c], by simp⟩
  have h3 : ws ++ [a] ++ [b] ++ [c] = ws ++ [a, b, c] := by simp
  have hlast := hlook hwait' ⟨[], List.append_nil (ws ++ [a, b, c])⟩
  have hthird := hput c (by simp) _ h2
  rw [h3] at hthird
  have hfirst := (hlook hwait h0).imp (fun _ h => h) (fun _ _ h => h.1) fun _ _ h => h
  exact hfirst.bind fun _ => (hput a (by simp) _ h0).bind fun _ => (hput b (by simp) _ h1).bind
    fun _ => hthird.bind fun _ => hlast

end

/-! ## The Linux driver -/

section

open FpgaDrm

variable {σ : Type} {depth : Nat} {io : Mmio σ} {queue : σ → Queue Nat} (hio : IicMmio depth io queue)
  (fpga : MmioBar)
include hio

theorem axiRead_status : ReadsStatus depth queue (axiRead io fpga (hwAxiIicBase + axiIicSr)) := by
  intro s
  unfold axiRead
  cases hoffset : FpgaDrm.mmioCheck fpga (hwAxiIicBase + axiIicSr) 4 with
  | error e => exact ⟨fun _ _ => .refl _, by rintro _ ⟨⟩⟩
  | ok offset =>
    refine ⟨by rintro _ ⟨⟩, ?_⟩
    rintro _ ⟨⟩
    have hread := hio.read offset s
    rw [mmioCheck_ok hoffset] at hread
    exact hread

theorem axiWrite_iic (addr val : Nat) :
    WritesIic depth queue (axiWrite io fpga addr val) addr (val % 2 ^ 32) := by
  intro s
  unfold axiWrite
  cases hoffset : FpgaDrm.mmioCheck fpga addr 4 with
  | error e => exact ⟨fun _ _ => .refl _, by rintro ⟨⟩⟩
  | ok offset =>
    refine ⟨by rintro _ ⟨⟩, fun _ => ?_⟩
    have hwrite := hio.write (val % 2 ^ 32) offset s
    rw [mmioCheck_ok hoffset] at hwrite
    exact hwrite

theorem pollIic_looks (clear set n : Nat) : Looks queue (fun _ => True)
    (pollIic io fpga clear set n) fun _ => Shown depth clear set := by
  induction n with
  | zero => exact .throw
  | succ n ih =>
    apply (axiRead_status hio fpga).looks.bind
    intro sr
    by_cases hdone : sr &&& clear = 0 ∧ sr &&& set = set
    · rw [if_pos hdone]
      exact .pure fun q hq => hq clear set hdone.1 hdone.2
    · rw [if_neg hdone]
      exact ih.imp (fun _ _ => trivial) fun _ _ h => h

theorem iicWriteReg_sends (e : I2cLutEntry) (he : e.devAddr8 < 256 ∧ e.regData < 256)
    (base ws : List Nat) :
    Ends (Sent queue base ws) (iicWriteReg io fpga e)
      (fun _ s => Sent queue base (ws ++ iicWords (e.devAddr8 >>> 1 <<< 1, e.regAddr &&& 0xff, e.regData)) s ∧
        (queue s).waiting = [])
      fun _ => Partly queue base (ws ++ iicWords (e.devAddr8 >>> 1 <<< 1, e.regAddr &&& 0xff, e.regData)) := by
  have hdevice : e.devAddr8 >>> 1 <<< 1 < 256 := by
    have hall : ∀ d < 256, d >>> 1 <<< 1 < 256 := by decide +kernel
    exact hall _ he.1
  have hregister : e.regAddr &&& 0xff < 256 := Nat.lt_succ_of_le Nat.and_le_right
  have hword : ∀ w ∈ iicWords (e.devAddr8 >>> 1 <<< 1, e.regAddr &&& 0xff, e.regData),
      w < 2 ^ 32 := by
    have hor : ∀ b < 256, iicDynamicStart ||| b < 2 ^ 32 ∧ iicDynamicStop ||| b < 2 ^ 32 := by
      decide +kernel
    have hstart := (hor _ hdevice).1
    have hstop := (hor _ he.2).2
    intro w hw
    simp only [iicWords, List.mem_cons, List.not_mem_nil, or_false] at hw
    rcases hw with rfl | rfl | rfl <;> omega
  have hidle : Looks queue (fun _ => True) (iicWait io fpga axiIicSrBusBusy 0 100000) fun _ _ => True :=
    (pollIic_looks hio fpga _ _ _).imp (fun _ h => h) fun _ _ _ => trivial
  have hroom := (pollIic_looks hio fpga axiIicSrTxFifoFull 0 (max 1 ((10000 + 9) / 10))).imp
    (fun _ h => h) fun _ _ h => h.1 rfl
  have hempty := (pollIic_looks hio fpga axiIicSrBusBusy axiIicSrTxFifoEmpty
    (max 1 ((100000 + 9) / 10))).imp (fun _ h => h) fun _ _ h => h.2 rfl
  refine setting_sends hidle hroom (fun w hw => ?_) hempty base ws
  have hputs := (axiWrite_iic hio fpga (hwAxiIicBase + axiIicDtr) w).enqueues
  rw [Nat.mod_eq_of_lt (hword w hw)] at hputs
  exact hputs

theorem configIicHdmi_delivers : Delivers queue hdmiWords (configIicHdmi io fpga) := by
  have htable : ∀ e ∈ fpgaHdmiLut.takeWhile fun e => e.devAddr8 ≠ 0xff,
      e.devAddr8 < 256 ∧ e.regData < 256 := by
    decide
  have hwords : (fpgaHdmiLut.takeWhile fun e => e.devAddr8 ≠ 0xff).flatMap
      (fun e => iicWords (e.devAddr8 >>> 1 <<< 1, e.regAddr &&& 0xff, e.regData)) =
      hdmiWords := by
    decide
  rw [← hwords]
  exact Delivers.of_reset (axiWrite_iic hio fpga _ _) (by decide) (by decide)
    (axiWrite_iic hio fpga _ _) (by decide) (axiWrite_iic hio fpga _ _) (by decide)
    fun e he base ws => iicWriteReg_sends hio fpga e (htable e he) base ws

end

/-! ## The firmware -/

section

variable {σ : Type} {depth : Nat} {pci : PciIo σ} {queue : σ → Queue Nat}
  (hpci : IicPci depth pci queue) {context : HwContext} (hbar : context.barIndex = barIndex)
include hpci hbar

theorem read32_status : ReadsStatus depth queue (read32 pci context (iicOffset + iicStatus)) := by
  intro s
  unfold read32
  split
  · exact ⟨fun _ _ => .refl _, by rintro _ ⟨⟩⟩
  · rw [hbar, show barIndex % 256 = barIndex from rfl]
    have hread := hpci.read (iicOffset + iicStatus) s
    dsimp only at hread ⊢
    unfold Status.andReturn
    by_cases herr : (pci.memRead barIndex (iicOffset + iicStatus) 1 s).1.1.isError = true
    · rw [if_pos herr] at hread ⊢
      exact ⟨fun _ _ => hread, by rintro _ ⟨⟩⟩
    · rw [if_neg herr] at hread ⊢
      refine ⟨by rintro _ ⟨⟩, ?_⟩
      rintro _ ⟨⟩
      exact hread

theorem write32_iic (offset value : Nat) :
    WritesIic depth queue (write32 pci context offset value) (axi offset) (value % 2 ^ 32) := by
  intro s
  unfold write32
  split
  · exact ⟨fun _ _ => .refl _, by rintro ⟨⟩⟩
  · rw [hbar, show barIndex % 256 = barIndex from rfl]
    have hwrite := hpci.write offset (leBytes value) s
    rw [leWord_leBytes] at hwrite
    dsimp only at hwrite ⊢
    unfold Status.andReturn
    by_cases herr : (pci.memWrite barIndex offset 1 (leBytes value) s).1.isError = true
    · rw [if_pos herr] at hwrite ⊢
      exact ⟨fun _ _ => hwrite, by rintro ⟨⟩⟩
    · rw [if_neg herr] at hwrite ⊢
      exact ⟨by rintro _ ⟨⟩, fun _ => hwrite⟩

theorem waitForBits_looks (clear set timeout poll : Nat) : Looks queue (fun _ => True)
    (waitForBits pci context (iicOffset + iicStatus) clear set timeout poll)
    fun _ => Shown depth clear set := by
  unfold waitForBits
  generalize (timeout + poll - 1) / poll = n
  induction n with
  | zero => exact .throw
  | succ n ih =>
    apply (read32_status hpci hbar).looks.bind
    intro value
    by_cases hdone : value &&& clear = 0 ∧ value &&& set = set
    · rw [if_pos hdone]
      exact .pure fun q hq => hq clear set hdone.1 hdone.2
    · rw [if_neg hdone]
      exact ih.imp (fun _ _ => trivial) fun _ _ h => h

theorem configureHdmi_delivers : Delivers queue hdmiWords (configureHdmi pci context) := by
  have htable : ∀ t ∈ hdmiSettings, ∀ w ∈ iicWords t, w < 2 ^ 32 := by decide
  refine Delivers.of_reset (write32_iic hpci hbar _ _) (by decide) (by decide)
    (write32_iic hpci hbar _ _) (by decide) (write32_iic hpci hbar _ _) (by decide)
    fun t ht base ws => ?_
  have hidle : Looks queue (fun _ => True)
      (waitForBits pci context (iicOffset + iicStatus) iicStatusBusBusy 0 100000 10) fun _ _ => True :=
    (waitForBits_looks hpci hbar _ _ _ _).imp (fun _ h => h) fun _ _ _ => trivial
  have hroom := (waitForBits_looks hpci hbar iicStatusTxFifoFull 0 10000 10).imp
    (fun _ h => h) fun _ _ h => h.1 rfl
  have hempty := (waitForBits_looks hpci hbar iicStatusBusBusy iicStatusTxFifoEmpty 100000 10).imp
    (fun _ h => h) fun _ _ h => h.2 rfl
  refine setting_sends hidle hroom (fun w hw => ?_) hempty base ws
  have hputs := (write32_iic hpci hbar (iicOffset + iicTxFifo) w).enqueues
  rw [Nat.mod_eq_of_lt (htable t ht w hw)] at hputs
  exact hputs

end

/-! ## Top theorem -/

/-- Either driver, from any state and against a controller that empties its queue at any
moment: no word is lost, a failure has sent a first part of the table, and after a success the
bus has carried the two writes to the transmitter. -/
theorem hdmi_programmed {σ τ : Type} {depth : Nat} {io : FpgaDrm.Mmio σ} {queue : σ → Queue Nat}
    (hio : IicMmio depth io queue) (fpga : FpgaDrm.MmioBar) {pci : PciIo τ} {queue' : τ → Queue Nat}
    (hpci : IicPci depth pci queue') {context : HwContext} {s₀ s₁ : τ}
    (hinit : hwInitializeContext pci s₀ = (.ok context, s₁)) :
    Delivers queue hdmiWords (FpgaDrm.configIicHdmi io fpga) ∧
      Delivers queue' hdmiWords (configureHdmi pci context) ∧
      busTransfers none hdmiWords = some [[0x72, 0x08, 0x35], [0x7A, 0x2F, 0x00]] :=
  ⟨configIicHdmi_delivers hio fpga, configureHdmi_delivers hpci (hwInitializeContext_barIndex hinit),
    busTransfers_settings hdmiSettings (by decide)⟩

/-! ## A controller that sends a word for each access -/

def tick (q : Queue Nat) : Queue Nat := ⟨q.gone ++ q.waiting.take 1, q.waiting.drop 1⟩

theorem tick_drains (q : Queue Nat) : q.Drains (tick q) := ⟨1, rfl⟩

def iicStatusOf (q : Queue Nat) : Nat :=
  (if q.waiting.length < 16 then 0 else iicStatusTxFifoFull) |||
    if q.waiting = [] then iicStatusTxFifoEmpty else 0

/-- The value of a register other than the status is `v`. -/
def iicValue (a v : Nat) (q : Queue Nat) : Nat := if a = iicStatusRegister then iicStatusOf q else v

theorem iicValue_read (a v : Nat) (q : Queue Nat) : IicRead 16 q a (iicValue a v (tick q)) (tick q) := by
  refine ⟨tick q, tick_drains q, .refl _, ?_⟩
  rintro rfl
  unfold iicValue iicStatusOf
  rw [if_pos rfl]
  by_cases hroom : (tick q).waiting.length < 16
  · by_cases hnil : (tick q).waiting = []
    · rw [if_pos hroom, if_pos hnil]
      exact ⟨⟨fun _ => hroom, fun _ => by decide⟩, ⟨fun _ => hnil, fun _ => by decide⟩⟩
    · rw [if_pos hroom, if_neg hnil]
      exact ⟨⟨fun _ => hroom, fun _ => by decide⟩, ⟨fun h => absurd h (by decide), fun h => absurd h hnil⟩⟩
  · have hne : (tick q).waiting ≠ [] := by
      intro hnil
      rw [hnil] at hroom
      exact hroom (by decide)
    rw [if_neg hroom, if_neg hne]
    exact ⟨⟨fun h => absurd h (by decide), fun h => absurd h hroom⟩,
      ⟨fun h => absurd h (by decide), fun h => absurd h hne⟩⟩

/-- The registers of `fileMmio` beside the controller. -/
def queueMmio : FpgaDrm.Mmio (RegisterFile × Queue Nat) where
  ioread32 offset s :=
    (iicValue (axi offset) (fileMmio.ioread32 offset s.1).1 (tick s.2),
      ((fileMmio.ioread32 offset s.1).2, tick s.2))
  iowrite32 value offset s :=
    (fileMmio.iowrite32 value offset s.1, tick (iicAccept 16 s.2 (axi offset) value))

def queuePci : PciIo (RegisterFile × Queue Nat) where
  attributes op bits s := ((filePci.attributes op bits s.1).1, s)
  pciRead8 offset count s := ((filePci.pciRead8 offset count s.1).1, s)
  pciRead16 offset s := ((filePci.pciRead16 offset s.1).1, s)
  pciWrite16 offset value s := ((filePci.pciWrite16 offset value s.1).1, s)
  getBarAttributes bar s := ((filePci.getBarAttributes bar s.1).1, s)
  memRead bar offset count s :=
    let r := filePci.memRead bar offset count s.1
    ((r.1.1, leBytes (iicValue (axi offset) (leWord r.1.2) (tick s.2))), (r.2, tick s.2))
  memWrite bar offset count bytes s :=
    let r := filePci.memWrite bar offset count bytes s.1
    (r.1, (r.2, tick (iicAccept 16 s.2 (axi offset) (leWord bytes))))

theorem queueMmio_iic : IicMmio 16 queueMmio Prod.snd :=
  ⟨fun offset s => iicValue_read (axi offset) _ s.2,
    fun _ _ _ => ⟨_, .refl _, tick_drains _⟩⟩

theorem iicValue_lt {a v : Nat} (hv : v < 2 ^ 32) (q : Queue Nat) : iicValue a v q < 2 ^ 32 := by
  unfold iicValue iicStatusOf
  split
  · split <;> split <;> decide
  · exact hv

theorem queuePci_iic : IicPci 16 queuePci Prod.snd := by
  refine ⟨fun offset s => ?_, fun offset bytes s => ?_⟩
  · show IicRead 16 s.2 (axi offset) (leWord (leBytes (iicValue _ _ _))) _
    rw [leWord_leBytes, Nat.mod_eq_of_lt (iicValue_lt (leWord_lt _) _)]
    exact iicValue_read (axi offset) _ s.2
  · exact ⟨_, .refl _, tick_drains _⟩

theorem hdmi_programmed_tick : ∃ context start,
    hwInitializeContext queuePci (fun _ => 0, ⟨[], []⟩) = (.ok context, start) ∧
      (configureHdmi queuePci context start).1 = .ok () ∧
      Delivers Prod.snd hdmiWords (FpgaDrm.configIicHdmi queueMmio ⟨true, "bypass", 0x04000000⟩) ∧
      Delivers Prod.snd hdmiWords (configureHdmi queuePci context) := by
  have hok : ((do let context ← hwInitializeContext queuePci
                  configureHdmi queuePci context : Efi (RegisterFile × Queue Nat) Unit)
      (fun _ => 0, ⟨[], []⟩)).1.isOk = true := by
    decide +kernel
  rcases hrun : (do let context ← hwInitializeContext queuePci
                    configureHdmi queuePci context : Efi (RegisterFile × Queue Nat) Unit)
      (fun _ => 0, ⟨[], []⟩) with ⟨_ | ⟨⟨⟩⟩, t⟩
  · rw [hrun] at hok
    cases hok
  obtain ⟨context, start, hinit, hhdmi⟩ := Efi.bind_ok hrun
  obtain ⟨hlinux, hfirmware, -⟩ := hdmi_programmed queueMmio_iic ⟨true, "bypass", 0x04000000⟩
    queuePci_iic hinit
  exact ⟨context, start, hinit, by rw [hhdmi], hlinux, hfirmware⟩

end SimpleDisplay
