import SimpleDisplay.Drm.Registers
import SimpleDisplay.Lib.Wrap

/-!
# AXI addresses as offsets of the bypass BAR

`fpga_drm_axi_to_bar_offset` and its two callers in 64-bit arithmetic.  Every sum is formed
as the source forms it, and a run is flagged when one of its tests reads a value that
wrapped; `axiToBarOffset_eq` shows that none does, so the functions over `Nat` say what the
machine computes.
-/

namespace FpgaDrm

open Wrap Wrap.Word

/-- The fields of `struct fpga_drm_device` about the BAR, with their widths. -/
structure BypassBar where
  mmioBar : Bool
  mmioBarResourceLen : BitVec 64
  mmioBarMappedLen : BitVec 64
  mmioBarIdx : Int
  mmioBarName : String

def BypassBar.toMmioBar (fpga : BypassBar) : MmioBar where
  mmioBar := fpga.mmioBar
  mmioBarName := fpga.mmioBarName
  mmioBarMappedLen := fpga.mmioBarMappedLen.toNat

/-- The calls of `drm_err` in the two callers, with the values they print. -/
inductive DrmErr
  | rangeNotTranslated (axiAddr lastAddr : BitVec 64) (barIdx : Int) (resourceLen : BitVec 64)
  | rangeOutside (offset lastOffset : BitVec 64) (barIdx : Int) (resourceLen : BitVec 64)
  | rangeNotMapped (barIdx : Int) (offset lastOffset axiAddr lastAddr : BitVec 64)
  | liteNotTranslated (axiAddr size : BitVec 64) (barName : String) (barIdx : Int)
      (mappedLen : BitVec 64)
  | liteOutside (axiAddr offset : BitVec 64) (barName : String) (barIdx : Int)
      (mappedLen : BitVec 64)
  deriving DecidableEq

def DrmErr.format : DrmErr → String
  | .rangeNotTranslated .. => "bypass AXI range 0x%llx-0x%llx cannot translate into BAR%d " ++
    "resource=0x%llx (translation=0x%llx)\n"
  | .rangeOutside .. => "translated bypass range host+0x%llx-0x%llx outside BAR%d " ++
    "resource=0x%llx\n"
  | .rangeNotMapped .. => "failed to map bypass BAR%d host+0x%llx-0x%llx for AXI " ++
    "0x%llx-0x%llx\n"
  | .liteNotTranslated .. => "AXI-Lite address 0x%llx size=%zu cannot translate into %s BAR%d " ++
    "mapped=0x%llx (translation=0x%llx)\n"
  | .liteOutside .. => "AXI-Lite address 0x%llx translated to host+0x%llx outside %s BAR%d " ++
    "mapped=0x%llx\n"

/-- The message of a range check that a caller makes after the translation. -/
def DrmErr.IsRangeCheck : DrmErr → Prop
  | .rangeOutside .. => True
  | .liteOutside .. => True
  | _ => False

/-! ## The translation over `Nat` -/

/-- The base has its bits above every offset that the BAR can have. -/
theorem or_translation {offset : Nat} (h : offset < hwBypassHostUsableSize) :
    hwBypassAxiTranslation ||| offset = hwBypassAxiTranslation + offset := by
  rw [show hwBypassAxiTranslation = 15 <<< 26 from rfl, ← Nat.shiftLeft_add_eq_or_of_lt h]

theorem axiToBarOffset_ok_iff {fpga : MmioBar} {a s l offset : Nat} :
    axiToBarOffset fpga a s l = .ok offset ↔
      0 < s ∧ fpga.mmioBarName = "bypass" ∧ hwBypassAxiTranslation ≤ a ∧
        a - hwBypassAxiTranslation + s ≤ min l hwBypassHostUsableSize ∧
        offset = a - hwBypassAxiTranslation := by
  have hT : hwBypassAxiTranslation = 0x3C000000 := rfl
  have hU : hwBypassHostUsableSize = 0x04000000 := rfl
  have hM : maxU64 = 2 ^ 64 - 1 := rfl
  unfold axiToBarOffset
  constructor
  · intro h
    dsimp only at h
    split_ifs at h with hsize hname hlow hhigh hend halias
    have hoffset := Except.ok.inj h
    exact ⟨by omega, not_not.mp hname, by omega, by omega, hoffset.symm⟩
  · rintro ⟨hsize, hname, hlow, hfits, hoffset⟩
    have hfirst := or_translation
      (show a - hwBypassAxiTranslation < hwBypassHostUsableSize by omega)
    have hlast := or_translation
      (show a - hwBypassAxiTranslation + s - 1 < hwBypassHostUsableSize by omega)
    rw [if_neg (by omega), if_neg (not_not.mpr hname), if_neg (by omega), if_neg (by omega)]
    dsimp only
    rw [if_neg (by omega), hfirst, hlast, if_neg (by omega), hoffset]

theorem axiToBarOffset_lt {fpga : MmioBar} {a s l offset : Nat}
    (h : axiToBarOffset fpga a s l = .ok offset) : offset < 2 ^ 64 := by
  have hU : hwBypassHostUsableSize = 0x04000000 := rfl
  obtain ⟨-, -, -, hfits, hoffset⟩ := axiToBarOffset_ok_iff.mp h
  omega

theorem axiToBarOffset_error {fpga : MmioBar} {a s l : Nat} {ret : Int}
    (h : axiToBarOffset fpga a s l = .error ret) : ret ≠ 0 := by
  unfold axiToBarOffset at h
  dsimp only at h
  split_ifs at h <;> cases h <;> decide

namespace Machine

def lit (n : Nat) : Word 64 := Word.nat 64 n

/-- A pointer to a `u64`: `none` is `NULL`. -/
abbrev U64Ptr := Option (Word 64)

/-- `*p`, read only where `p` is not `NULL`. -/
def deref (p : U64Ptr) : Word 64 := p.getD (lit 0)

/-- The return value and what `bar_offset` points to afterwards. -/
def axiToBarOffset (fpga : BypassBar) (axiAddr size limit : Word 64) (barOffset : U64Ptr) :
    Flagged (Int × U64Ptr) := do
  if ← pure barOffset.isNone <||> size.eq (lit 0) then return (-EINVAL, barOffset)
  if fpga.mmioBarName ≠ "bypass" then return (-EOPNOTSUPP, barOffset)
  if ← axiAddr.lt (lit hwBypassAxiTranslation) then return (-ERANGE, barOffset)
  if ← axiAddr.gt (lit maxU64 - (size - lit 1)) then return (-ERANGE, barOffset)
  let offset := axiAddr - lit hwBypassAxiTranslation
  let endAddr := axiAddr + size - lit 1
  let endOffset := offset + size - lit 1
  if ← offset.gt (lit maxU64 - (size - lit 1)) <||> endOffset.ge limit <||>
      endOffset.ge (lit hwBypassHostUsableSize) then return (-ERANGE, barOffset)
  if ← (lit hwBypassAxiTranslation ||| offset).ne axiAddr <||>
      (lit hwBypassAxiTranslation ||| endOffset).ne endAddr then return (-ERANGE, barOffset)
  return (0, some offset)

/-- What a caller returns, leaves behind its pointers and prints. -/
structure Mapped (μ : Type) where
  ret : Int
  mapping : Option (Option μ)
  barOffset : U64Ptr
  errors : List DrmErr

structure Checked where
  ret : Int
  barOffset : U64Ptr
  errors : List DrmErr

def mapBypassAxiRange {μ : Type} (fpga : BypassBar)
    (pciIomapRange : Int → BitVec 64 → BitVec 64 → Option μ) (axiAddr size : Word 64)
    (mapping : Option (Option μ)) (barOffset : U64Ptr) : Flagged (Mapped μ) := do
  if ← pure mapping.isNone <||> size.eq (lit 0) then return ⟨-EINVAL, mapping, barOffset, []⟩
  -- the local `offset` is read only after the translation has set it
  let (ret, local_) ← axiToBarOffset fpga axiAddr size (ofBits fpga.mmioBarResourceLen)
    (some (lit 0))
  let offset := deref local_
  if ret ≠ 0 then
    return ⟨ret, mapping, barOffset, [.rangeNotTranslated axiAddr.val
      (axiAddr + size - lit 1).val fpga.mmioBarIdx fpga.mmioBarResourceLen]⟩
  if ← (offset + size).gt (ofBits fpga.mmioBarResourceLen) then
    return ⟨-ERANGE, mapping, barOffset, [.rangeOutside offset.val
      (offset + size - lit 1).val fpga.mmioBarIdx fpga.mmioBarResourceLen]⟩
  match pciIomapRange fpga.mmioBarIdx offset.val size.val with
  | none =>
    return ⟨-ENOMEM, some none, barOffset, [.rangeNotMapped fpga.mmioBarIdx offset.val
      (offset + size - lit 1).val axiAddr.val (axiAddr + size - lit 1).val]⟩
  | some m => return ⟨0, some (some m), barOffset.map fun _ => offset, []⟩

def mmioCheck (fpga : BypassBar) (axiAddr size : Word 64) (barOffset : U64Ptr) :
    Flagged Checked := do
  if !fpga.mmioBar then return ⟨-ENODEV, barOffset, []⟩
  if ← (axiAddr &&& lit 3).ne (lit 0) <||> size.ne (lit 4) then return ⟨-EINVAL, barOffset, []⟩
  let (ret, barOffset) ← axiToBarOffset fpga axiAddr size (ofBits fpga.mmioBarMappedLen) barOffset
  if ret ≠ 0 then
    return ⟨ret, barOffset, [.liteNotTranslated axiAddr.val size.val fpga.mmioBarName
      fpga.mmioBarIdx fpga.mmioBarMappedLen]⟩
  if ← (deref barOffset + size).gt (ofBits fpga.mmioBarMappedLen) then
    return ⟨-ERANGE, barOffset, [.liteOutside axiAddr.val (deref barOffset).val
      fpga.mmioBarName fpga.mmioBarIdx fpga.mmioBarMappedLen]⟩
  return ⟨0, barOffset, []⟩

/-! ## The machine computes what the functions over `Nat` say -/

/-- The result over `Nat` as the machine hands it out. -/
def handOut (out : Word 64) : Except Int Nat → Int × U64Ptr
  | .error ret => (ret, some out)
  | .ok offset => (0, some (lit offset))

theorem handOut_error (out : Word 64) (ret : Int) :
    handOut out (.error ret) = (ret, some out) := rfl

theorem handOut_ok (out : Word 64) (offset : Nat) :
    handOut out (.ok offset) = (0, some (lit offset)) := rfl

theorem handOut_ret_eq_zero {fpga : MmioBar} {a s l : Nat} (out : Word 64) :
    (handOut out (FpgaDrm.axiToBarOffset fpga a s l)).1 = 0 ↔
      ∃ offset, FpgaDrm.axiToBarOffset fpga a s l = .ok offset := by
  cases h : FpgaDrm.axiToBarOffset fpga a s l with
  | error ret => simp [handOut_error, axiToBarOffset_error h]
  | ok offset => simp [handOut_ok]

theorem axiToBarOffset_eq (fpga : BypassBar) {a s l : Nat} (ha : a < 2 ^ 64) (hs : s < 2 ^ 64)
    (hl : l < 2 ^ 64) (out : Word 64) :
    axiToBarOffset fpga (lit a) (lit s) (lit l) (some out) =
      pure (handOut out (FpgaDrm.axiToBarOffset fpga.toMmioBar a s l)) := by
  have hT : hwBypassAxiTranslation = 0x3C000000 := rfl
  have hU : hwBypassHostUsableSize = 0x04000000 := rfl
  have hM : maxU64 = 2 ^ 64 - 1 := rfl
  have hbar : fpga.toMmioBar.mmioBarName = fpga.mmioBarName := rfl
  unfold axiToBarOffset FpgaDrm.axiToBarOffset lit
  simp only [Option.isNone_some, pure_orM, Bool.false_eq_true, if_false]
  rw [eq_nat hs (by omega), pure_bind, hbar]
  by_cases hzero : s = 0
  · simp [hzero, handOut]
  rw [if_neg (by simpa using hzero), if_neg hzero]
  by_cases hname : fpga.mmioBarName = "bypass"
  swap
  · rw [if_pos hname, if_pos hname]
    rfl
  rw [if_neg (by simpa using hname), if_neg (by simpa using hname), lt_nat ha (by omega),
    pure_bind]
  by_cases hlow : a < hwBypassAxiTranslation
  · simp [hlow, handOut]
  rw [if_neg (by simpa using hlow), if_neg hlow, nat_sub hs (by omega),
    nat_sub (by omega) (by omega), gt_nat ha (by omega), pure_bind]
  by_cases hhigh : maxU64 - (s - 1) < a
  · simp [hhigh, handOut]
  rw [if_neg (by simpa using hhigh), if_neg hhigh, nat_sub ha (by omega)]
  rw [nat_add (a := a - hwBypassAxiTranslation) (by omega), nat_sub (by omega) (by omega),
    gt_nat (by omega) (by omega), ge_nat (by omega) hl, ge_nat (by omega) (by omega)]
  rw [pure_orM_pure, pure_orM_pure, pure_bind]
  by_cases hend : maxU64 - (s - 1) < a - hwBypassAxiTranslation ∨
      l ≤ a - hwBypassAxiTranslation + s - 1 ∨
      hwBypassHostUsableSize ≤ a - hwBypassAxiTranslation + s - 1
  · rw [if_pos (by simpa using hend), if_pos hend]
    rfl
  rw [if_neg (by simpa using hend), if_neg hend]
  -- only here the last address is used, and only here its sum is known not to wrap
  have hfirst : hwBypassAxiTranslation ||| (a - hwBypassAxiTranslation) < 2 ^ 64 :=
    Nat.or_lt_two_pow (by omega) (by omega)
  have hlast : hwBypassAxiTranslation ||| (a - hwBypassAxiTranslation + s - 1) < 2 ^ 64 :=
    Nat.or_lt_two_pow (by omega) (by omega)
  rw [nat_add (by omega), nat_sub (by omega) (by omega), nat_or, nat_or, ne_nat hfirst ha,
    ne_nat hlast (by omega), pure_orM_pure, pure_bind]
  by_cases halias : hwBypassAxiTranslation ||| (a - hwBypassAxiTranslation) ≠ a ∨
      hwBypassAxiTranslation ||| (a - hwBypassAxiTranslation + s - 1) ≠ a + s - 1
  · rw [if_pos (by simpa using halias), if_pos halias]
    rfl
  · rw [if_neg (by simpa using halias), if_neg halias]
    rfl

theorem axiToBarOffset_bits (fpga : BypassBar) {a s : Nat} (ha : a < 2 ^ 64) (hs : s < 2 ^ 64)
    (limit : BitVec 64) (out : Word 64) :
    axiToBarOffset fpga (lit a) (lit s) (ofBits limit) (some out) =
      pure (handOut out (FpgaDrm.axiToBarOffset fpga.toMmioBar a s limit.toNat)) := by
  rw [ofBits_eq_nat]
  exact axiToBarOffset_eq fpga ha hs limit.isLt out

theorem axiToBarOffset_null (fpga : BypassBar) (axiAddr size limit : Word 64) :
    axiToBarOffset fpga axiAddr size limit none = pure (-EINVAL, none) := by
  unfold axiToBarOffset
  rw [Option.isNone_none, pure_orM, if_pos rfl, pure_bind]
  rfl

/-- The sum that a caller forms after the translation is within the BAR. -/
theorem gt_of_ok {fpga : MmioBar} {a s offset : Nat} {len : BitVec 64} (hs : s < 2 ^ 64)
    (h : FpgaDrm.axiToBarOffset fpga a s len.toNat = .ok offset) :
    (lit offset + lit s).gt (ofBits len) = pure false := by
  have hU : hwBypassHostUsableSize = 0x04000000 := rfl
  have hlen := len.isLt
  obtain ⟨-, -, -, hfits, hoffset⟩ := axiToBarOffset_ok_iff.mp h
  unfold lit
  rw [ofBits_eq_nat, nat_add (by omega), gt_nat (by omega) hlen,
    decide_eq_false (by omega)]

/-- What the mapping of a translated range leaves. -/
def mapTranslated {μ : Type} (fpga : BypassBar)
    (pciIomapRange : Int → BitVec 64 → BitVec 64 → Option μ) (a s offset : Nat)
    (barOffset : U64Ptr) : Mapped μ :=
  match pciIomapRange fpga.mmioBarIdx (lit offset).val (lit s).val with
  | none => ⟨-ENOMEM, some none, barOffset, [.rangeNotMapped fpga.mmioBarIdx (lit offset).val
      (lit offset + lit s - lit 1).val (lit a).val (lit a + lit s - lit 1).val]⟩
  | some m => ⟨0, some (some m), barOffset.map fun _ => lit offset, []⟩

section

variable (fpga : BypassBar) {a s : Nat} (ha : a < 2 ^ 64) (hs : s < 2 ^ 64) (barOffset : U64Ptr)

section

variable {μ : Type} (pciIomapRange : Int → BitVec 64 → BitVec 64 → Option μ) (cell : Option μ)
include ha hs

theorem mapBypassAxiRange_of_size (hsize : s ≠ 0) :
    mapBypassAxiRange fpga pciIomapRange (lit a) (lit s) (some cell) barOffset =
      pure (match FpgaDrm.axiToBarOffset fpga.toMmioBar a s fpga.mmioBarResourceLen.toNat with
        | .error ret => ⟨ret, some cell, barOffset, [.rangeNotTranslated (lit a).val
            (lit a + lit s - lit 1).val fpga.mmioBarIdx fpga.mmioBarResourceLen]⟩
        | .ok offset => mapTranslated fpga pciIomapRange a s offset barOffset) := by
  have hzero : (lit s).eq (lit 0) = pure false := by
    unfold lit
    rw [eq_nat hs (by omega), decide_eq_false hsize]
  unfold mapBypassAxiRange
  rw [Option.isNone_some, pure_orM, if_neg (by decide), hzero, pure_bind, if_neg (by decide),
    axiToBarOffset_bits fpga ha hs, pure_bind]
  cases h : FpgaDrm.axiToBarOffset fpga.toMmioBar a s fpga.mmioBarResourceLen.toNat with
  | error ret =>
    rw [handOut_error]
    exact if_pos (axiToBarOffset_error h)
  | ok offset =>
    rw [handOut_ok]
    dsimp only [deref, Option.getD_some]
    rw [if_neg (by decide), gt_of_ok hs h, pure_bind, if_neg (by decide)]
    unfold mapTranslated
    cases pciIomapRange fpga.mmioBarIdx (lit offset).val (lit s).val with
    | none => rfl
    | some m => rfl

/-- A call ends with the flag as it was, and no range check of its own has failed. -/
theorem mapBypassAxiRange_quiet (mapping : Option (Option μ)) :
    ∃ r, mapBypassAxiRange fpga pciIomapRange (lit a) (lit s) mapping barOffset = pure r ∧
      ∀ e ∈ r.errors, ¬ e.IsRangeCheck := by
  cases mapping with
  | none =>
    refine ⟨⟨-EINVAL, none, barOffset, []⟩, ?_, by simp⟩
    unfold mapBypassAxiRange
    rw [Option.isNone_none, pure_orM, if_pos rfl, pure_bind, if_pos rfl]
  | some cell =>
    by_cases hsize : s = 0
    · refine ⟨⟨-EINVAL, some cell, barOffset, []⟩, ?_, by simp⟩
      have hzero : (lit s).eq (lit 0) = pure true := by
        unfold lit
        rw [eq_nat hs (by omega), decide_eq_true hsize]
      unfold mapBypassAxiRange
      rw [Option.isNone_some, pure_orM, if_neg (by decide), hzero, pure_bind, if_pos rfl]
    · refine ⟨_, mapBypassAxiRange_of_size fpga ha hs barOffset pciIomapRange cell hsize, ?_⟩
      unfold mapTranslated
      split
      · simp [DrmErr.IsRangeCheck]
      · split <;> simp [DrmErr.IsRangeCheck]

end

include ha hs

theorem mmioCheck_args :
    ((lit a &&& lit 3).ne (lit 0) <||> (lit s).ne (lit 4)) =
      (pure (decide (a &&& 3 ≠ 0 ∨ s ≠ 4)) : Flagged Bool) := by
  unfold lit
  rw [nat_and, ne_nat (lt_of_le_of_lt Nat.and_le_left ha) (by omega), ne_nat hs (by omega),
    pure_orM_pure, Bool.decide_or]

/-- `mmioCheck` over `Nat` is what the machine computes; its own range check never fails. -/
theorem mmioCheck_eq (out : Word 64) :
    ∃ errors, mmioCheck fpga (lit a) (lit s) (some out) =
        pure ⟨(handOut out (FpgaDrm.mmioCheck fpga.toMmioBar a s)).1,
          (handOut out (FpgaDrm.mmioCheck fpga.toMmioBar a s)).2, errors⟩ ∧
      ∀ e ∈ errors, ¬ e.IsRangeCheck := by
  have hmapped : fpga.toMmioBar.mmioBarMappedLen = fpga.mmioBarMappedLen.toNat := rfl
  have hbar : fpga.toMmioBar.mmioBar = fpga.mmioBar := rfl
  unfold mmioCheck FpgaDrm.mmioCheck
  rw [hbar, hmapped, mmioCheck_args ha hs, pure_bind]
  by_cases hmmio : fpga.mmioBar = true
  swap
  · refine ⟨[], ?_, by simp⟩
    simp [hmmio, handOut]
  rw [hmmio, Bool.not_true, if_neg Bool.false_ne_true, if_neg Bool.false_ne_true]
  by_cases hargs : a &&& 3 ≠ 0 ∨ s ≠ 4
  · refine ⟨[], ?_, by simp⟩
    rw [if_pos (by simpa using hargs), if_pos hargs]
    rfl
  rw [if_neg (by simpa using hargs), if_neg hargs, axiToBarOffset_bits fpga ha hs, pure_bind]
  cases h : FpgaDrm.axiToBarOffset fpga.toMmioBar a s fpga.mmioBarMappedLen.toNat with
  | error ret =>
    refine ⟨[.liteNotTranslated (lit a).val (lit s).val fpga.mmioBarName fpga.mmioBarIdx
      fpga.mmioBarMappedLen], ?_, by simp [DrmErr.IsRangeCheck]⟩
    rw [handOut_error]
    exact if_pos (axiToBarOffset_error h)
  | ok offset =>
    refine ⟨[], ?_, by simp⟩
    obtain ⟨-, -, -, hfits, hoffset⟩ := axiToBarOffset_ok_iff.mp h
    rw [handOut_ok]
    dsimp only [deref, Option.getD_some]
    rw [if_neg (by decide), gt_of_ok hs h, pure_bind, if_neg (by decide), if_neg (by omega),
      handOut_ok]

theorem mmioCheck_quiet :
    ∃ r, mmioCheck fpga (lit a) (lit s) barOffset = pure r ∧ ∀ e ∈ r.errors, ¬ e.IsRangeCheck := by
  cases barOffset with
  | some out =>
    obtain ⟨errors, heq, hquiet⟩ := mmioCheck_eq fpga ha hs out
    exact ⟨_, heq, hquiet⟩
  | none =>
    unfold mmioCheck
    rw [mmioCheck_args ha hs, pure_bind, axiToBarOffset_null, pure_bind]
    dsimp only
    rw [if_pos (show -EINVAL ≠ 0 by decide)]
    split_ifs with hmmio hargs
    · exact ⟨_, rfl, by simp⟩
    · exact ⟨_, rfl, by simp⟩
    · exact ⟨_, rfl, by simp [DrmErr.IsRangeCheck]⟩

end

/-- The callers' runs on words of any value. -/
theorem mmioCheck_unflagged (fpga : BypassBar) (axiAddr size : BitVec 64) (barOffset : U64Ptr) :
    let check := mmioCheck fpga (ofBits axiAddr) (ofBits size) barOffset false
    check.2 = false ∧ ∀ e ∈ check.1.errors, ¬ e.IsRangeCheck := by
  obtain ⟨r, hr, hquiet⟩ := mmioCheck_quiet fpga axiAddr.isLt size.isLt barOffset
  rw [ofBits_eq_nat axiAddr, ofBits_eq_nat size]
  unfold lit at hr
  rw [hr]
  exact ⟨rfl, hquiet⟩

theorem mapBypassAxiRange_unflagged (fpga : BypassBar) (axiAddr size : BitVec 64) (μ : Type)
    (pciIomapRange : Int → BitVec 64 → BitVec 64 → Option μ) (mapping : Option (Option μ))
    (barOffset : U64Ptr) :
    let map := mapBypassAxiRange fpga pciIomapRange (ofBits axiAddr) (ofBits size) mapping
      barOffset false
    map.2 = false ∧ ∀ e ∈ map.1.errors, ¬ e.IsRangeCheck := by
  obtain ⟨r, hr, hquiet⟩ := mapBypassAxiRange_quiet fpga axiAddr.isLt size.isLt barOffset
    pciIomapRange mapping
  rw [ofBits_eq_nat axiAddr, ofBits_eq_nat size]
  unfold lit at hr
  rw [hr]
  exact ⟨rfl, hquiet⟩

end Machine

/-! ## The translation as a whole -/

open Machine

/-- The translation accepts exactly the ranges that the bridge reaches without an alias. -/
theorem translation_exact (fpga : BypassBar) (axiAddr size limit out : BitVec 64)
    (hbypass : fpga.mmioBarName = "bypass") (hsize : 1 ≤ size.toNat) :
    let base := hwBypassAxiTranslation
    let run := Machine.axiToBarOffset fpga (ofBits axiAddr) (ofBits size) (ofBits limit)
      (some (ofBits out)) false
    (run.1.1 = 0 ↔ base ≤ axiAddr.toNat ∧
      axiAddr.toNat - base + size.toNat ≤ min limit.toNat hwBypassHostUsableSize) ∧
    (run.1.1 = 0 → ∃ offset, run.1.2 = some (ofBits offset) ∧
      offset.toNat = axiAddr.toNat - base ∧
      ∀ i < size.toNat, base ||| (offset.toNat + i) = axiAddr.toNat + i) ∧
    (run.1.1 ≠ 0 → run.1.2 = some (ofBits out)) ∧
    run.2 = false ∧
    (∀ barOffset, let check := Machine.mmioCheck fpga (ofBits axiAddr) (ofBits size) barOffset false
      check.2 = false ∧ ∀ e ∈ check.1.errors, ¬ e.IsRangeCheck) ∧
    ∀ (μ : Type) (pciIomapRange : Int → BitVec 64 → BitVec 64 → Option μ) mapping barOffset,
      let map := mapBypassAxiRange fpga pciIomapRange (ofBits axiAddr) (ofBits size) mapping
        barOffset false
      map.2 = false ∧ ∀ e ∈ map.1.errors, ¬ e.IsRangeCheck := by
  intro base run
  have hrun : run = (handOut (ofBits out)
      (axiToBarOffset fpga.toMmioBar axiAddr.toNat size.toNat limit.toNat), false) := by
    show Machine.axiToBarOffset _ _ _ _ _ _ = _
    rw [ofBits_eq_nat axiAddr, ofBits_eq_nat size]
    exact congrFun (axiToBarOffset_bits fpga axiAddr.isLt size.isLt limit (ofBits out)) false
  have hname : fpga.toMmioBar.mmioBarName = "bypass" := hbypass
  refine ⟨?_, ?_, ?_, by rw [hrun], ?_, ?_⟩
  · rw [hrun, handOut_ret_eq_zero]
    constructor
    · rintro ⟨offset, h⟩
      obtain ⟨-, -, hlow, hfits, -⟩ := axiToBarOffset_ok_iff.mp h
      exact ⟨hlow, hfits⟩
    · rintro ⟨hlow, hfits⟩
      exact ⟨_, axiToBarOffset_ok_iff.mpr ⟨hsize, hname, hlow, hfits, rfl⟩⟩
  · intro hret
    rw [hrun, handOut_ret_eq_zero] at hret
    obtain ⟨offset, h⟩ := hret
    have hbits : (BitVec.ofNat 64 offset).toNat = offset := by
      rw [BitVec.toNat_ofNat, Nat.mod_eq_of_lt (axiToBarOffset_lt h)]
    obtain ⟨-, -, hlow, hfits, hoffset⟩ := axiToBarOffset_ok_iff.mp h
    refine ⟨BitVec.ofNat 64 offset, ?_, by rw [hbits, hoffset], ?_⟩
    · rw [hrun, h]
      rfl
    · intro i hi
      rw [hbits, or_translation (by omega)]
      omega
  · intro hret
    rw [hrun] at hret ⊢
    cases h : axiToBarOffset fpga.toMmioBar axiAddr.toNat size.toNat limit.toNat with
    | error ret => rfl
    | ok offset =>
      rw [h] at hret
      exact absurd rfl hret
  · exact mmioCheck_unflagged fpga axiAddr size
  · exact mapBypassAxiRange_unflagged fpga axiAddr size

/-- The last page of the BAR. -/
theorem translation_exact_last_page :
    ∃ fpga : BypassBar, fpga.mmioBarName = "bypass" ∧
      (Machine.axiToBarOffset fpga (ofBits 0x3FFFF000) (ofBits 0x1000) (ofBits 0x04000000)
        (some (ofBits 0)) false).1.1 = 0 :=
  ⟨⟨true, 0x04000000, 0x04000000, 2, "bypass"⟩, rfl,
    (translation_exact ⟨true, 0x04000000, 0x04000000, 2, "bypass"⟩ 0x3FFFF000 0x1000 0x04000000 0
      rfl (by decide)).1.mpr (by decide)⟩

end FpgaDrm
