import Mathlib.Data.Nat.Bitwise
import SimpleDisplay.Lib.Slots
import SimpleDisplay.Lib.Word
import SimpleDisplay.Drm.Mode

/-!
# XDMA descriptors

`struct xdma_desc` and what `libxdma.c` writes into one.  Bits of the control word:

    31       16 15   14 13          8 7           0
     0xAD4B      kept    next_adjacent  EOP … COMPLETED STOPPED

The descriptors of an engine are slots of a ring, numbered from `engine->desc`.
-/

namespace FpgaDrm.Xdma

open Word Slots

def descStopped : Nat := 1 <<< 0
def descCompleted : Nat := 1 <<< 1
def descEop : Nat := 1 <<< 4
def descMagic : Nat := 0xAD4B0000
def pageSize : Nat := 0x1000
def maxAdjBlockSize : Nat := 0x40
def descSize : Nat := 32

structure Desc where
  control : Nat
  bytes : Nat
  srcAddrLo : Nat
  srcAddrHi : Nat
  dstAddrLo : Nat
  dstAddrHi : Nat
  nextLo : Nat
  nextHi : Nat
deriving DecidableEq, Inhabited

/-- `PCI_DMA_L` and `PCI_DMA_H`, stored into a 32-bit field. -/
def pciDmaL (addr : Nat) : Nat := u32 (addr &&& 0xffffffff : Nat)
def pciDmaH (addr : Nat) : Nat := u32 ((addr >>> 16) >>> 16 : Nat)

/-- `xdma_desc_set` for `DMA_TO_DEVICE`. -/
def descSet (desc : Desc) (rcBusAddr epAddr len : Nat) : Desc :=
  { desc with
    bytes := len
    srcAddrLo := pciDmaL rcBusAddr
    srcAddrHi := pciDmaH rcBusAddr
    dstAddrLo := pciDmaL epAddr
    dstAddrHi := pciDmaH epAddr }

/-- `xdma_desc_control_set`; `~LS_BYTE_MASK` is 64 bits wide. -/
def descControlSet (first : Desc) (controlField : Nat) : Except Int Desc :=
  let control := first.control &&& 0xffffffffffffff00
  if controlField &&& 0xffffffffffffff00 ≠ 0 then .error (-EINVAL)
  else .ok { first with control := control ||| controlField }

/-- `xdma_desc_adjacent`. -/
def descAdjacent (desc : Desc) (nextAdjacent : Nat) : Desc :=
  { desc with
    control := (desc.control &&& 0x0000f0ff) ||| (0xAD4B0000 ||| u32 (nextAdjacent <<< 8 : Nat)) }

/-- `xdma_get_next_adj`. -/
def getNextAdj (remaining nextLo : Nat) : Nat :=
  if remaining ≤ 1 then 0
  else
    let nextIndex := ((nextLo &&& (pageSize - 1)) >>> 5) % maxAdjBlockSize
    min (maxAdjBlockSize - nextIndex - 1) (remaining - 1)

/-- `transfer_desc_init`: the slots from `base` on link to each other on the bus. -/
def transferDescInit (descBus base count : Nat) (desc : Nat → Desc) : Nat → Desc :=
  let linked := forSlots base (count - 1)
    (fun i d =>
      { d with
        nextLo := pciDmaL (u64 (descBus + descSize * (i + 1)))
        nextHi := pciDmaH (u64 (descBus + descSize * (i + 1)))
        bytes := 0
        control := descMagic }) desc
  set linked (base + (count - 1))
    { linked (base + (count - 1)) with nextLo := 0, nextHi := 0, bytes := 0, control := descMagic }

/-! ## Reading a descriptor -/

namespace Desc

def src (d : Desc) : Nat := d.srcAddrLo + 4294967296 * d.srcAddrHi

def dst (d : Desc) : Nat := d.dstAddrLo + 4294967296 * d.dstAddrHi

/-- A flag of one bit is set. -/
def flag (d : Desc) (mask : Nat) : Bool := d.control &&& mask ≠ 0

/-- The bus addresses of the bytes it reads. -/
def hostBytes (d : Desc) : List Nat := (List.range d.bytes).map fun i => u64 (d.src + i)

end Desc

/-! ## Lemmas -/

theorem pciDmaL_eq (addr : Nat) : pciDmaL addr = addr % 4294967296 := by
  unfold pciDmaL
  rw [u32_natCast, show (0xffffffff : Nat) = 2 ^ 32 - 1 from rfl, Nat.and_two_pow_sub_one_eq_mod]
  omega

theorem pciDmaH_eq (addr : Nat) : pciDmaH addr = addr / 4294967296 % 4294967296 := by
  unfold pciDmaH
  rw [u32_natCast, Nat.shiftRight_eq_div_pow, Nat.shiftRight_eq_div_pow, Nat.div_div_eq_div_mul]

theorem pciDma_eq (addr : Nat) : pciDmaL addr + 4294967296 * pciDmaH addr = u64 addr := by
  rw [pciDmaL_eq, pciDmaH_eq]
  unfold u64
  omega

@[simp] theorem descSet_bytes (d : Desc) (rc ep len : Nat) : (descSet d rc ep len).bytes = len := rfl

@[simp] theorem descSet_control (d : Desc) (rc ep len : Nat) :
    (descSet d rc ep len).control = d.control := rfl

theorem descSet_src (d : Desc) (rc ep len : Nat) : (descSet d rc ep len).src = u64 rc :=
  pciDma_eq rc

theorem descSet_dst (d : Desc) (rc ep len : Nat) : (descSet d rc ep len).dst = u64 ep :=
  pciDma_eq ep

theorem flag_two_pow (d : Desc) (i : Nat) : d.flag (2 ^ i) = d.control.testBit i := by
  unfold Desc.flag
  rw [Nat.and_two_pow]
  cases d.control.testBit i <;> simp

/-- The adjacency count leaves the flags alone. -/
theorem testBit_descAdjacent (d : Desc) (adj : Nat) {i : Nat} (h : i < 8) :
    (descAdjacent d adj).control.testBit i = d.control.testBit i := by
  show ((d.control &&& 0x0000f0ff) ||| (0xAD4B0000 ||| u32 (adj <<< 8 : Nat))).testBit i = _
  have hmask : ∀ i < 8, (0xf0ff : Nat).testBit i = true := by decide
  have hmagic : ∀ i < 8, (0xAD4B0000 : Nat).testBit i = false := by decide
  have hadj : (u32 (adj <<< 8 : Nat)).testBit i = false := by
    rw [u32_natCast, show (4294967296 : Nat) = 2 ^ 32 from rfl, Nat.testBit_mod_two_pow,
      Nat.testBit_shiftLeft]
    have hlt : ¬ 8 ≤ i := by omega
    simp [hlt]
  rw [Nat.testBit_or, Nat.testBit_or, Nat.testBit_and, hmask i h, hmagic i h, hadj]
  simp

end FpgaDrm.Xdma
