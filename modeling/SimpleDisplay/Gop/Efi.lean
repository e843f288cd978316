import Mathlib.Tactic.Common
import SimpleDisplay.Lib.Word

/-!
# The firmware environment

EFI status codes, `UINTN`, and `EFI_PCI_IO_PROTOCOL` as the driver uses it: `PciIo σ` is
any implementation over any device state `σ`, which may fail each call as it likes.
`Efi σ` is the type of a function that goes on until a call fails.
-/

namespace SimpleDisplay

open Word

inductive Status
  | success
  | invalidParameter
  | unsupported
  | badBufferSize
  | notReady
  | notFound
  | deviceError
  | outOfResources
  | alreadyStarted
  | timeout
  | compromisedData
  /-- any other error -/
  | other (code : Nat)
deriving DecidableEq, Inhabited

/-- `EFI_ERROR`. -/
def Status.isError : Status → Bool
  | .success => false
  | _ => true

/-- A 64-bit argument. -/
abbrev Uintn := Fin (2 ^ 64)

def maxUintn : Nat := 2 ^ 64 - 1
def maxUint32 : Nat := 2 ^ 32 - 1

/-- `EFI_ACPI_ADDRESS_SPACE_DESCRIPTOR`. -/
structure BarResource where
  desc : Nat
  resType : Nat
  addrRangeMin : Nat
  addrLen : Nat
  addrLen_lt : addrLen < 2 ^ 64

/-- `EFI_PCI_IO_PROTOCOL_ATTRIBUTE_OPERATION`. -/
inductive AttributeOperation
  | get
  | set
  | enable
deriving DecidableEq

/-- `Pci.Read` and `Pci.Write` reach the configuration space, by bytes or by one word of 16
bits.  `Mem.Read` and `Mem.Write` move `count` words of 32 bits between BAR `barIndex` at
`offset` and a buffer, here its bytes; a call that fails may have moved some. -/
structure PciIo (σ : Type) where
  attributes : AttributeOperation → BitVec 64 → σ → (Status × BitVec 64) × σ
  pciRead8 : (offset count : Nat) → σ → (Status × List UInt8) × σ
  pciRead16 : (offset : Nat) → σ → (Status × BitVec 16) × σ
  pciWrite16 : (offset : Nat) → BitVec 16 → σ → Status × σ
  getBarAttributes : (barIndex : Nat) → σ → (Status × Option BarResource) × σ
  memRead : (barIndex offset count : Nat) → σ → (Status × List UInt8) × σ
  memWrite : (barIndex offset count : Nat) → List UInt8 → σ → Status × σ

/-- The 32-bit word in a buffer. -/
def leWord (bytes : List UInt8) : Nat := (bytes.take 4).foldr (fun b n => b.toNat + 256 * n) 0

abbrev Efi (σ : Type) := ExceptT Status (StateM σ)

/-- The result of a call with this status. -/
def Status.andReturn {α : Type} (status : Status) (a : α) : Except Status α :=
  if status.isError then .error status else .ok a

/-- A call that returns a value, and one that does not. -/
def Efi.get {σ α : Type} (call : σ → (Status × α) × σ) : Efi σ α := fun s =>
  ((call s).1.1.andReturn (call s).1.2, (call s).2)

def Efi.call {σ : Type} (call : σ → Status × σ) : Efi σ Unit := fun s =>
  ((call s).1.andReturn (), (call s).2)

def Efi.update {σ : Type} (f : σ → σ) : Efi σ Unit := fun s => (.ok (), f s)

theorem andReturn_ok {α : Type} {status : Status} {a b : α} (h : status.andReturn a = .ok b) :
    status.isError = false ∧ a = b := by
  unfold Status.andReturn at h
  split at h
  · cases h
  next herr => exact ⟨by simpa using herr, Except.ok.inj h⟩

theorem andReturn_error {α : Type} {status e : Status} {a : α}
    (h : status.andReturn a = .error e) : e.isError = true := by
  unfold Status.andReturn at h
  split at h
  next herr =>
    rw [← Except.error.inj h]
    exact herr
  · cases h

/-- What a call that returned had given. -/
theorem Efi.get_ok {σ α : Type} {call : σ → (Status × α) × σ} {s t : σ} {a : α}
    (h : Efi.get call s = (.ok a, t)) :
    (call s).1.1.isError = false ∧ a = (call s).1.2 ∧ t = (call s).2 := by
  unfold Efi.get at h
  rw [Prod.mk.injEq] at h
  obtain ⟨hvalue, hstate⟩ := h
  obtain ⟨herr, hvalue⟩ := andReturn_ok hvalue
  exact ⟨herr, hvalue.symm, hstate.symm⟩

/-- A check that lets through. -/
theorem check_ok {α : Type} {c : Prop} [Decidable c] {e : Status} {x : Except Status α} {a : α}
    (h : (if c then .error e else x) = .ok a) : ¬ c ∧ x = .ok a := by
  by_cases hc : c
  · rw [if_pos hc] at h
    cases h
  · rw [if_neg hc] at h
    exact ⟨hc, h⟩

theorem bind_ok {ε α β : Type} {x : Except ε α} {f : α → Except ε β} {b : β}
    (h : (x >>= f) = .ok b) : ∃ a, x = .ok a ∧ f a = .ok b := by
  cases x with
  | error e => cases h
  | ok a => exact ⟨a, rfl, h⟩

theorem bind_error {ε α β : Type} {x : Except ε α} {f : α → Except ε β} {e : ε}
    (h : (x >>= f) = .error e) : x = .error e ∨ ∃ a, x = .ok a ∧ f a = .error e := by
  cases x with
  | error e => cases h; exact .inl rfl
  | ok a => exact .inr ⟨a, rfl, h⟩

/-- A function that returns has had every call return. -/
theorem Efi.bind_ok {σ α β : Type} {x : Efi σ α} {f : α → Efi σ β} {s t : σ} {b : β}
    (h : (x >>= f) s = (.ok b, t)) : ∃ a u, x s = (.ok a, u) ∧ f a u = (.ok b, t) := by
  cases hx : x s with
  | mk r u =>
    have h : ExceptT.bindCont f r u = (.ok b, t) := by
      have heq : (x >>= f) s = ExceptT.bindCont f (x s).1 (x s).2 := rfl
      rw [heq, hx] at h
      exact h
    cases r with
    | error e => cases h
    | ok a => exact ⟨a, u, rfl, h⟩

theorem Efi.bind_of_ok {σ α β : Type} {x : Efi σ α} {f : α → Efi σ β} {s t : σ} {a : α}
    (h : x s = (.ok a, t)) : (x >>= f) s = f a t := by
  show ExceptT.bindCont f (x s).1 (x s).2 = _
  rw [h]
  rfl

theorem Efi.bind_of_error {σ α β : Type} {x : Efi σ α} {f : α → Efi σ β} {s t : σ} {e : Status}
    (h : x s = (.error e, t)) : (x >>= f) s = (.error e, t) := by
  show ExceptT.bindCont f (x s).1 (x s).2 = _
  rw [h]
  rfl

end SimpleDisplay
