import SimpleDisplay.Lib.Hex
import SimpleDisplay.Lib.Slice

/-!
# The option ROM scripts

`finalize` is `finalize_efi_option_rom.py` and `check` is `check_efi_option_rom.py`, from
the bytes they read to the files they write or the failure they stop with.  `memBytes`
reads the memory file as `check_expansion_rom_contract.py` does.
-/

namespace OptionRom

open Slice HexText

def romSize : Nat := 32 * 1024
def romBlocks : Nat := romSize / 512

/-- What ends a script early. -/
inductive Failure
  | systemExit (message : String)
  | indexError
deriving DecidableEq

/-- `int.from_bytes(bytes, "little")`. -/
def fromBytes (bytes : List UInt8) : Nat := bytes.foldr (fun b n => b.toNat + 256 * n) 0

/-- `value.to_bytes(2, "little")`. -/
def toBytes (value : Nat) : List UInt8 := [UInt8.ofNat value, UInt8.ofNat (value / 256)]

/-- `sum(image)`. -/
def byteSum (image : List UInt8) : Nat := (image.map UInt8.toNat).sum

def efiImage (raw : List UInt8) : Nat := fromBytes (slice raw 0x16 0x18)
def pcirOffset (raw : List UInt8) : Nat := fromBytes (slice raw 0x18 0x1A)

/-- `b"PCIR"`, `b"MZ"` and `b"PE\0\0"`. -/
def pcirSignature : List UInt8 := [0x50, 0x43, 0x49, 0x52]
def dosSignature : List UInt8 := [0x4D, 0x5A]
def peSignature : List UInt8 := [0x50, 0x45, 0, 0]

/-! ## `finalize_efi_option_rom.py` -/

def putU16 (image : List UInt8) (offset value : Nat) : List UInt8 :=
  splice image offset (toBytes value)

/-- `image[-1] = value`. -/
def setLast (image : List UInt8) (value : UInt8) : List UInt8 := image.set (image.length - 1) value

/-- The image with its padding and both length fields. -/
def withLengths (raw : List UInt8) : List UInt8 :=
  putU16 (putU16 (raw ++ List.replicate (romSize - raw.length) 0xFF) 0x02 romBlocks)
    (pcirOffset raw + 0x10) romBlocks

/-- `(-sum(image)) & 0xFF`. -/
def checksum (image : List UInt8) : UInt8 := UInt8.ofNat ((-(byteSum image : Int)) % 256).toNat

def finalImage (raw : List UInt8) : List UInt8 :=
  let image := setLast (withLengths raw) 0
  setLast image (checksum image)

def memText (image : List UInt8) : List Char :=
  joinLines ((List.range' 0 ((image.length + 3) / 4) 4).map fun offset =>
    hex (slice image offset (offset + 4)).reverse)

/-- The `.bin` and the `.mem` file. -/
structure Artifacts where
  bin : List UInt8
  mem : List Char

def finalize (raw driver : List UInt8) : Except Failure Artifacts :=
  if raw.length > romSize then
    .error (.systemExit ("EfiRom output is " ++ toString raw.length ++ " bytes, exceeds 32 KiB"))
  else if slice raw 0 2 ≠ [0x55, 0xAA] then
    .error (.systemExit "EfiRom output lacks the 55aa signature")
  else if slice raw (pcirOffset raw) (pcirOffset raw + 4) ≠ pcirSignature then
    .error (.systemExit "EfiRom output lacks a valid PCIR structure")
  else if slice raw (efiImage raw) (efiImage raw + driver.length) ≠ driver then
    .error (.systemExit "uncompressed driver is not byte-exact in EfiRom output")
  else .ok ⟨finalImage raw, memText (finalImage raw)⟩

/-! ## `check_efi_option_rom.py` -/

def require (condition : Prop) [Decidable condition] (message : String) : Except Failure Unit :=
  if condition then .ok () else .error (.systemExit ("FAIL: " ++ message))

/-- `image[i]`. -/
def byteAt (image : List UInt8) (i : Nat) : Except Failure UInt8 :=
  match image[i]? with
  | some b => .ok b
  | none => .error .indexError

def check (image driver : List UInt8) : Except Failure Unit := do
  require (image.length = 32768) "image fills the 32 KiB aperture"
  require (slice image 0 2 = [0x55, 0xAA]) "PCI ROM signature is 55aa"
  require (fromBytes (slice image 2 4) = 64) "EFI header image length"
  require (fromBytes (slice image 4 8) = 0x0EF1) "EFI ROM signature"
  require (fromBytes (slice image 8 10) = 0x000B) "boot-service-driver subsystem"
  require (fromBytes (slice image 10 12) = 0x8664) "X64 machine type"
  require (fromBytes (slice image 12 14) = 0) "image is uncompressed"
  let efiOffset := efiImage image
  let pcir := pcirOffset image
  require (slice image pcir (pcir + 4) = pcirSignature) "PCIR signature"
  require (fromBytes (slice image (pcir + 4) (pcir + 6)) = 0x10EE ∧
    fromBytes (slice image (pcir + 6) (pcir + 8)) = 0x7024) "PCIR identity is 10ee:7024"
  require (fromBytes (slice image (pcir + 0x0D) (pcir + 0x10)) = 0x038000)
    "PCIR class code is 0x038000"
  require (fromBytes (slice image (pcir + 0x10) (pcir + 0x12)) = 64)
    "PCIR image length fills 32 KiB"
  let codeType ← byteAt image (pcir + 0x14)
  require (codeType = 0x03) "PCIR code type is EFI"
  let indicator ← byteAt image (pcir + 0x15)
  require (indicator &&& 0x80 ≠ 0) "last-image flag is set"
  require (byteSum image % 256 = 0) "whole-image checksum is zero"
  require (slice image efiOffset (efiOffset + driver.length) = driver)
    "embedded driver is byte-exact and uncompressed"
  require (slice image efiOffset (efiOffset + 2) = dosSignature) "embedded PE DOS signature"
  let peOffset := fromBytes (slice image (efiOffset + 0x3C) (efiOffset + 0x40))
  let pe := efiOffset + peOffset
  require (slice image pe (pe + 4) = peSignature) "embedded PE signature"
  require (fromBytes (slice image (pe + 4) (pe + 6)) = 0x8664) "embedded PE is X64"
  let optional := pe + 24
  require (fromBytes (slice image optional (optional + 2)) = 0x20B) "embedded PE32+"
  require (fromBytes (slice image (optional + 0x44) (optional + 0x46)) = 0x000B)
    "embedded PE subsystem is EFI boot-service driver"

/-- The bytes in a memory file. -/
def memBytes (mem : List Char) : Option (List UInt8) :=
  (splitLines mem).foldr
    (fun line bytes => (fromHex line).bind fun word => bytes.map (word.reverse ++ ·)) (some [])

/-! ## What the checker asks for -/

/-- The fixed fields of the ROM header. -/
structure Header (image : List UInt8) : Prop where
  signature : slice image 0 2 = [0x55, 0xAA]
  efiSignature : fromBytes (slice image 4 8) = 0x0EF1
  subsystem : fromBytes (slice image 8 10) = 0x000B
  machine : fromBytes (slice image 10 12) = 0x8664
  compression : fromBytes (slice image 12 14) = 0

/-- The fixed fields of the PCI data structure. -/
structure Pcir (image : List UInt8) (pcir : Nat) : Prop where
  signature : slice image pcir (pcir + 4) = pcirSignature
  vendor : fromBytes (slice image (pcir + 4) (pcir + 6)) = 0x10EE
  device : fromBytes (slice image (pcir + 6) (pcir + 8)) = 0x7024
  classCode : fromBytes (slice image (pcir + 0x0D) (pcir + 0x10)) = 0x038000
  codeType : image[pcir + 0x14]? = some 0x03
  indicator : ∃ b, image[pcir + 0x15]? = some b ∧ b &&& 0x80 ≠ 0

/-- Where the PE header of the driver is. -/
def peHeader (image : List UInt8) (efi : Nat) : Nat :=
  efi + fromBytes (slice image (efi + 0x3C) (efi + 0x40))

/-- The fields of the embedded PE. -/
structure Pe (image : List UInt8) (efi : Nat) : Prop where
  dos : slice image efi (efi + 2) = dosSignature
  signature : slice image (peHeader image efi) (peHeader image efi + 4) = peSignature
  machine : fromBytes (slice image (peHeader image efi + 4) (peHeader image efi + 6)) = 0x8664
  magic : fromBytes (slice image (peHeader image efi + 24) (peHeader image efi + 24 + 2)) = 0x20B
  subsystem : fromBytes (slice image (peHeader image efi + 24 + 0x44)
    (peHeader image efi + 24 + 0x46)) = 0x000B

structure Passes (image driver : List UInt8) : Prop where
  size : image.length = 32768
  header : Header image
  headerLength : fromBytes (slice image 2 4) = 64
  pcir : Pcir image (pcirOffset image)
  pcirLength : fromBytes (slice image (pcirOffset image + 0x10) (pcirOffset image + 0x12)) = 64
  sum : byteSum image % 256 = 0
  driver : slice image (efiImage image) (efiImage image + driver.length) = driver
  pe : Pe image (efiImage image)

/-! ### Lemmas -/

theorem require_bind {α : Type} {condition : Prop} [Decidable condition] {message : String}
    {next : Unit → Except Failure α} {a : α} :
    (require condition message >>= next) = .ok a ↔ condition ∧ next () = .ok a := by
  unfold require
  by_cases h : condition
  · rw [if_pos h]
    exact ⟨fun hn => ⟨h, hn⟩, fun hn => hn.2⟩
  · rw [if_neg h]
    constructor
    · intro hn
      cases hn
    · intro hn
      exact absurd hn.1 h

theorem require_ok {condition : Prop} [Decidable condition] {message : String} :
    require condition message = .ok () ↔ condition := by
  unfold require
  by_cases h : condition <;> simp [h]

theorem byteAt_bind {α : Type} {image : List UInt8} {i : Nat} {next : UInt8 → Except Failure α}
    {a : α} : (byteAt image i >>= next) = .ok a ↔ ∃ b, image[i]? = some b ∧ next b = .ok a := by
  unfold byteAt
  cases h : image[i]? with
  | none =>
      constructor
      · intro hn
        cases hn
      · rintro ⟨b, ⟨⟩, -⟩
  | some b =>
      constructor
      · intro hn
        exact ⟨b, rfl, hn⟩
      · rintro ⟨b', hb, hn⟩
        cases hb
        exact hn

theorem check_ok_iff {image driver : List UInt8} :
    check image driver = .ok () ↔ Passes image driver := by
  unfold check
  simp only [require_bind, require_ok, byteAt_bind]
  constructor
  · rintro ⟨h1, h2, h3, h4, h5, h6, h7, h8, ⟨h9, h10⟩, h11, h12, b, hb, h13, c, hc, h14, h15, h16,
      h17, h18, h19, h20, h21⟩
    exact ⟨h1, ⟨h2, h4, h5, h6, h7⟩, h3, ⟨h8, h9, h10, h11, by rw [hb, h13], c, hc, h14⟩, h12, h15,
      h16, ⟨h17, h18, h19, h20, h21⟩⟩
  · rintro ⟨h1, ⟨h2, h4, h5, h6, h7⟩, h3, ⟨h8, h9, h10, h11, hb, c, hc, h14⟩, h12, h15, h16,
      ⟨h17, h18, h19, h20, h21⟩⟩
    exact ⟨h1, h2, h3, h4, h5, h6, h7, h8, ⟨h9, h10⟩, h11, h12, _, hb, rfl, c, hc, h14, h15, h16,
      h17, h18, h19, h20, h21⟩

theorem finalize_ok {raw driver : List UInt8} {art : Artifacts} (h : finalize raw driver = .ok art) :
    raw.length ≤ romSize ∧
    slice raw (efiImage raw) (efiImage raw + driver.length) = driver ∧
    art.bin = finalImage raw ∧ art.mem = memText (finalImage raw) := by
  unfold finalize at h
  split_ifs at h with hlen hsig hpcir hdriver
  cases h
  exact ⟨by omega, not_not.1 hdriver, rfl, rfl⟩

end OptionRom
