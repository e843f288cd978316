import Mathlib.Logic.Function.Basic
import SimpleDisplay.Gop.Pixels
import SimpleDisplay.Gop.Program

/-!
# `SimpleDisplayHwScratchTest`

The test saves four words of the DDR, writes a pattern over them, reads it back, and then
writes the saved words again and reads those back.  Writing and reading back are the same
two loops both times (`writeAndCheck`), so one specification serves the test phase and the
restore phase.
-/

namespace SimpleDisplay

open Word

def patterns : Nat → Nat
  | 0 => 0x55AA00FF
  | 1 => 0xA55AC33C
  | 2 => 0x01234567
  | _ => 0x89ABCDEF

/-- `SIMPLE_DISPLAY_SCRATCH_OFFSET + Index * sizeof (UINT32)`. -/
def scratchWord (index : Nat) : Nat := scratchOffset + index * 4

/-- `SIMPLE_DISPLAY_SCRATCH_RESULT`, its arrays by index. -/
structure ScratchResult where
  original : Nat → Nat
  readback : Nat → Nat
  restored : Nat → Nat

def ScratchResult.zero : ScratchResult := ⟨fun _ => 0, fun _ => 0, fun _ => 0⟩

section

/-! `read` and `write` stand for `Read32` and `Write32` at the word of an index. -/

variable {σ : Type} (read : Nat → σ → Except Status Nat × σ)
  (write : Nat → Nat → σ → Except Status Unit × σ)

/-- The loop that reads the words, `n` of them from `index` on; it returns what the array holds
where it stops. -/
def readWords : (n index : Nat) → (Nat → Nat) → σ → Status × (Nat → Nat) × σ
  | 0, _, words, s => (.success, words, s)
  | n + 1, index, words, s =>
    match read index s with
    | (.error status, s) => (status, words, s)
    | (.ok value, s) => readWords n (index + 1) (Function.update words index value) s

/-- A loop that writes `values`, up to the first write that fails. -/
def writeWords (values : Nat → Nat) : (n index : Nat) → σ → Status × σ
  | 0, _, s => (.success, s)
  | n + 1, index, s =>
    match write index (values index) s with
    | (.error status, s) => (status, s)
    | (.ok _, s) => writeWords values n (index + 1) s

/-- A loop that reads the words and compares, up to the first read that fails or word that
differs. -/
def checkWords (values : Nat → Nat) : (n index : Nat) → (Nat → Nat) → σ →
    Status × (Nat → Nat) × σ
  | 0, _, words, s => (.success, words, s)
  | n + 1, index, words, s =>
    match read index s with
    | (.error status, s) => (status, words, s)
    | (.ok value, s) =>
      let words := Function.update words index value
      if words index ≠ values index then (.compromisedData, words, s)
      else checkWords values n (index + 1) words s

/-- A phase of the test: the words are written, and if that worked they are read back. -/
def writeAndCheck (values words : Nat → Nat) (s : σ) : Status × (Nat → Nat) × σ :=
  let (status, s) := writeWords write values 4 0 s
  if !status.isError then checkWords read values 4 0 words s else (status, words, s)

/-- The body of `SimpleDisplayHwScratchTest` after its argument check. -/
def scratchPhases (s : σ) : Status × ScratchResult × σ :=
  let result := ScratchResult.zero
  let (status, original, s) := readWords read 4 0 result.original s
  let result := { result with original := original }
  if status.isError then (status, result, s)
  else
    let (status, readback, s) := writeAndCheck read write patterns result.readback s
    let (restoreStatus, restored, s) := writeAndCheck read write original result.restored s
    (if restoreStatus.isError then restoreStatus else status,
      { result with readback := readback, restored := restored }, s)

end

section

variable {σ : Type} (pci : PciIo σ) (context : HwContext)

def scratchRead (index : Nat) : σ → Except Status Nat × σ := read32 pci context (scratchWord index)

def scratchWrite (index value : Nat) : σ → Except Status Unit × σ :=
  write32 pci context (scratchWord index) value

def hwScratchTest (result : ScratchResult) (s : σ) : Status × ScratchResult × σ :=
  if scratchOffset > u64 (context.barLength + 2 ^ 64 - 16) then (.invalidParameter, result, s)
  else scratchPhases (scratchRead pci context) (scratchWrite pci context) s

end

/-! ## The words in the memory

A read changes none of them, and tells the truth until the first write; read-backs may be
wrong.  A write that succeeds stores its word, and one that fails changes at most that one.
-/

structure WordAccess {σ : Type} (read : Nat → σ → Except Status Nat × σ)
    (write : Nat → Nat → σ → Except Status Unit × σ) (fresh : σ → Prop)
    (word : σ → Nat → Nat) : Prop where
  read_words : ∀ i < 4, ∀ s, ∀ j < 4, word (read i s).2 j = word s j
  read_fresh : ∀ i < 4, ∀ s, fresh s → fresh (read i s).2
  read_truth : ∀ i < 4, ∀ s value, fresh s → (read i s).1 = .ok value → value = word s i
  read_lt : ∀ i s value, (read i s).1 = .ok value → value < 2 ^ 32
  read_error : ∀ i s status, (read i s).1 = .error status → status.isError = true
  write_word : ∀ i < 4, ∀ value s u, (write i value s).1 = .ok u →
    word (write i value s).2 i = value % 2 ^ 32
  write_others : ∀ i < 4, ∀ value s, ∀ j < 4, j ≠ i → word (write i value s).2 j = word s j
  write_error : ∀ i value s status, (write i value s).1 = .error status → status.isError = true

section

variable {σ : Type} {read : Nat → σ → Except Status Nat × σ}
  {write : Nat → Nat → σ → Except Status Unit × σ} {fresh : σ → Prop} {word : σ → Nat → Nat}
  (haccess : WordAccess read write fresh word)
include haccess

/-- Before the first write, the words that were read are the words in the memory. -/
theorem readWords_spec (n : Nat) {index : Nat} (hn : index + n ≤ 4) (words : Nat → Nat) (s : σ)
    (hfresh : fresh s) :
    let r := readWords read n index words s
    (∀ j < 4, word r.2.2 j = word s j) ∧ (∀ j < index, r.2.1 j = words j) ∧
      (r.1.isError = false → ∀ j, index ≤ j → j < index + n →
        r.2.1 j = word s j ∧ r.2.1 j < 2 ^ 32) := by
  induction n generalizing index words s with
  | zero => exact ⟨fun j _ => rfl, fun j _ => rfl, fun _ j hj hj' => absurd hj (by omega)⟩
  | succ n ih =>
    have hwords := haccess.read_words index (by omega) s
    have hfresh' := haccess.read_fresh index (by omega) s hfresh
    have htruth := haccess.read_truth index (by omega) s
    have hlt := haccess.read_lt index s
    have herror := haccess.read_error index s
    unfold readWords
    generalize read index s = r at hwords hfresh' htruth hlt herror ⊢
    rcases r with ⟨status | value, t⟩
    · refine ⟨hwords, fun j _ => rfl, ?_⟩
      intro herr
      rw [herror status rfl] at herr
      cases herr
    · have hfirst := htruth value hfresh rfl
      have hfirst' := hlt value rfl
      obtain ⟨hkeep, hbelow, hget⟩ :=
        ih (show index + 1 + n ≤ 4 by omega) (Function.update words index value) t hfresh'
      refine ⟨fun j hj => (hkeep j hj).trans (hwords j hj), ?_, ?_⟩
      · intro j hj
        rw [hbelow j (by omega), Function.update_of_ne (by omega)]
      · intro herr j hj hj'
        by_cases hji : j = index
        · rw [hji, hbelow index (by omega), Function.update_self]
          exact ⟨hfirst, hfirst'⟩
        · rw [← hwords j (by omega)]
          exact hget herr j (by omega) (by omega)

/-- Writes that all succeed leave their values. -/
theorem writeWords_spec (values : Nat → Nat) (n : Nat) {index : Nat} (hn : index + n ≤ 4) (s : σ) :
    let r := writeWords write values n index s
    r.1.isError = false → (∀ j < index, word r.2 j = word s j) ∧
      ∀ j, index ≤ j → j < index + n → word r.2 j = values j % 2 ^ 32 := by
  induction n generalizing index s with
  | zero => exact fun _ => ⟨fun j _ => rfl, fun j hj hj' => absurd hj (by omega)⟩
  | succ n ih =>
    have hword := haccess.write_word index (by omega) (values index) s
    have hothers := haccess.write_others index (by omega) (values index) s
    have herror := haccess.write_error index (values index) s
    unfold writeWords
    generalize write index (values index) s = r at hword hothers herror ⊢
    rcases r with ⟨status | u, t⟩
    · intro r herr
      have hstatus := herror status rfl
      rw [show status.isError = false from herr] at hstatus
      cases hstatus
    · have hstored := hword u rfl
      intro r herr
      obtain ⟨hbelow, hget⟩ := ih (show index + 1 + n ≤ 4 by omega) t herr
      constructor
      · intro j hj
        rw [hbelow j (by omega), hothers j (by omega) (by omega)]
      · intro j hj hj'
        by_cases hji : j = index
        · rw [hji, hbelow index (by omega), hstored]
        · exact hget j (by omega) (by omega)

/-- Reading back changes no word, and succeeds only on the expected values. -/
theorem checkWords_spec (values : Nat → Nat) (n : Nat) {index : Nat} (hn : index + n ≤ 4)
    (words : Nat → Nat) (s : σ) :
    let r := checkWords read values n index words s
    (∀ j < 4, word r.2.2 j = word s j) ∧ (∀ j < index, r.2.1 j = words j) ∧
      (r.1.isError = false → ∀ j, index ≤ j → j < index + n → r.2.1 j = values j) := by
  induction n generalizing index words s with
  | zero => exact ⟨fun j _ => rfl, fun j _ => rfl, fun _ j hj hj' => absurd hj (by omega)⟩
  | succ n ih =>
    have hwords := haccess.read_words index (by omega) s
    have herror := haccess.read_error index s
    unfold checkWords
    generalize read index s = r at hwords herror ⊢
    rcases r with ⟨status | value, t⟩
    · refine ⟨hwords, fun j _ => rfl, ?_⟩
      intro herr
      rw [herror status rfl] at herr
      cases herr
    · dsimp only
      split
      · refine ⟨hwords, ?_, fun herr => by cases herr⟩
        intro j hj
        exact Function.update_of_ne (by omega) _ _
      next hsame =>
        obtain ⟨hkeep, hbelow, hget⟩ :=
          ih (show index + 1 + n ≤ 4 by omega) (Function.update words index value) t
        refine ⟨fun j hj => (hkeep j hj).trans (hwords j hj), ?_, ?_⟩
        · intro j hj
          rw [hbelow j (by omega), Function.update_of_ne (by omega)]
        · intro herr j hj hj'
          by_cases hji : j = index
          · rw [hji, hbelow index (by omega)]
            exact not_not.mp hsame
          · exact hget herr j (by omega) (by omega)

/-- A phase leaves its values when its writes succeed, and succeeds only if they also read back. -/
theorem writeAndCheck_spec (values words : Nat → Nat) (s : σ) :
    let r := writeAndCheck read write values words s
    let w := writeWords write values 4 0 s
    (w.1.isError = false → ∀ j < 4, word r.2.2 j = values j % 2 ^ 32) ∧
      (r.1.isError = false → w.1.isError = false ∧ ∀ j < 4, r.2.1 j = values j) := by
  unfold writeAndCheck
  have hwrite := writeWords_spec haccess values 4 (show 0 + 4 ≤ 4 by omega) s
  generalize writeWords write values 4 0 s = w at hwrite ⊢
  obtain ⟨status, t⟩ := w
  dsimp only at hwrite ⊢
  by_cases herr : status.isError = true
  · rw [herr, Bool.not_true, if_neg Bool.false_ne_true]
    dsimp only
    rw [herr]
    constructor <;> intro h <;> cases h
  · rw [Bool.not_eq_true] at herr
    obtain ⟨-, hstored⟩ := hwrite herr
    obtain ⟨hkeep, -, hget⟩ := checkWords_spec haccess values 4 (show 0 + 4 ≤ 4 by omega) words t
    rw [herr, Bool.not_false, if_pos rfl]
    refine ⟨fun _ j hj => ?_, fun hok => ⟨rfl, fun j hj => hget hok j (by omega) (by omega)⟩⟩
    rw [hkeep j hj, hstored j (by omega) (by omega)]

/-! ## The phases together -/

omit haccess in
/-- Words that could not all be saved end the test before it writes. -/
theorem scratchPhases_unread {s : σ}
    (hread : (readWords read 4 0 (fun _ => 0) s).1.isError = true) :
    scratchPhases read write s = ((readWords read 4 0 (fun _ => 0) s).1,
      ⟨(readWords read 4 0 (fun _ => 0) s).2.1, fun _ => 0, fun _ => 0⟩,
      (readWords read 4 0 (fun _ => 0) s).2.2) := if_pos hread

/-- After saved words, whatever the test phase did, the restore phase decides. -/
theorem scratchPhases_read {s : σ} (hfresh : fresh s)
    (hread : (readWords read 4 0 (fun _ => 0) s).1.isError = false) :
    let saved := readWords read 4 0 (fun _ => 0) s
    let tested := writeAndCheck read write patterns (fun _ => 0) saved.2.2
    let restored := writeAndCheck read write saved.2.1 (fun _ => 0) tested.2.2
    let r := scratchPhases read write s
    r = (if restored.1.isError then restored.1 else tested.1,
        ⟨saved.2.1, tested.2.1, restored.2.1⟩, restored.2.2) ∧
      (∀ j < 4, saved.2.1 j = word s j) ∧
      ((writeWords write saved.2.1 4 0 tested.2.2).1.isError = false →
        ∀ j < 4, word r.2.2 j = word s j) ∧
      (tested.1.isError = false → ∀ j < 4, tested.2.1 j = patterns j) ∧
      (restored.1.isError = false → (writeWords write saved.2.1 4 0 tested.2.2).1.isError = false ∧
        ∀ j < 4, restored.2.1 j = saved.2.1 j) := by
  intro saved tested restored r
  have hnot : ¬ (readWords read 4 0 (fun _ => 0) s).1.isError = true := by
    rw [hread]
    exact Bool.false_ne_true
  have hr : r = (if restored.1.isError then restored.1 else tested.1,
      ⟨saved.2.1, tested.2.1, restored.2.1⟩, restored.2.2) := if_neg hnot
  obtain ⟨-, -, hsaved⟩ := readWords_spec haccess 4 (show 0 + 4 ≤ 4 by omega) (fun _ => 0) s hfresh
  have hsaved : ∀ j < 4, saved.2.1 j = word s j ∧ saved.2.1 j < 2 ^ 32 := fun j hj =>
    hsaved hread j (Nat.zero_le j) (by rw [Nat.zero_add]; exact hj)
  obtain ⟨-, htested⟩ := writeAndCheck_spec haccess patterns (fun _ => 0) saved.2.2
  obtain ⟨hstored, hrestored⟩ := writeAndCheck_spec haccess saved.2.1 (fun _ => 0) tested.2.2
  refine ⟨hr, fun j hj => (hsaved j hj).1, ?_, fun h => (htested h).2, hrestored⟩
  intro hok j hj
  rw [hr]
  show word restored.2.2 j = word s j
  rw [hstored hok j hj, Nat.mod_eq_of_lt (hsaved j hj).2, (hsaved j hj).1]

theorem scratchPhases_keeps {s : σ} (hfresh : fresh s)
    (hread : (readWords read 4 0 (fun _ => 0) s).1.isError = true) :
    let r := scratchPhases read write s
    r.1 = (readWords read 4 0 (fun _ => 0) s).1 ∧ ∀ j < 4, word r.2.2 j = word s j := by
  obtain ⟨hkeep, -⟩ := readWords_spec haccess 4 (show 0 + 4 ≤ 4 by omega) (fun _ => 0) s hfresh
  rw [scratchPhases_unread hread]
  exact ⟨rfl, hkeep⟩

/-- Saved words come back with the restore phase, whose error is the one that counts. -/
theorem scratchPhases_restores {s : σ} (hfresh : fresh s)
    (hread : (readWords read 4 0 (fun _ => 0) s).1.isError = false) :
    let saved := readWords read 4 0 (fun _ => 0) s
    let tested := writeAndCheck read write patterns (fun _ => 0) saved.2.2
    let restored := writeAndCheck read write saved.2.1 (fun _ => 0) tested.2.2
    let r := scratchPhases read write s
    ((writeWords write saved.2.1 4 0 tested.2.2).1.isError = false →
      ∀ j < 4, word r.2.2 j = word s j) ∧
    (restored.1.isError = true → r.1 = restored.1) ∧
    (restored.1.isError = false → r.1 = tested.1 ∧ ∀ j < 4, word r.2.2 j = word s j) := by
  intro saved tested restored r
  obtain ⟨hr, -, hstored, -, hrestored⟩ := scratchPhases_read haccess hfresh hread
  have hstatus : r.1 = if restored.1.isError then restored.1 else tested.1 := by
    show (scratchPhases read write s).1 = _
    rw [hr]
  refine ⟨hstored, ?_, ?_⟩
  · intro herr
    rw [hstatus, if_pos herr]
  · intro hok
    refine ⟨?_, hstored (hrestored hok).1⟩
    rw [hstatus, hok, if_neg Bool.false_ne_true]

/-- Success says that both phases saw what they had written. -/
theorem scratchPhases_success {s : σ} (hfresh : fresh s)
    (hsuccess : (scratchPhases read write s).1 = .success) :
    let r := scratchPhases read write s
    ∀ j < 4, r.2.1.readback j = patterns j ∧ r.2.1.restored j = word s j ∧
      word r.2.2 j = word s j := by
  by_cases herr : (readWords read 4 0 (fun _ => 0) s).1.isError = true
  · rw [scratchPhases_unread herr] at hsuccess
    rw [show (readWords read 4 0 (fun _ => 0) s).1 = .success from hsuccess] at herr
    cases herr
  · rw [Bool.not_eq_true] at herr
    obtain ⟨hr, hsaved, hstored, htested, hrestored⟩ := scratchPhases_read haccess hfresh herr
    rw [hr] at hsuccess hstored ⊢
    dsimp only at hsuccess hstored ⊢
    split at hsuccess
    next hfailed =>
      rw [hsuccess] at hfailed
      cases hfailed
    next hfine =>
      rw [Bool.not_eq_true] at hfine
      obtain ⟨hwritten, hverified⟩ := hrestored hfine
      have htest := htested (by rw [hsuccess]; rfl)
      intro j hj
      exact ⟨htest j hj, by rw [hverified j hj, hsaved j hj], hstored hwritten j hj⟩

end

/-! ## `Read32` and `Write32` on the scratch words -/

/-- What `PciIo` does to the scratch words.  The states that are `fresh` have seen no write. -/
structure ScratchMemory {σ : Type} (pci : PciIo σ) (bar : Nat) (fresh : σ → Prop)
    (word : σ → Nat → Nat) : Prop where
  read : ∀ i < 4, ∀ s, let r := pci.memRead bar (scratchWord i) 1 s
    (∀ j < 4, word r.2 j = word s j) ∧
      (fresh s → fresh r.2 ∧ (r.1.1.isError = false → leWord r.1.2 = word s i))
  write : ∀ i < 4, ∀ bytes s, bytes.length = 4 →
    let r := pci.memWrite bar (scratchWord i) 1 bytes s
    (r.1.isError = false → word r.2 i = leWord bytes) ∧ ∀ j < 4, j ≠ i → word r.2 j = word s j

section

variable {σ : Type} (pci : PciIo σ) (context : HwContext)

/-- `Read32` refuses the offset or passes on what `Mem.Read` says. -/
theorem scratchRead_cases (index : Nat) (s : σ) :
    scratchRead pci context index s = (.error .invalidParameter, s) ∨
      scratchRead pci context index s =
        ((pci.memRead (context.barIndex % 256) (scratchWord index) 1 s).1.1.andReturn
          (leWord (pci.memRead (context.barIndex % 256) (scratchWord index) 1 s).1.2),
          (pci.memRead (context.barIndex % 256) (scratchWord index) 1 s).2) := by
  unfold scratchRead read32
  split
  · exact .inl rfl
  · exact .inr rfl

theorem scratchWrite_cases (index value : Nat) (s : σ) :
    scratchWrite pci context index value s = (.error .invalidParameter, s) ∨
      scratchWrite pci context index value s =
        ((pci.memWrite (context.barIndex % 256) (scratchWord index) 1
          (leBytes value) s).1.andReturn (),
          (pci.memWrite (context.barIndex % 256) (scratchWord index) 1 (leBytes value) s).2) := by
  unfold scratchWrite write32
  split
  · exact .inl rfl
  · exact .inr rfl

variable {pci context}

/-- A read does not look at `Mem.Write`. -/
theorem scratchRead_memWrite
    (memWrite : (barIndex offset count : Nat) → List UInt8 → σ → Status × σ) :
    scratchRead { pci with memWrite := memWrite } context = scratchRead pci context := rfl

-- from here on an access is one of its two cases; to unfold it would be to compare offsets
attribute [local irreducible] scratchRead scratchWrite

theorem ScratchMemory.access {fresh : σ → Prop} {word : σ → Nat → Nat}
    (hmem : ScratchMemory pci (context.barIndex % 256) fresh word) :
    WordAccess (scratchRead pci context) (scratchWrite pci context) fresh word where
  read_words i hi s := by
    rcases scratchRead_cases pci context i s with h | h
    · rw [h]
      exact fun j _ => rfl
    · rw [h]
      exact (hmem.read i hi s).1
  read_fresh i hi s hfresh := by
    rcases scratchRead_cases pci context i s with h | h
    · rw [h]
      exact hfresh
    · rw [h]
      exact ((hmem.read i hi s).2 hfresh).1
  read_truth i hi s value hfresh hok := by
    rcases scratchRead_cases pci context i s with h | h
    · rw [h] at hok
      cases hok
    · rw [h] at hok
      obtain ⟨herr, hvalue⟩ := andReturn_ok hok
      rw [← hvalue]
      exact ((hmem.read i hi s).2 hfresh).2 herr
  read_lt i s value hok := by
    rcases scratchRead_cases pci context i s with h | h
    · rw [h] at hok
      cases hok
    · rw [h] at hok
      rw [← (andReturn_ok hok).2]
      exact leWord_lt _
  read_error i s status herr := by
    rcases scratchRead_cases pci context i s with h | h
    · rw [h] at herr
      rw [← Except.error.inj herr]
      rfl
    · rw [h] at herr
      exact andReturn_error herr
  write_word i hi value s u hok := by
    rcases scratchWrite_cases pci context i value s with h | h
    · rw [h] at hok
      cases hok
    · rw [h] at hok ⊢
      rw [← leWord_leBytes]
      exact (hmem.write i hi (leBytes value) s rfl).1 (andReturn_ok hok).1
  write_others i hi value s j hj hji := by
    rcases scratchWrite_cases pci context i value s with h | h
    · rw [h]
    · rw [h]
      exact (hmem.write i hi (leBytes value) s rfl).2 j hj hji
  write_error i value s status herr := by
    rcases scratchWrite_cases pci context i value s with h | h
    · rw [h] at herr
      rw [← Except.error.inj herr]
      rfl
    · rw [h] at herr
      exact andReturn_error herr

/-- The offset check. -/
def scratchInside (context : HwContext) : Prop :=
  scratchOffset ≤ u64 (context.barLength + 2 ^ 64 - 16)

theorem hwScratchTest_outside (h : ¬ scratchInside context) (result : ScratchResult) (s : σ) :
    hwScratchTest pci context result s = (.invalidParameter, result, s) :=
  if_pos (Nat.not_le.mp h)

theorem hwScratchTest_inside (h : scratchInside context) (result : ScratchResult) (s : σ) :
    hwScratchTest pci context result s =
      scratchPhases (scratchRead pci context) (scratchWrite pci context) s :=
  if_neg (Nat.not_lt.mpr h)

/-- Without the saved words the test ends, and so never looks at `Mem.Write`. -/
theorem hwScratchTest_unread (h : scratchInside context) (result : ScratchResult) {s : σ}
    (hread : (readWords (scratchRead pci context) 4 0 (fun _ => 0) s).1.isError = true) :
    hwScratchTest pci context result s =
      ((readWords (scratchRead pci context) 4 0 (fun _ => 0) s).1,
      ⟨(readWords (scratchRead pci context) 4 0 (fun _ => 0) s).2.1, fun _ => 0, fun _ => 0⟩,
      (readWords (scratchRead pci context) 4 0 (fun _ => 0) s).2.2) :=
  (hwScratchTest_inside h result s).trans (scratchPhases_unread hread)

theorem hwScratchTest_memWrite (h : scratchInside context) (result : ScratchResult) {s : σ}
    (hread : (readWords (scratchRead pci context) 4 0 (fun _ => 0) s).1.isError = true)
    (memWrite : (barIndex offset count : Nat) → List UInt8 → σ → Status × σ) :
    hwScratchTest { pci with memWrite := memWrite } context result s =
      hwScratchTest pci context result s := by
  rw [hwScratchTest_unread h result hread]
  rw [← scratchRead_memWrite memWrite] at hread ⊢
  exact hwScratchTest_unread h result hread

/-- A success means that every word read back its pattern and was restored and verified.  A
test that could not save the words has not written, whatever `Mem.Write` does.  Otherwise
the words are back when the restoring writes succeed, and an error of the restore phase is
the one returned. -/
theorem scratchTest_honest {fresh : σ → Prop} {word : σ → Nat → Nat}
    (hmem : ScratchMemory pci (context.barIndex % 256) fresh word) (result : ScratchResult) (s : σ)
    (hfresh : fresh s) :
    let read := scratchRead pci context
    let write := scratchWrite pci context
    let saved := readWords read 4 0 (fun _ => 0) s
    let tested := writeAndCheck read write patterns (fun _ => 0) saved.2.2
    let restoring := writeWords write saved.2.1 4 0 tested.2.2
    let restored := writeAndCheck read write saved.2.1 (fun _ => 0) tested.2.2
    let r := hwScratchTest pci context result s
    (r.1 = .success → ∀ j < 4, r.2.1.readback j = patterns j ∧ r.2.1.restored j = word s j ∧
      word r.2.2 j = word s j) ∧
    (¬ scratchInside context → r = (.invalidParameter, result, s)) ∧
    (scratchInside context → saved.1.isError = true →
      r.1 = saved.1 ∧ (∀ j < 4, word r.2.2 j = word s j) ∧
      ∀ memWrite, hwScratchTest { pci with memWrite := memWrite } context result s = r) ∧
    (scratchInside context → saved.1.isError = false →
      (restoring.1.isError = false → ∀ j < 4, word r.2.2 j = word s j) ∧
      (restored.1.isError = true → r.1 = restored.1) ∧
      (restored.1.isError = false → r.1 = tested.1 ∧ ∀ j < 4, word r.2.2 j = word s j)) := by
  have haccess := hmem.access
  dsimp only
  refine ⟨?_, fun h => hwScratchTest_outside h result s, ?_, ?_⟩
  · intro hsuccess
    by_cases h : scratchInside context
    · rw [hwScratchTest_inside h] at hsuccess ⊢
      exact scratchPhases_success haccess hfresh hsuccess
    · rw [hwScratchTest_outside h] at hsuccess
      cases hsuccess
  · intro h herr
    obtain ⟨hstatus, hkeep⟩ := scratchPhases_keeps haccess hfresh herr
    rw [← hwScratchTest_inside h result s] at hstatus hkeep
    exact ⟨hstatus, hkeep, hwScratchTest_memWrite h result herr⟩
  · intro h hok
    rw [hwScratchTest_inside h]
    exact scratchPhases_restores haccess hfresh hok

end

/-! ## A memory -/

theorem loadBytes_storeBytes (mem : Nat → UInt8) (lo : Nat) (bytes : List UInt8) :
    loadBytes (storeBytes mem lo bytes) lo bytes.length = bytes := by
  apply List.ext_getElem (loadBytes_length _ _ _)
  intro i hi hi'
  simp [loadBytes, storeBytes, hi']

theorem loadBytes_outside (mem : Nat → UInt8) {lo lo' n : Nat} {bytes : List UInt8}
    (h : lo' + n ≤ lo ∨ lo + bytes.length ≤ lo') :
    loadBytes (storeBytes mem lo bytes) lo' n = loadBytes mem lo' n := by
  apply List.map_congr_left
  intro i hi
  rw [List.mem_range] at hi
  exact storeBytes_outside mem (Nat.le_refl bytes.length) (by omega)

theorem memoryPci_scratch (bar : Nat) : ScratchMemory memoryPci bar (fun _ => True)
    fun mem i => leWord (loadBytes mem (scratchWord i) 4) where
  read _ _ mem := ⟨fun _ _ => rfl, fun h => ⟨h, fun _ => rfl⟩⟩
  write i _ bytes mem hlen := by
    have hstore : (memoryPci.memWrite bar (scratchWord i) 1 bytes mem).2 =
        storeBytes mem (scratchWord i) bytes := by
      show storeBytes mem _ (bytes.take (1 * 4)) = _
      rw [List.take_of_length_le (by omega)]
    dsimp only
    rw [hstore]
    constructor
    · intro _
      rw [← hlen, loadBytes_storeBytes]
    · intro j _ hji
      rw [loadBytes_outside]
      unfold scratchWord
      omega

/-- Words that the display has left in a memory. -/
theorem scratchTest_honest_memory :
    let context : HwContext := ⟨barIndex, 0, barMinSize, abiVersion, 3, 4096⟩
    let s := storeBytes identityMemory scratchOffset [0x12, 0x34, 0x56, 0x78]
    let r := hwScratchTest memoryPci context .zero s
    r.1 = .success ∧ ∀ j < 4, r.2.1.readback j = patterns j ∧
      leWord (loadBytes r.2.2 (scratchWord j) 4) = leWord (loadBytes s (scratchWord j) 4) := by
  intro context s
  dsimp only
  have hsuccess : (hwScratchTest memoryPci context .zero s).1 = .success := by decide +kernel
  obtain ⟨hwords, -⟩ :=
    scratchTest_honest (memoryPci_scratch (context.barIndex % 256)) .zero s trivial
  refine ⟨hsuccess, fun j hj => ?_⟩
  obtain ⟨hreadback, -, hword⟩ := hwords hsuccess j hj
  exact ⟨hreadback, hword⟩

end SimpleDisplay
