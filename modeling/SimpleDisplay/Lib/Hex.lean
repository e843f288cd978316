import Mathlib.Tactic.Common
import Mathlib.Tactic.IntervalCases

/-!
# Lines of hexadecimal text

`hex` and `fromHex` are the text of a byte string and its value; `joinLines` ends every
line with a newline, as `"\n".join(lines) + "\n"` does, and `splitLines` takes such a text
apart.
-/

namespace HexText

/-- A lower-case digit. -/
def digit (n : Nat) : Char := if n < 10 then Char.ofNat (48 + n) else Char.ofNat (87 + n)

/-- The value of a digit of either case. -/
def digitValue (c : Char) : Option Nat :=
  let n := c.toNat
  if 48 ≤ n ∧ n ≤ 57 then some (n - 48)
  else if 97 ≤ n ∧ n ≤ 102 then some (n - 87)
  else if 65 ≤ n ∧ n ≤ 70 then some (n - 55)
  else none

def hex : List UInt8 → List Char
  | [] => []
  | b :: bytes => digit (b.toNat / 16) :: digit (b.toNat % 16) :: hex bytes

def fromHex : List Char → Option (List UInt8)
  | [] => some []
  | [_] => none
  | a :: b :: text => do
    let high ← digitValue a
    let low ← digitValue b
    let bytes ← fromHex text
    return UInt8.ofNat (16 * high + low) :: bytes

def joinLines (lines : List (List Char)) : List Char := ['\n'].intercalate lines ++ ['\n']

/-- The lines of a text; a newline at its end starts no further line. -/
def splitLines (text : List Char) : List (List Char) :=
  let lines := text.splitOn '\n'
  if lines.getLast? = some [] then lines.dropLast else lines

/-! ## Round trips -/

theorem digitValue_digit {n : Nat} (h : n < 16) : digitValue (digit n) = some n := by
  interval_cases n <;> decide

theorem fromHex_hex (bytes : List UInt8) : fromHex (hex bytes) = some bytes := by
  induction bytes with
  | nil => rfl
  | cons b bytes ih =>
      have hb := b.toNat_lt
      unfold hex fromHex
      rw [digitValue_digit (by omega), digitValue_digit (by omega), ih]
      show some (UInt8.ofNat (16 * (b.toNat / 16) + b.toNat % 16) :: bytes) = _
      rw [Nat.div_add_mod, UInt8.ofNat_toNat]

theorem length_hex (bytes : List UInt8) : (hex bytes).length = 2 * bytes.length := by
  induction bytes with
  | nil => rfl
  | cons b bytes ih =>
      unfold hex
      rw [List.length_cons, List.length_cons, ih, List.length_cons]
      omega

theorem digit_ne_newline {n : Nat} (h : n < 16) : '\n' ≠ digit n := by
  interval_cases n <;> decide

theorem newline_not_mem_hex (bytes : List UInt8) : '\n' ∉ hex bytes := by
  induction bytes with
  | nil => exact List.not_mem_nil
  | cons b bytes ih =>
      have hb := b.toNat_lt
      unfold hex
      rw [List.mem_cons, List.mem_cons, not_or, not_or]
      exact ⟨digit_ne_newline (by omega), digit_ne_newline (by omega), ih⟩

/-- The newline after the last line starts an empty one. -/
theorem joinLines_eq {lines : List (List Char)} (hne : lines ≠ []) :
    joinLines lines = ['\n'].intercalate (lines ++ [[]]) := by
  unfold joinLines
  induction lines with
  | nil => exact absurd rfl hne
  | cons line lines ih =>
      by_cases hlast : lines = []
      · subst hlast
        simp [List.intercalate_cons_cons]
      · rw [List.intercalate_cons_of_ne_nil hlast, List.cons_append,
          List.intercalate_cons_of_ne_nil (by simp), ← ih hlast, List.append_assoc]

theorem splitLines_joinLines {lines : List (List Char)} (hne : lines ≠ [])
    (h : ∀ line ∈ lines, '\n' ∉ line) : splitLines (joinLines lines) = lines := by
  have hsplit : (joinLines lines).splitOn '\n' = lines ++ [[]] := by
    rw [joinLines_eq hne]
    apply List.splitOn_intercalate
    · intro line hline
      rcases List.mem_append.1 hline with hline | hline
      · exact h line hline
      · rw [List.mem_singleton.1 hline]
        exact List.not_mem_nil
    · simp
  unfold splitLines
  rw [hsplit]
  simp

end HexText
