import SimpleDisplay.Lib.AxiStream
import SimpleDisplay.Lib.Fields

/-!
# Packing pixels into words

`pixel_pack` writes 24-bit pixels as 32-bit words and `pixel_unpack` reads them back, in five
formats.  Both are started again for every packet; for a packet of whole groups either one
undoes the other.

A variable that the source leaves uninitialised holds whatever `uninit` says for the input
that is left.
-/

namespace Hls

open AxiStream Fields

abbrev NarrowPixel := Beat 24
abbrev WidePixel := Beat 32

/-- `V_24` to `V_16C`. -/
inductive Mode
  | v24
  | v32
  | v8
  | v16
  | v16c
  deriving DecidableEq

def Mode.code : Mode → Int
  | .v24 => 0
  | .v32 => 1
  | .v8 => 2
  | .v16 => 3
  | .v16c => 4

/-- The case of the `switch` that a mode register selects. -/
def Mode.ofCode (mode : Int) : Option Mode :=
  [Mode.v24, .v32, .v8, .v16, .v16c].find? fun m => m.code = mode

/-- The local variables that are declared without a value in the loops of `pixel_pack`. -/
structure Uninit where
  buffer : BitVec 96
  hasLast : BitVec 4
  hasUser : BitVec 4
  data : BitVec 32
  data48 : BitVec 48
  outData : BitVec 32

/-! ## `pixel_pack` -/

/-- `for (j < n) if (!last) read`: the pixels that are read and the last of their marks. -/
def readGroup : (n : Nat) → (last : Bool) → List NarrowPixel →
    Option (List NarrowPixel × Bool × List NarrowPixel)
  | 0, last, input => some ([], last, input)
  | _ + 1, true, input => some ([], true, input)
  | _ + 1, false, [] => none
  | n + 1, false, p :: input => (readGroup n p.last input).map fun r => (p :: r.1, r.2)

theorem readGroup_length {n : Nat} {last last' : Bool} {input input' ps : List NarrowPixel}
    (h : readGroup n last input = some (ps, last', input')) :
    input'.length ≤ input.length ∧ (last = false → 0 < n → input'.length < input.length) := by
  induction n generalizing last input ps with
  | zero =>
    unfold readGroup at h
    simp only [Option.some.injEq, Prod.mk.injEq] at h
    exact ⟨by rw [h.2.2], by omega⟩
  | succ n ih =>
    rcases last with _ | _
    · rcases input with _ | ⟨p, input⟩
      · cases h
      · obtain ⟨⟨ps', last'', input''⟩, hr, hr'⟩ := Option.map_eq_some_iff.1 h
        simp only [Prod.mk.injEq] at hr'
        obtain ⟨-, rfl, rfl⟩ := hr'
        have hle := (ih hr).1
        rw [List.length_cons]
        exact ⟨by omega, fun _ _ => by omega⟩
    · unfold readGroup at h
      simp only [Option.some.injEq, Prod.mk.injEq] at h
      exact ⟨by rw [h.2.2], by simp⟩

/-- The three words of a pass of `V_24`; `has_last` is read one pixel ahead. -/
def wordsV24 (u : Uninit) (ps : List NarrowPixel) : List WidePixel :=
  let buffer := fill u.buffer (ps.map (·.data))
  let hasUser := fill u.hasUser (ps.map fun p => BitVec.ofBool p.user)
  let hasLast := fill u.hasLast (ps.map fun p => BitVec.ofBool p.last)
  (List.range 3).map fun i => ⟨range buffer (i * 32) 32, hasUser.getLsbD i, hasLast.getLsbD (i + 1)⟩

def wordV8 (u : Uninit) (ps : List NarrowPixel) (last : Bool) : WidePixel :=
  ⟨fill u.data (ps.map fun p => range p.data 0 8), ps.any (·.user), last⟩

/-- `while (!delayed_last)` of `V_24` and of `V_8`: a pass writes `words`, and the one after
the pass with the last pixel reads and writes nothing. -/
def packDelayed (words : List NarrowPixel → List NarrowPixel → Bool → List WidePixel)
    (last delayedLast : Bool) (input : List NarrowPixel) :
    Option (List WidePixel × List NarrowPixel) :=
  if delayedLast then some ([], input)
  else
    match _h : readGroup 4 last input with
    | none => none
    | some (ps, last', input') =>
      let delayedLast := last
      (packDelayed words last' delayedLast input').map fun r =>
        ((if delayedLast then [] else words input ps last') ++ r.1, r.2)
termination_by 2 * input.length + if delayedLast then 0 else 1
decreasing_by
  have hlen := readGroup_length _h
  cases last
  · have hlt := hlen.2 rfl (by omega)
    split <;> omega
  · have := hlen.1
    rw [if_pos rfl, if_neg (by assumption)]
    omega

def packV24 (uninit : List NarrowPixel → Uninit) : Core 24 32 :=
  packDelayed (fun input ps _ => wordsV24 (uninit input) ps) false false

def packV8 (uninit : List NarrowPixel → Uninit) : Core 24 32 :=
  packDelayed (fun input ps last => [wordV8 (uninit input) ps last]) false false

def packV32 (uninit : List NarrowPixel → Uninit) (alpha : BitVec 8) : Core 24 32
  | [] => none
  | p :: input =>
    let data := setRange (setRange (uninit (p :: input)).data 0 p.data) 24 alpha
    let out : WidePixel := ⟨data, p.user, p.last⟩
    if p.last then some ([out], input)
    else (packV32 uninit alpha input).map fun r => (out :: r.1, r.2)

/-- `V_16`; the 17 bits that are read of a pixel are cut to the 16 of the range. -/
def packV16 (uninit : List NarrowPixel → Uninit) : Core 24 32
  | [] => none
  | [_] => none
  | p :: q :: input =>
    let data := fill (uninit (p :: q :: input)).data
      ([p, q].map fun p => (range p.data 0 17).setWidth 16)
    let out : WidePixel := ⟨data, p.user || q.user, q.last⟩
    if q.last then some ([out], input)
    else (packV16 uninit input).map fun r => (out :: r.1, r.2)

/-- `V_16C`: two pixels share the means of their second and third components. -/
def packV16C (uninit : List NarrowPixel → Uninit) : Core 24 32
  | [] => none
  | [_] => none
  | p :: q :: input =>
    let data := fill (uninit (p :: q :: input)).data48 [p.data, q.data]
    let outC1 : BitVec 9 := (range data 8 8).setWidth 9 + (range data 32 8).setWidth 9
    let outC2 : BitVec 9 := (range data 16 8).setWidth 9 + (range data 40 8).setWidth 9
    let outData := fill (uninit (p :: q :: input)).outData
      [range data 0 8, range outC1 1 8, range data 24 8, range outC2 1 8]
    let out : WidePixel := ⟨outData, p.user || q.user, q.last⟩
    if q.last then some ([out], input)
    else (packV16C uninit input).map fun r => (out :: r.1, r.2)

def pixelPack (uninit : List NarrowPixel → Uninit) (mode : Int) (alpha : BitVec 8) : Core 24 32 :=
  match Mode.ofCode mode with
  | some .v24 => packV24 uninit
  | some .v32 => packV32 uninit alpha
  | some .v8 => packV8 uninit
  | some .v16 => packV16 uninit
  | some .v16c => packV16C uninit
  | none => fun input => some ([], input)

/-! ## `pixel_unpack` -/

/-- The pixels `ds` that one pass writes. -/
def outPixels (user last : Bool) (ds : List (BitVec 24)) : List NarrowPixel :=
  ds.zipIdx.map fun d => ⟨d.1, if d.2 = 0 then user else false,
    if d.2 = ds.length - 1 then last else false⟩

def unpackV24 (uninit : List WidePixel → BitVec 96) : Core 32 24
  | a :: b :: c :: input =>
    let buffer := fill (uninit (a :: b :: c :: input)) [a.data, b.data, c.data]
    let hasUser := a.user || b.user || c.user
    let last := a.last || b.last || c.last
    let out := outPixels hasUser last ((List.range 4).map fun i => range buffer (i * 24) 24)
    if last then some (out, input)
    else (unpackV24 uninit input).map fun r => (out ++ r.1, r.2)
  | _ => none

/-- The loops that read one word a pass. -/
def unpackWords (pixels : BitVec 32 → List (BitVec 24)) : Core 32 24
  | [] => none
  | p :: input =>
    let out := outPixels p.user p.last (pixels p.data)
    if p.last then some (out, input)
    else (unpackWords pixels input).map fun r => (out ++ r.1, r.2)

def pixelV32 (data : BitVec 32) : List (BitVec 24) := [range data 0 24]

def pixelsV8 (data : BitVec 32) : List (BitVec 24) :=
  (List.range 4).map fun i => setRange 0 0 (range data (i * 8) 8)

def pixelsV16 (data : BitVec 32) : List (BitVec 24) :=
  (List.range 2).map fun i => setRange 0 0 (range data (i * 16) 16)

def pixelsV16C (data : BitVec 32) : List (BitVec 24) :=
  (List.range 2).map fun i =>
    setRange (setRange (setRange 0 0 (range data (i * 16) 8)) 8 (range data 8 8)) 16
      (range data 24 8)

def pixelUnpack (uninit : List WidePixel → BitVec 96) (mode : Int) : Core 32 24 :=
  match Mode.ofCode mode with
  | some .v24 => unpackV24 uninit
  | some .v32 => unpackWords pixelV32
  | some .v8 => unpackWords pixelsV8
  | some .v16 => unpackWords pixelsV16
  | some .v16c => unpackWords pixelsV16C
  | none => fun input => some ([], input)

end Hls
