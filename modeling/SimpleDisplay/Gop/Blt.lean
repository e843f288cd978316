import SimpleDisplay.Gop.Hardware

/-!
# `SimpleDisplayBlt`

A call first checks its arguments (`bltCheck`, which also settles the stride of the
buffer) and allocates the row buffer, and then moves the rectangle row by row, each row by
`ReadFrameBufferRow` or `WriteFrameBufferRow`, until one fails.

`World` is what the call acts on: the device behind `PciIo`, the bytes of `BltBuffer` by
their offset, and a record of the row functions' calls that no step reads.
-/

namespace SimpleDisplay

open Word

/-- The fields of `EFI_GRAPHICS_OUTPUT_MODE_INFORMATION` that are not constant. -/
structure GopInfo where
  horizontalResolution : Nat
  verticalResolution : Nat
  pixelsPerScanLine : Nat
deriving DecidableEq, Inhabited

/-- `MakeModeInfo`. -/
def makeModeInfo (modeNumber : Nat) : GopInfo :=
  let mode := modes[modeNumber]!
  ⟨mode.horizontalActive, mode.verticalActive, mode.horizontalActive⟩

structure GopMode where
  maxMode : Nat
  mode : Nat

/-- The fields of `SIMPLE_DISPLAY_PRIVATE` that a GOP call reads. -/
structure Private where
  hardware : HwContext
  gopMode : GopMode
  gopInfo : GopInfo

/-- A call of `ReadFrameBufferRow` or `WriteFrameBufferRow`: the pixels, the offset in
BAR2, the offset in `BltBuffer` unless it was the row buffer, and what `PciIo` returned,
when the range check let it be called. -/
structure RowCall where
  write : Bool
  x : Nat
  y : Nat
  width : Nat
  offset : Nat
  host : Option Nat
  pci : Option Status

structure World (σ : Type) where
  dev : σ
  host : Nat → UInt8
  rows : List RowCall

/-- The arguments of a call. -/
structure BltArgs where
  operation : Int
  sourceX : Uintn
  sourceY : Uintn
  destinationX : Uintn
  destinationY : Uintn
  width : Uintn
  height : Uintn
  delta : Uintn
deriving DecidableEq

def bltVideoFill : Int := 0
def bltVideoToBltBuffer : Int := 1
def bltBufferToVideo : Int := 2
def bltVideoToVideo : Int := 3
def bltOperationMax : Int := 4

/-! ## Rows -/

def rowOffset (priv : Private) (x y : Nat) : Nat :=
  u64 (framebufferOffset +
    u64 (u64 (u64 (y * priv.gopInfo.pixelsPerScanLine) + x) * bytesPerPixel))

/-- The range check of both row functions. -/
def rowFits (priv : Private) (x y width : Nat) : Bool :=
  let rowBytes := u64 (width * bytesPerPixel)
  width ≠ 0 && rowBytes ≤ priv.hardware.barLength &&
    rowOffset priv x y ≤ priv.hardware.barLength - rowBytes

section

variable {σ : Type} (pci : PciIo σ) (priv : Private)

/-- `ReadFrameBufferRow`, with the bytes it stores in the buffer. -/
def readFrameBufferRow (host : Option Nat) (x y width : Nat) (w : World σ) :
    (Status × List UInt8) × World σ :=
  let call : RowCall := ⟨false, x, y, width, rowOffset priv x y, host, none⟩
  if !rowFits priv x y width then
    ((.invalidParameter, []), { w with rows := w.rows ++ [call] })
  else
    let ((status, bytes), dev) :=
      pci.memRead (priv.hardware.barIndex % 256) (rowOffset priv x y) width w.dev
    ((status, bytes.take (width * bytesPerPixel)),
      { w with dev := dev, rows := w.rows ++ [{ call with pci := some status }] })

def writeFrameBufferRow (host : Option Nat) (x y width : Nat) (bytes : List UInt8) (w : World σ) :
    Status × World σ :=
  let call : RowCall := ⟨true, x, y, width, rowOffset priv x y, host, none⟩
  if !rowFits priv x y width then (.invalidParameter, { w with rows := w.rows ++ [call] })
  else
    let (status, dev) :=
      pci.memWrite (priv.hardware.barIndex % 256) (rowOffset priv x y) width bytes w.dev
    (status, { w with dev := dev, rows := w.rows ++ [{ call with pci := some status }] })

end

/-! ## Arguments -/

/-- `RECT_FITS`. -/
def rectFits (start length limit : Nat) : Bool :=
  length ≠ 0 && start ≤ limit && length ≤ limit - start

/-- The source or the destination rectangle lies on the screen. -/
def sourceFits (info : GopInfo) (a : BltArgs) : Bool :=
  rectFits a.sourceX a.width info.horizontalResolution &&
    rectFits a.sourceY a.height info.verticalResolution

def destinationFits (info : GopInfo) (a : BltArgs) : Bool :=
  rectFits a.destinationX a.width info.horizontalResolution &&
    rectFits a.destinationY a.height info.verticalResolution

def BltArgs.usesBuffer (a : BltArgs) : Bool :=
  a.operation = bltVideoToBltBuffer || a.operation = bltBufferToVideo

def BltArgs.usesRowBuffer (a : BltArgs) : Bool :=
  a.operation = bltVideoFill || a.operation = bltVideoToVideo

/-- The origin of the rectangle in `BltBuffer`. -/
def BltArgs.bufferX (a : BltArgs) : Nat :=
  if a.operation = bltVideoToBltBuffer then a.destinationX else a.sourceX

def BltArgs.bufferY (a : BltArgs) : Nat :=
  if a.operation = bltVideoToBltBuffer then a.destinationY else a.sourceY

/-- The `switch` over the operations: whether it lets the request through. -/
def rectCheck (info : GopInfo) (bltBuffer : Bool) (a : BltArgs) : Bool :=
  if a.operation = bltVideoFill then bltBuffer && destinationFits info a
  else if a.operation = bltVideoToBltBuffer then bltBuffer && sourceFits info a
  else if a.operation = bltBufferToVideo then bltBuffer && destinationFits info a
  else if a.operation = bltVideoToVideo then sourceFits info a && destinationFits info a
  else false

/-- The check of the buffer layout, with the stride it settles on. -/
def layoutCheck (a : BltArgs) : Except Status Nat :=
  if a.bufferX > maxUintn - a.width.val ∨
      u64 (a.bufferX + a.width.val) > maxUintn / bytesPerPixel then
    .error .invalidParameter
  else
    let rowPixels := u64 (a.bufferX + a.width.val)
    let rowBytes := u64 (rowPixels * bytesPerPixel)
    if a.delta.val = 0 ∧ (a.bufferX ≠ 0 ∨ a.bufferY ≠ 0) then .error .invalidParameter
    else if a.delta.val ≠ 0 ∧ a.delta.val < rowBytes then .error .invalidParameter
    else
      let delta := if a.delta.val = 0 then rowBytes else a.delta.val
      if a.bufferY > maxUintn - (a.height.val - 1) ∨
          u64 (a.bufferY + a.height.val - 1) > maxUintn / delta then
        .error .invalidParameter
      else
        let lastRow := u64 (u64 (a.bufferY + a.height.val - 1) * delta)
        if lastRow > maxUintn - rowBytes then .error .invalidParameter
        else .ok delta

/-- The layout of `BltBuffer` only matters to a transfer from or to it. -/
def strideCheck (a : BltArgs) : Except Status Nat :=
  if a.usesBuffer then layoutCheck a else .ok a.delta.val

/-- The row buffer of a fill or a copy; `poolOk` is whether `AllocatePool` succeeds. -/
def rowBufferCheck (poolOk : Bool) (a : BltArgs) : Except Status Unit :=
  if !a.usesRowBuffer then .ok ()
  else if a.width.val > maxUintn / bytesPerPixel then .error .invalidParameter
  else if !poolOk then .error .outOfResources
  else .ok ()

/-- Everything `SimpleDisplayBlt` checks before it moves a pixel, with the stride of the
buffer. -/
def bltCheck (priv : Private) (bltBuffer poolOk : Bool) (a : BltArgs) : Except Status Nat :=
  if priv.gopMode.mode = maxUint32 ∨ priv.gopMode.mode ≥ priv.gopMode.maxMode then .error .notReady
  else if a.operation ≥ bltOperationMax then .error .invalidParameter
  else if a.width.val = 0 ∨ a.height.val = 0 then .error .invalidParameter
  else if !rectCheck priv.gopInfo bltBuffer a then .error .invalidParameter
  else do
    let delta ← strideCheck a
    rowBufferCheck poolOk a
    return delta

/-! ## Transfers -/

/-- `for (Row = 0; Row < Height; Row++)` with a `break` on an error. -/
def forRows {ω : Type} (body : Nat → ω → Status × ω) : Nat → Nat → ω → Status × ω
  | 0, _, w => (.success, w)
  | n + 1, row, w =>
    let (status, w) := body row w
    if status.isError then (status, w) else forRows body n (row + 1) w

/-- The offset of a row of the rectangle in `BltBuffer`. -/
def hostOffset (a : BltArgs) (delta row : Nat) : Nat :=
  u64 (u64 (u64 (a.bufferY + row) * delta) + u64 (a.bufferX * bytesPerPixel))

def storeBytes (host : Nat → UInt8) (offset : Nat) (bytes : List UInt8) : Nat → UInt8 := fun i =>
  if offset ≤ i then bytes.getD (i - offset) (host i) else host i

def loadBytes (host : Nat → UInt8) (offset n : Nat) : List UInt8 :=
  (List.range n).map fun i => host (offset + i)

section

variable {σ : Type} (pci : PciIo σ) (priv : Private) (a : BltArgs) (delta : Nat)

/-- The row buffer of a fill: `Width` times the pixel in `BltBuffer`. -/
def fillBytes (host : Nat → UInt8) (width : Nat) : List UInt8 :=
  (List.replicate width (loadBytes host 0 bytesPerPixel)).flatten

def fillRow (bytes : List UInt8) (row : Nat) (w : World σ) : Status × World σ :=
  writeFrameBufferRow pci priv none a.destinationX (u64 (a.destinationY + row)) a.width bytes w

/-- The order of the rows of a copy, against an overlap. -/
def copyRow (row : Nat) : Nat :=
  if a.destinationY.val > a.sourceY.val then a.height.val - row - 1 else row

def videoToVideoRow (row : Nat) (w : World σ) : Status × World σ :=
  let ((status, bytes), w) := readFrameBufferRow pci priv none a.sourceX
    (u64 (a.sourceY + copyRow a row)) a.width w
  if status.isError then (status, w)
  else
    writeFrameBufferRow pci priv none a.destinationX (u64 (a.destinationY + copyRow a row))
      a.width bytes w

def videoToBltBufferRow (row : Nat) (w : World σ) : Status × World σ :=
  let ((status, bytes), w) := readFrameBufferRow pci priv (some (hostOffset a delta row)) a.sourceX
    (u64 (a.sourceY + row)) a.width w
  (status, { w with host := storeBytes w.host (hostOffset a delta row) bytes })

def bufferToVideoRow (row : Nat) (w : World σ) : Status × World σ :=
  writeFrameBufferRow pci priv (some (hostOffset a delta row)) a.destinationX
    (u64 (a.destinationY + row)) a.width
    (loadBytes w.host (hostOffset a delta row) (a.width * bytesPerPixel)) w

/-- The body of the row loop that the operation selects. -/
def bltRow (host : Nat → UInt8) : Nat → World σ → Status × World σ :=
  if a.operation = bltVideoFill then fillRow pci priv a (fillBytes host a.width)
  else if a.operation = bltVideoToVideo then videoToVideoRow pci priv a
  else if a.operation = bltVideoToBltBuffer then videoToBltBufferRow pci priv a delta
  else bufferToVideoRow pci priv a delta

/-- `SimpleDisplayBlt` of a GOP child. -/
def blt (bltBuffer poolOk : Bool) (w : World σ) : Status × World σ :=
  match bltCheck priv bltBuffer poolOk a with
  | .error status => (status, w)
  | .ok delta => forRows (bltRow pci priv a delta w.host) a.height 0 w

end

end SimpleDisplay
