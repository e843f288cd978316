import SimpleDisplay.Lib.Run
import SimpleDisplay.Lib.WorkItem
import SimpleDisplay.Lib.Word
import SimpleDisplay.Lib.Mailbox
import SimpleDisplay.Lib.Keep
import SimpleDisplay.Lib.History
import SimpleDisplay.Lib.Registers
import SimpleDisplay.Lib.Wrap
import SimpleDisplay.Drm.Mode
import SimpleDisplay.Drm.Plane
import SimpleDisplay.Drm.Picture
import SimpleDisplay.Drm.Upload
import SimpleDisplay.Drm.Moves
import SimpleDisplay.Drm.Ownership
import SimpleDisplay.Drm.Completion
import SimpleDisplay.Drm.References
import SimpleDisplay.Drm.ActiveMode
import SimpleDisplay.Drm.Endings
import SimpleDisplay.Drm.StopUploads
import SimpleDisplay.Drm.ModeWindow
import SimpleDisplay.Drm.Staging
import SimpleDisplay.Drm.Coalesce
import SimpleDisplay.Drm.Modeset
import SimpleDisplay.Drm.Mappings
import SimpleDisplay.Drm.Registers
import SimpleDisplay.Drm.Translation
import SimpleDisplay.Lib.Cut
import SimpleDisplay.Lib.Slots
import SimpleDisplay.Lib.Blocks
import SimpleDisplay.Lib.Tiling
import SimpleDisplay.Xdma.Descriptor
import SimpleDisplay.Xdma.Lines
import SimpleDisplay.Xdma.Packets
import SimpleDisplay.Xdma.Submit
import SimpleDisplay.Xdma.Refused
import SimpleDisplay.Lib.Chain
import SimpleDisplay.Xdma.Service
import SimpleDisplay.Xdma.Served
import SimpleDisplay.Xdma.Truth
import SimpleDisplay.Xdma.Waiting
import SimpleDisplay.Xdma.Fetch
import SimpleDisplay.Lib.Rows
import SimpleDisplay.Xdma.Request
import SimpleDisplay.Xdma.Transfer
import SimpleDisplay.Xdma.Sends
import SimpleDisplay.Xdma.Accounts
import SimpleDisplay.Xdma.Nowait
import SimpleDisplay.Xdma.Completion
import SimpleDisplay.Xdma.Collected
import SimpleDisplay.Xdma.Frames
import SimpleDisplay.Gop.Efi
import SimpleDisplay.Gop.Hardware
import SimpleDisplay.Gop.Blt
import SimpleDisplay.Gop.BltSafety
import SimpleDisplay.Gop.Binding
import SimpleDisplay.Gop.EntryState
import SimpleDisplay.Gop.Books
import SimpleDisplay.Gop.Exits
import SimpleDisplay.Gop.Ledger
import SimpleDisplay.Gop.Program
import SimpleDisplay.Gop.SetMode
import SimpleDisplay.Gop.Pixels
import SimpleDisplay.Gop.Copy
import SimpleDisplay.Gop.Transfers
import SimpleDisplay.Gop.Scratch
import SimpleDisplay.Pipeline.Hardware
import SimpleDisplay.Pipeline.Firmware
import SimpleDisplay.Pipeline.Linux
import SimpleDisplay.Pipeline.Handoff
import SimpleDisplay.Pipeline.Scanout
import SimpleDisplay.Pipeline.ColorBars
import SimpleDisplay.Rtl.FrameCounter
import SimpleDisplay.Lib.Slice
import SimpleDisplay.Lib.Hex
import SimpleDisplay.Rom.OptionRom
import SimpleDisplay.Rom.Finalize
import SimpleDisplay.Lib.Fields
import SimpleDisplay.Lib.AxiStream
import SimpleDisplay.Hls.PixelPack
import SimpleDisplay.Hls.RoundTrip
import SimpleDisplay.Hls.Framing
import SimpleDisplay.Hls.ColorConvert
import SimpleDisplay.Hls.TraceControl
import SimpleDisplay.Lib.Fifo
import SimpleDisplay.Lib.Delimited
import SimpleDisplay.Drm.StaticPipeline
import SimpleDisplay.Pipeline.Iic
import SimpleDisplay.Pipeline.Windows
import SimpleDisplay.Pipeline.Refinement
import SimpleDisplay.Pipeline.VideoPath
import SimpleDisplay.Pipeline.Screen
