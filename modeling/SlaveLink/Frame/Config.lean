import SlaveLink.Frame.Header

/-! # Frame settings
How large a bus buffer is, how transfers are padded, and whether checksums are used. -/

namespace SlaveLink

structure FrameConfig where
  /-- Bytes per bus buffer, header included. -/
  bufferSize : Nat := 1600
  /-- Transfer lengths are padded to a multiple of this. -/
  alignment : Nat := 4
  /-- Compute checksums when writing and verify them when reading. -/
  checksum : Bool := true
deriving DecidableEq, Repr, Inhabited

inductive FrameConfigError where
  | alignmentNotPowerOfTwo (got : Nat)
  | bufferWithinHeader (got : Nat)
  | bufferTooLarge (got : Nat)
deriving DecidableEq, Repr

def FrameConfigError.message : FrameConfigError → String
  | .alignmentNotPowerOfTwo got => s!"dma_alignment must be a power of two (got {got})"
  | .bufferWithinHeader got =>
    s!"buffer_size must exceed the {headerSize}-byte header (got {got})"
  | .bufferTooLarge got => s!"buffer_size must fit the 16-bit length field (got {got})"

namespace FrameConfig

def maxPayload (c : FrameConfig) : Nat := c.bufferSize - headerSize

/-- Size of one pool block: the buffer size rounded up to the alignment. -/
def blockSize (c : FrameConfig) : Nat := alignUp c.bufferSize c.alignment

def validate (c : FrameConfig) : Except FrameConfigError Unit :=
  if ¬ c.alignment.isPowerOfTwo then .error (.alignmentNotPowerOfTwo c.alignment)
  else if c.bufferSize ≤ headerSize then .error (.bufferWithinHeader c.bufferSize)
  else if c.bufferSize > 65535 then .error (.bufferTooLarge c.bufferSize)
  else .ok ()

end FrameConfig
end SlaveLink
