import SlaveLink.Text.Digits

/-! # Frame errors
Why a frame cannot be written or read. -/

namespace SlaveLink

inductive FrameError where
  /-- The buffer cannot hold even a header. -/
  | bufferTooSmall (size : Nat)
  | payloadTooLarge (size max : Nat)
  | emptyPayload
  /-- A keep-alive frame without payload, which is never delivered. -/
  | dummyFrame
  | checksumMismatch (expected computed : UInt16)
  /-- Length and offset do not describe a frame inside the buffer. -/
  | malformed (length offset capacity : Nat)
  | unknownInterface (code : UInt8)
  | badEvent (reason : String)
deriving DecidableEq, Repr

namespace FrameError

def message : FrameError → String
  | .bufferTooSmall size => s!"buffer too small for a frame header ({size} bytes)"
  | .payloadTooLarge size max => s!"payload too large ({size} bytes, max {max})"
  | .emptyPayload => "empty payload"
  | .dummyFrame => "dummy frame"
  | .checksumMismatch expected computed =>
    "checksum mismatch (header " ++ Text.hexLiteral 4 expected.toNat ++ ", computed " ++
      Text.hexLiteral 4 computed.toNat ++ ")"
  | .malformed length offset capacity =>
    s!"malformed frame (len {length}, offset {offset}, capacity {capacity})"
  | .unknownInterface code => s!"unknown interface type {code}"
  | .badEvent reason => "bad event payload: " ++ reason

end FrameError
end SlaveLink
