import SlaveLink.Interface
import SlaveLink.Frame.Error

/-! # Frame headers
The twelve bytes in front of every payload:

    byte  0   interface in the low nibble, its number in the high nibble
    byte  1   flags
    bytes 2   payload length (16 bits)      bytes 4   payload offset (16 bits)
    bytes 6   checksum (16 bits)            bytes 8   sequence number (16 bits)
    byte 10   throttle                      byte 11   packet type -/

namespace SlaveLink

def headerSize : Nat := 12

structure Flags where
  bits : UInt8
deriving DecidableEq, Repr, Inhabited

namespace Flags

def none : Flags := ⟨0⟩
def moreFragment : Flags := ⟨0x01⟩
def wakeup : Flags := ⟨0x02⟩
def powerSaveStarted : Flags := ⟨0x04⟩
def powerSaveStopped : Flags := ⟨0x08⟩

def contains (flags other : Flags) : Bool := flags.bits &&& other.bits == other.bits

def union (a b : Flags) : Flags := ⟨a.bits ||| b.bits⟩

end Flags

/-- What the slave asks of the host: send freely, or hold back bulk traffic. -/
inductive Throttle where
  | off | on
deriving DecidableEq, Repr, Inhabited

namespace Throttle

/-- Only the low two bits count, and only the value 1 means `on`. -/
def ofBits (bits : UInt8) : Throttle := if bits.toNat % 4 = 1 then .on else .off

def bits : Throttle → UInt8
  | .off => 0
  | .on => 1

def ofBool (on : Bool) : Throttle := if on then .on else .off

def name : Throttle → String
  | .off => "off"
  | .on => "on"

end Throttle

structure Header where
  interface : Interface
  /-- Instance of the interface; four bits travel. -/
  number : UInt8
  flags : Flags
  /-- Payload length. Zero marks a dummy frame. -/
  length : UInt16
  /-- Where the payload starts, counted from the start of the frame. -/
  offset : UInt16
  checksum : UInt16
  sequence : UInt16
  throttle : Throttle
  packetType : UInt8
deriving DecidableEq, Repr, Inhabited

namespace Header

/-- A header for a payload that follows at once; its length is still open. -/
def blank (interface : Interface) (number : UInt8) : Header :=
  ⟨interface, number, .none, 0, UInt16.ofNat headerSize, 0, 0, .off, 0⟩

def dummy (throttle : Throttle) : Header :=
  { blank .filler 0x0F with offset := 0, throttle }

def isDummy (h : Header) : Bool := h.length == 0

/-- First index of the payload. -/
def payloadStart (h : Header) : Nat := h.offset.toNat

/-- First index past the payload. -/
def payloadEnd (h : Header) : Nat := h.offset.toNat + h.length.toNat

/-- The payload that the header describes inside a frame. -/
def payloadOf (h : Header) (frame : Bytes) : Bytes :=
  (frame.drop h.payloadStart).take h.length.toNat

/-- The interface in the low nibble and its number in the high nibble. -/
def routeByte (interface : Interface) (number : UInt8) : UInt8 :=
  UInt8.ofNat (interface.code.toNat % 16 + number.toNat % 16 * 16)

def encode (h : Header) : Bytes :=
  routeByte h.interface h.number :: h.flags.bits ::
    (Bytes.ofWord16 h.length ++ Bytes.ofWord16 h.offset ++ Bytes.ofWord16 h.checksum ++
      Bytes.ofWord16 h.sequence ++ [h.throttle.bits, h.packetType])

/-- Writes the header over the first twelve bytes of `dst`. -/
def writeTo (h : Header) (dst : Bytes) : Except FrameError Bytes :=
  if dst.length < headerSize then .error (.bufferTooSmall dst.length)
  else .ok (h.encode ++ dst.drop headerSize)

/-- Reads the header at the start of `src`. Lengths are not validated. -/
def parse (src : Bytes) : Except FrameError Header :=
  if src.length < headerSize then .error (.bufferTooSmall src.length)
  else
    let code := UInt8.ofNat ((src.byteAt 0).toNat % 16)
    match Interface.ofCode? code with
    | none => .error (.unknownInterface code)
    | some interface => .ok
      { interface
        number := UInt8.ofNat ((src.byteAt 0).toNat / 16)
        flags := ⟨src.byteAt 1⟩
        length := src.word16At 2
        offset := src.word16At 4
        checksum := src.word16At 6
        sequence := src.word16At 8
        throttle := .ofBits (src.byteAt 10)
        packetType := src.byteAt 11 }

@[simp] theorem length_encode (h : Header) : h.encode.length = headerSize := rfl

end Header

/-- The flags byte of a received buffer, read before any validation. -/
def peekFlags (src : Bytes) : Flags := ⟨src.byteAt 1⟩

end SlaveLink
