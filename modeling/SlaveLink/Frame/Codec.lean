import SlaveLink.Frame.Config

/-! # Writing and reading frames
A frame is a header, a payload and zero padding up to the alignment. Reading checks, in this order:
room for a header, a length other than zero, a known interface, length and offset inside the buffer,
an interface that carries data, and the checksum. -/

namespace SlaveLink

/-- The sum over an encoded frame with its checksum field counted as zero. -/
def frameChecksum (frame : Bytes) : UInt16 :=
  Bytes.checksum frame - Bytes.checksum ((frame.drop 6).take 2)

namespace Header

/-- The header as it goes on the wire in front of `payload`, with length, offset and checksum. -/
def sealed (config : FrameConfig) (h : Header) (payload : Bytes) : Header :=
  let draft := { h with
    length := UInt16.ofNat payload.length
    offset := UInt16.ofNat headerSize
    checksum := 0 }
  if config.checksum then { draft with checksum := Bytes.checksum (draft.encode ++ payload) }
  else draft

end Header

/-- Length of an encoded frame with `size` bytes of payload, padding included. -/
def paddedSize (config : FrameConfig) (size : Nat) : Nat :=
  alignUp (headerSize + size) config.alignment

/-- Writes one frame into `dst` and returns the padded length beside the new contents. `header`
supplies the routing fields. After an error the destination is as it was. -/
def encodeFrame (config : FrameConfig) (header : Header) (payload dst : Bytes) :
    Except FrameError Nat × Bytes :=
  let total := headerSize + payload.length
  let padded := paddedSize config payload.length
  if payload.isEmpty then (.error .emptyPayload, dst)
  else if ¬ header.interface.carriesData then
    (.error (.unknownInterface header.interface.code), dst)
  else if total > config.bufferSize then
    (.error (.payloadTooLarge payload.length config.maxPayload), dst)
  else if dst.length < padded then (.error (.bufferTooSmall dst.length), dst)
  else
    (.ok padded, (header.sealed config payload).encode ++ payload ++ Bytes.zeros (padded - total) ++
      dst.drop padded)

def encodeDummy (throttle : Throttle) (dst : Bytes) : Except FrameError Bytes :=
  (Header.dummy throttle).writeTo dst

/-- Validates a received buffer and returns its header. -/
def decodeHeader (config : FrameConfig) (src : Bytes) : Except FrameError Header :=
  if src.length < headerSize then .error (.bufferTooSmall src.length)
  else if src.word16At 2 = 0 then .error .dummyFrame
  else
    match Header.parse src with
    | .error e => .error e
    | .ok header =>
      let capacity := min src.length config.bufferSize
      let computed := frameChecksum (src.take header.payloadEnd)
      if header.payloadStart < headerSize ∨ capacity < header.payloadEnd then
        .error (.malformed header.length.toNat header.payloadStart capacity)
      else if ¬ header.interface.carriesData then
        .error (.unknownInterface header.interface.code)
      else if config.checksum ∧ computed ≠ header.checksum then
        .error (.checksumMismatch header.checksum computed)
      else .ok header

structure Frame where
  interface : Interface
  number : UInt8
  flags : Flags
  sequence : UInt16
  throttle : Throttle
  packetType : UInt8
  payload : Bytes
deriving DecidableEq, Repr, Inhabited

namespace Frame

def ofPayload (interface : Interface) (payload : Bytes) : Frame :=
  ⟨interface, 0, .none, 0, .off, 0, payload⟩

/-- Joins a header and the payload it describes. -/
def ofHeader (h : Header) (payload : Bytes) : Frame :=
  ⟨h.interface, h.number, h.flags, h.sequence, h.throttle, h.packetType, payload⟩

/-- The routing fields as a header template. -/
def header (f : Frame) : Header :=
  { Header.blank f.interface f.number with
    flags := f.flags, sequence := f.sequence, throttle := f.throttle, packetType := f.packetType }

def wireSize (config : FrameConfig) (f : Frame) : Nat := paddedSize config f.payload.length

def encode (config : FrameConfig) (f : Frame) (dst : Bytes) : Except FrameError Nat × Bytes :=
  encodeFrame config f.header f.payload dst

def decode (config : FrameConfig) (src : Bytes) : Except FrameError Frame :=
  (decodeHeader config src).map fun h => ofHeader h (h.payloadOf src)

end Frame
end SlaveLink
