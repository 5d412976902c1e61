import SlaveLink.Capability.Event
import SlaveLink.Bytes.Preview

/-! # Inspecting bytes
What a string of bytes is on the wire: a frame, a dummy, or neither. -/

namespace SlaveLink

/-- The flags that have names, lowest bit first. -/
def Flags.named : List (Flags × String) :=
  [(.moreFragment, "more_fragment"), (.wakeup, "wakeup"),
    (.powerSaveStarted, "power_save_started"), (.powerSaveStopped, "power_save_stopped")]

def Flags.names (flags : Flags) : List String :=
  (named.filter fun f => flags.contains f.1).map (·.2)

inductive Inspection where
  /-- A frame, and what it advertises if it is a startup event that can be read. -/
  | frame (header : Header) (payload : Bytes) (capabilities : Option Capabilities)
  | dummy (flags : Flags)
  | rejected (e : FrameError)
deriving DecidableEq, Repr

namespace Inspection

def isEvent (h : Header) : Bool :=
  h.interface = .internal && h.packetType == eventPacketType

def capabilities? (h : Header) (payload : Bytes) : Option Capabilities :=
  if isEvent h then (Capabilities.ofEvent payload).toOption else none

def ofBytes (config : FrameConfig) (bytes : Bytes) : Inspection :=
  match decodeHeader config bytes with
  | .ok h =>
    let payload := h.payloadOf bytes
    .frame h payload (capabilities? h payload)
  | .error .dummyFrame => .dummy (peekFlags bytes)
  | .error e => .rejected e

def verdict : Inspection → String
  | .frame _ _ _ => "frame"
  | .dummy _ => "dummy"
  | .rejected _ => "rejected"

/-- Why there is no frame, as far as there is something to say. -/
def reason? : Inspection → Option String
  | .frame _ _ _ => none
  | .dummy flags =>
    if flags.names.isEmpty then none else some ("flags: " ++ ",".intercalate flags.names)
  | .rejected e => some e.message

end Inspection
end SlaveLink
