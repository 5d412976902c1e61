import SlaveLink.Cli.Exit
import SlaveLink.Cli.Report
import SlaveLink.Config.Reader
import SlaveLink.Inspection

/-! # Frame reports
What a string of bytes is on the wire, and what it says. -/

namespace SlaveLink.Cli

def DecodeArgs.apply (a : DecodeArgs) (c : LinkConfig) : LinkConfig :=
  { c with frame := { c.frame with checksum := c.frame.checksum && !a.noChecksum } }

def headerJson (h : Header) (payload : Bytes) : Json :=
  .object [("if_type", .text h.interface.name), ("if_num", .number h.number.toNat),
    ("priority", .text h.interface.priority.name), ("flags", .array (h.flags.names.map .text)),
    ("len", .number h.length.toNat), ("offset", .number h.offset.toNat),
    ("checksum", .number h.checksum.toNat), ("seq_num", .number h.sequence.toNat),
    ("throttle", .text h.throttle.name), ("pkt_type", .number h.packetType.toNat),
    ("payload", .text payload.preview)]

def headerRows (h : Header) (payload : Bytes) : List (String × String) :=
  [("if_type", h.interface.label), ("if_num", toString h.number),
    ("priority", h.interface.priority.name), ("flags", ",".intercalate h.flags.names),
    ("len", toString h.length), ("offset", toString h.offset),
    ("checksum", Text.hexLiteral 4 h.checksum.toNat), ("seq_num", toString h.sequence),
    ("throttle", h.throttle.name), ("pkt_type", Text.hexLiteral 2 h.packetType.toNat),
    ("payload", payload.preview)]

def capabilityRows (c : Capabilities) : List (String × String) :=
  [("chip_id", Text.hexLiteral 2 c.chipId.toNat),
    ("capabilities", Text.hexLiteral 2 c.bits.toNat), ("firmware_version", c.firmware.text)]

/-- The members and rows that say more about a frame. -/
def frameDetails : Inspection → List (String × Json) × List (String × String)
  | .frame h payload capabilities =>
    (("header", headerJson h payload) ::
        (capabilities.map fun c => ("capabilities", c.toJson)).toList,
      headerRows h payload ++ (capabilities.map capabilityRows).getD [])
  | _ => ([], [])

def frameReport (size : Nat) (i : Inspection) : Report where
  schema := "hostlink/cli/v1/frame-decode"
  members := [("verdict", .text i.verdict), ("wire_len", .number size)] ++
    (i.reason?.map fun reason => ("reason", Json.text reason)).toList ++ (frameDetails i).1
  rows := [("verdict", i.verdict), ("wire_len", toString size)] ++
    (i.reason?.map fun reason => ("reason", reason)).toList ++ (frameDetails i).2

/-- Bytes that are rejected do not make a frame. -/
def inspectionCode : Inspection → ExitCode
  | .rejected _ => .dataInvalid
  | _ => .success

end SlaveLink.Cli
