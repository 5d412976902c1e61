import SlaveLink.Bytes.Hex
import SlaveLink.Cli.Exit
import SlaveLink.Cli.Report
import SlaveLink.Config.Reader

/-! # Capability reports
The record that a slave advertises at startup, and the frame that carries it. -/

namespace SlaveLink.Cli

def CapsArgs.apply (a : CapsArgs) (c : LinkConfig) : LinkConfig :=
  { c with
    frame := { c.frame with checksum := c.frame.checksum && !a.noChecksum }
    capabilities := { c.capabilities with
      chipId := a.chipId.getD c.capabilities.chipId
      bluetooth := c.capabilities.bluetooth && !a.noBluetooth } }

def capabilityReport (c : Capabilities) (frame : Bytes) : Report where
  schema := "hostlink/cli/v1/capabilities"
  members := c.members ++
    [("capability_names", .array (c.featureNames.map .text)),
      ("frame_len", .number frame.length), ("frame_hex", .text frame.hex)]
  rows :=
    [("chip_id", Text.hexLiteral 2 c.chipId.toNat),
      ("capabilities", Text.hexLiteral 2 c.bits.toNat ++ " [" ++
        ",".intercalate c.featureNames ++ "]")] ++
    (c.extended.map fun w => ("extended_capabilities", Text.hexLiteral 8 w.toNat)).toList ++
    [("raw_tp_test", toString c.rawThroughput), ("rx_queue_size", toString c.rxQueueSize),
      ("tx_queue_size", toString c.txQueueSize), ("firmware_version", c.firmware.text),
      ("frame_len", toString frame.length), ("frame_hex", frame.hex)]

def reportCapabilities (config : LinkConfig) : Except Failure Report :=
  let c := config.slaveCapabilities
  match c.toFrame.encode config.frame (Bytes.zeros config.frame.blockSize) with
  | (.ok size, block) => .ok (capabilityReport c (block.take size))
  | (.error e, _) => .error (.ofFrame "encode capability frame" e)

end SlaveLink.Cli
