import SlaveLink.Duration

/-! # Device errors
What can go wrong at a pool, at the bus or at a line. -/

namespace SlaveLink

inductive DeviceError where
  /-- Every block of the pool is handed out. -/
  | poolExhausted (pool : String)
  | allocationFailed (pool : String) (blocks : Nat)
  /-- No transaction is loaded, or the driver queue has no room. -/
  | busNotReady
  | transferFailed (reason : String)
  /-- A bounded wait expired. -/
  | timeout (after : Duration)
  | shutdown
  | invalidConfig (reason : String)
deriving DecidableEq, Repr

namespace DeviceError

def message : DeviceError → String
  | .poolExhausted pool => pool ++ " pool exhausted"
  | .allocationFailed pool blocks => s!"failed to allocate {blocks} blocks for {pool} pool"
  | .busNotReady => "bus not ready for a transfer"
  | .transferFailed reason => "bus transaction failed: " ++ reason
  | .timeout after => "timed out after " ++ after.text
  | .shutdown => "transport shut down"
  | .invalidConfig reason => "invalid configuration: " ++ reason

end DeviceError
end SlaveLink
