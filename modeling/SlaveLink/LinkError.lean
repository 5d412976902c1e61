import SlaveLink.DeviceError
import SlaveLink.Frame.Error
import SlaveLink.Interface
import SlaveLink.Json.Scan

/-! # Link errors
Why the link refuses a request. -/

namespace SlaveLink

inductive LinkError where
  | device (e : DeviceError)
  | frame (e : FrameError)
  | queueFull (p : Priority)
  /-- The link is draining or torn down. -/
  | inactive
  | alreadyStarted
  /-- Pools or queues could not be created. -/
  | outOfMemory (reason : String)
  | invalidConfig (reason : String)
  | timeout (after : Duration)
  | emptyPayload
  | json (e : Json.ReadError)
deriving DecidableEq, Repr

namespace LinkError

def message : LinkError → String
  | .device e => "transport error: " ++ e.message
  | .frame e => "frame error: " ++ e.message
  | .queueFull p => p.name ++ " queue full"
  | .inactive => "transport inactive"
  | .alreadyStarted => "transport already started"
  | .outOfMemory reason => "out of memory at init: " ++ reason
  | .invalidConfig reason => "invalid config: " ++ reason
  | .timeout after => "timed out after " ++ after.text
  | .emptyPayload => "empty payload"
  | .json _ => "json error"

end LinkError
end SlaveLink
