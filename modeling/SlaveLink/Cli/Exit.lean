import SlaveLink.LinkError

/-! # Exit codes
What a command tells its caller when it ends, and how each error maps to it. -/

namespace SlaveLink.Cli

inductive ExitCode where
  | success
  | failure
  /-- A pool or the bus let the command down. -/
  | transport
  /-- Bytes did not make a frame. -/
  | dataInvalid
  /-- An argument made no sense. -/
  | usage
  | config
  | timeout
  | internal
deriving DecidableEq, Repr, Inhabited

def ExitCode.value : ExitCode → Nat
  | .success => 0
  | .failure => 1
  | .transport => 3
  | .dataInvalid => 60
  | .usage => 64
  | .config => 78
  | .timeout => 124
  | .internal => 125

structure Failure where
  code : ExitCode
  message : String
deriving DecidableEq, Repr

namespace Failure

def withContext (context : String) (code : ExitCode) (message : String) : Failure :=
  ⟨code, context ++ ": " ++ message⟩

def ofDevice (context : String) (e : DeviceError) : Failure :=
  match e with
  | .timeout _ => withContext context .timeout e.message
  | .invalidConfig _ => withContext context .config e.message
  | .allocationFailed _ _ => withContext context .internal e.message
  | .poolExhausted _ | .busNotReady | .transferFailed _ | .shutdown =>
    withContext context .transport e.message

def ofFrame (context : String) (e : FrameError) : Failure :=
  withContext context .dataInvalid e.message

/-- A wrapped error counts as what it wraps. -/
def ofLink (context : String) (e : LinkError) : Failure :=
  match e with
  | .device e => ofDevice context e
  | .frame e => ofFrame context e
  | .invalidConfig _ | .json _ => withContext context .config e.message
  | .timeout _ => withContext context .timeout e.message
  | .emptyPayload => withContext context .usage e.message
  | .queueFull _ | .inactive => withContext context .failure e.message
  | .alreadyStarted | .outOfMemory _ => withContext context .internal e.message

end Failure
end SlaveLink.Cli
