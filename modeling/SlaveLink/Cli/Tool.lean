import SlaveLink.Cli.CapabilityReport
import SlaveLink.Cli.FrameReport
import SlaveLink.Cli.SimulationReport

/-! # The tool
Runs an invocation, given what the files it names hold. -/

namespace SlaveLink.Cli

/-- What files hold, or why they cannot be read. -/
abbrev Files := String → Except String Bytes

/-- How an invocation ends. -/
inductive Outcome where
  | finished (code : ExitCode) (output : String)
  | failed (f : Failure)
  /-- A simulation that goes on until it is interrupted. -/
  | endless (p : Plan) (s : Simulation)
  | crashed (why : Crash)
deriving DecidableEq, Repr

def toolName : String := "hostlink"
def toolVersion : String := "0.1.0"

/-- The files that an invocation reads. -/
def Invocation.files (i : Invocation) : List String :=
  match i.command with
  | .version _ => []
  | .decode a => i.config.toList ++ a.file.toList
  | _ => i.config.toList

def readText (files : Files) (path : String) : Except String String :=
  match files path with
  | .error why => .error why
  | .ok bytes =>
    match bytes.toText? with
    | some text => .ok text
    | none => .error "stream did not contain valid UTF-8"

/-- The settings in a file, or the defaults. -/
def loadConfig (files : Files) : Option String → Except Failure LinkConfig
  | none => .ok {}
  | some path =>
    match readText files path with
    | .error why =>
      .error (.ofLink "config" (.invalidConfig ("cannot read " ++ path ++ ": " ++ why)))
    | .ok text =>
      match LinkConfig.ofJson text with
      | .error e => .error (.ofLink "config" e)
      | .ok c => .ok c

/-- The bytes to decode, from a file or from the command line. -/
def decodeInput (files : Files) (a : DecodeArgs) : Except Failure Bytes :=
  match a.file with
  | some path =>
    match files path with
    | .error why => .error ⟨.failure, "read " ++ path ++ ": " ++ why⟩
    | .ok bytes => .ok bytes
  | none =>
    match Bytes.parseHex (a.hex.getD "") with
    | .error e => .error ⟨.usage, "invalid hex: " ++ e.message⟩
    | .ok bytes => .ok bytes

/-- How a simulation ends that came to an end, or why it did not. -/
def simulated (ending : Simulation → Outcome) :
    Except (Fault SimulationError) Simulation → Except Failure Outcome
  | .ok s => .ok (ending s)
  | .error (.error e) => .error (simulationFailure e)
  | .error (.crash why) => .ok (.crashed why)

def simulate (machine : Machine) (a : SimulateArgs) (format : OutputFormat)
    (config : LinkConfig) : Except Failure Outcome := do
  let config := a.apply config
  let p ← a.plan config
  if a.forever then simulated (.endless p) (Simulation.begin machine config)
  else
    simulated (fun s => .finished (simulationCode p s) ((simulationReport s).render format))
      (Simulation.run machine config p)

/-- The frame is written into a block of its own. -/
def caps (machine : Machine) (a : CapsArgs) (format : OutputFormat) (config : LinkConfig) :
    Except Failure Outcome := do
  let config := a.apply config
  match Heap.claim config.frame.blockSize machine.memory with
  | .error why => return .crashed why
  | .ok _ =>
    let r ← reportCapabilities config
    return .finished .success (r.render format)

def decode (files : Files) (a : DecodeArgs) (format : OutputFormat) (config : LinkConfig) :
    Except Failure Outcome := do
  let bytes ← decodeInput files a
  let i := Inspection.ofBytes (a.apply config).frame bytes
  return .finished (inspectionCode i) ((frameReport bytes.length i).render format)

/-- The version, and on demand what is known about the build. -/
def versionText (a : VersionArgs) : String :=
  let fields := [("name", toolName), ("version", toolVersion), ("target", "unknown"),
    ("profile", "unknown"), ("git_hash", "unknown"), ("features", "spi=true, cli=true")]
  if a.extended then String.join (fields.map fun (field, value) => field ++ ": " ++ value ++ "\n")
  else toolName ++ " " ++ toolVersion ++ "\n"

/-- Runs an invocation. `format` is used where the invocation names none. -/
def Invocation.run (machine : Machine) (files : Files) (format : OutputFormat) (i : Invocation) :
    Outcome :=
  let format := i.format.getD format
  let configured (command : LinkConfig → Except Failure Outcome) : Outcome :=
    match (loadConfig files i.config).bind command with
    | .ok outcome => outcome
    | .error f => .failed f
  match i.command with
  | .simulate a => configured (simulate machine a format)
  | .caps a => configured (caps machine a format)
  | .decode a => configured (decode files a format)
  | .version a => .finished .success (versionText a)

end SlaveLink.Cli
