import SlaveLink.Cli.Tool

/-! # The program
Reads the command line, the environment and the files it names, and prints what the tool answers. -/

namespace SlaveLink.Cli

/-- What is printed in place of a command's output. -/
def usageText : Usage → String
  | .help | .helpOnMissing =>
    "Usage: " ++ toolName ++ " [OPTIONS] <simulate|caps|decode|version|help>\n"
  | .version => toolName ++ " " ++ toolVersion ++ "\n"
  | .missingSubcommand => "error: a subcommand is required\n"
  | .invalidSubcommand => "error: unrecognized subcommand\n"
  | .unknownArgument => "error: unexpected argument\n"
  | .invalidValue => "error: a value is missing or not possible\n"
  | .unreadableValue => "error: a value cannot be read\n"
  | .tooManyValues => "error: a flag takes no value\n"
  | .argumentConflict => "error: arguments exclude each other\n"
  | .missingArgument => "error: a required argument is missing\n"

/-- Why a file cannot be read, in the system's words. -/
def fileError : IO.Error → String
  | .noFileOrDirectory _ _ _ => "No such file or directory (os error 2)"
  | .permissionDenied _ _ _ => "Permission denied (os error 13)"
  | .inappropriateType _ _ _ => "Is a directory (os error 21)"
  | e => toString e

def readFile (path : String) : IO (Except String Bytes) := do
  match ← (IO.FS.readBinFile path).toBaseIO with
  | .ok content => return .ok content.toList
  | .error e => return .error (fileError e)

def readFiles (paths : List String) : IO Files := do
  let contents ← paths.mapM fun path => do return (path, ← readFile path)
  return fun path => (contents.lookup path).getD (.error "not read")

def fail (f : Failure) : IO UInt32 := do
  IO.eprintln ("error: " ++ f.message)
  return UInt32.ofNat f.code.value

def crash (why : Crash) : IO UInt32 := do
  IO.eprintln why.message
  return UInt32.ofNat why.exitCode

/-- Exchanges blocks until the program is interrupted. -/
partial def exchangeOn (p : Plan) (s : Simulation) : IO UInt32 := do
  match s.round {} p with
  | .ok s => exchangeOn p s
  | .error (.error e) => fail (simulationFailure e)
  | .error (.crash why) => crash why

def runTool (args : List String) : IO UInt32 := do
  let environment : Variables :=
    ⟨← IO.getEnv "HOSTLINK_CONFIG", ← IO.getEnv "HOSTLINK_LOG_LEVEL"⟩
  match Invocation.read environment args with
  | .error usage =>
    if usage.exitCode = 0 then IO.print (usageText usage) else IO.eprint (usageText usage)
    return UInt32.ofNat usage.exitCode
  | .ok i =>
    let files ← readFiles i.files
    let format := if ← (← IO.getStdout).isTty then OutputFormat.table else .json
    match i.run {} files format with
    | .finished code output => do
      IO.print output
      return UInt32.ofNat code.value
    | .failed f => fail f
    | .endless p s => exchangeOn p s
    | .crashed why => crash why

end SlaveLink.Cli

def main (args : List String) : IO UInt32 := SlaveLink.Cli.runTool args
