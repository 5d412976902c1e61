import SlaveLink.Cli.Arguments
import SlaveLink.Config.Basic
import SlaveLink.Text.Blank
import SlaveLink.Text.Decimal

/-! # Invocations
What the tool can be asked for. Four options belong to every command and may stand before or after
its name; what stands after it counts first, then what stands before it, then the environment. -/

namespace SlaveLink.Cli

inductive OutputFormat where
  | json | table | pretty
deriving DecidableEq, Repr, Inhabited

inductive LogFormat where
  | text | json
deriving DecidableEq, Repr, Inhabited

inductive LogLevel where
  | off | error | warn | info | debug | trace
deriving DecidableEq, Repr, Inhabited

def OutputFormat.names : List (String × OutputFormat) :=
  [("json", .json), ("table", .table), ("pretty", .pretty)]

def LogFormat.names : List (String × LogFormat) := [("text", .text), ("json", .json)]

def LogLevel.names : List (String × LogLevel) :=
  [("off", .off), ("error", .error), ("warn", .warn), ("info", .info), ("debug", .debug),
    ("trace", .trace)]

/-- The deassert policies as they are named on a command line. -/
def policyNames : List (String × DeassertPolicy) :=
  [("transaction-end", .onTransactionEnd), ("chip-select", .onChipSelect)]

/-- Options that belong to every command, as far as they were given. -/
structure Globals where
  config : Option String := none
  format : Option OutputFormat := none
  logFormat : Option LogFormat := none
  logLevel : Option LogLevel := none
deriving DecidableEq, Repr, Inhabited

structure SimulateArgs where
  frames : Nat := 16
  hostFrames : Nat := 8
  /-- As far as they were given. -/
  interfaces : List Interface := []
  payloadSize : Nat := 64
  timeout : String := "1s"
  /-- Go on until interrupted. -/
  forever : Bool := false
  policy : Option DeassertPolicy := none
  activeLow : Bool := false
  noChecksum : Bool := false
deriving DecidableEq, Repr, Inhabited

structure CapsArgs where
  chipId : Option UInt8 := none
  noBluetooth : Bool := false
  noChecksum : Bool := false
deriving DecidableEq, Repr, Inhabited

structure DecodeArgs where
  hex : Option String := none
  file : Option String := none
  noChecksum : Bool := false
deriving DecidableEq, Repr, Inhabited

structure VersionArgs where
  extended : Bool := false
deriving DecidableEq, Repr, Inhabited

inductive Command where
  | simulate (args : SimulateArgs)
  | caps (args : CapsArgs)
  | decode (args : DecodeArgs)
  | version (args : VersionArgs)
deriving DecidableEq, Repr, Inhabited

/-- Variables of the environment that stand in for options. -/
structure Variables where
  config : Option String := none
  logLevel : Option String := none
deriving DecidableEq, Repr, Inhabited

structure Invocation where
  command : Command
  config : Option String
  format : Option OutputFormat
  logFormat : LogFormat
  logLevel : LogLevel
deriving DecidableEq, Repr, Inhabited

/-! Values -/

def readName {α : Type} (names : List (String × α)) (text : String) : Except Usage α :=
  match names.lookup text with
  | some x => .ok x
  | none => .error .invalidValue

def readPath (text : String) : Except Usage String :=
  if text.isEmpty then .error .invalidValue else .ok text

def readCount (text : String) : Except Usage Nat :=
  match Text.natural? maxWord64 text with
  | some n => .ok n
  | none => .error .unreadableValue

def readByte (text : String) : Except Usage UInt8 :=
  match Text.byte? text with
  | some b => .ok b
  | none => .error .unreadableValue

/-- Only interfaces that carry data can be named. -/
def readInterface (text : String) : Except Usage Interface :=
  match Interface.ofLabel? (String.ofList (Text.trim text.toList)) with
  | some i => if i.carriesData then .ok i else .error .unreadableValue
  | none => .error .unreadableValue

/-! Grammars -/

def globalOptions : List (Opt Globals) :=
  [.value "config" readPath fun path g => { g with config := some path },
    .value "format" (readName OutputFormat.names) fun x g => { g with format := some x },
    .value "log-format" (readName LogFormat.names) fun x g => { g with logFormat := some x },
    .value "log-level" (readName LogLevel.names) fun x g => { g with logLevel := some x }]

/-- The grammar of a command, with the options that belong to every command. -/
def commandGrammar {α : Type} (options : List (Opt α)) (positional : Option (Opt α)) :
    Grammar (Globals × α) where
  options := options.map (·.onPart Prod.snd fun a s => (s.1, a)) ++
    globalOptions.map (·.onPart Prod.fst fun g s => (g, s.2))
  positional := positional.map (·.onPart Prod.snd fun a s => (s.1, a))

def topGrammar : Grammar Globals where
  options := globalOptions
  subcommands := ["simulate", "caps", "decode", "version", "help"]
  hasVersion := true

def simulateOptions : List (Opt SimulateArgs) :=
  [.value "frames" readCount fun n a => { a with frames := n },
    .value "host-frames" readCount fun n a => { a with hostFrames := n },
    .list "interfaces" readInterface fun is a => { a with interfaces := a.interfaces ++ is },
    .value "payload-size" readCount fun n a => { a with payloadSize := n },
    .value "timeout" .ok fun text a => { a with timeout := text },
    .flag "forever" fun a => { a with forever := true },
    .value "policy" (readName policyNames) fun p a => { a with policy := some p },
    .flag "active-low" fun a => { a with activeLow := true },
    .flag "no-checksum" fun a => { a with noChecksum := true }]

def capsOptions : List (Opt CapsArgs) :=
  [.value "chip-id" readByte fun b a => { a with chipId := some b },
    .flag "no-bluetooth" fun a => { a with noBluetooth := true },
    .flag "no-checksum" fun a => { a with noChecksum := true }]

def decodeOptions : List (Opt DecodeArgs) :=
  [.value "file" readPath fun path a => { a with file := some path },
    .flag "no-checksum" fun a => { a with noChecksum := true }]

def hexArgument : Opt DecodeArgs := .value "HEX" .ok fun text a => { a with hex := some text }

def versionOptions : List (Opt VersionArgs) :=
  [.flag "extended" fun a => { a with extended := true }]

namespace SimulateArgs

def cycle (a : SimulateArgs) : List Interface :=
  if a.interfaces.isEmpty then [.station, .hci, .serial] else a.interfaces

end SimulateArgs

/-- Exactly one source of bytes is given. -/
def DecodeArgs.check (a : DecodeArgs) : Except Usage Unit :=
  match a.hex, a.file with
  | some _, some _ => .error .argumentConflict
  | none, none => .error .missingArgument
  | _, _ => .ok ()

/-! Reading a command line -/

/-- Variables count where the option is not given, and must then be valid. -/
def Globals.checkVariables (v : Variables) (g : Globals) : Except Usage Unit :=
  let bad {α : Type} (given : Option α) (read : String → Except Usage α) (value : Option String) :
      Bool := given.isNone && value.any fun text => !(read text).isOk
  if bad g.config readPath v.config || bad g.logLevel (readName LogLevel.names) v.logLevel then
    .error .invalidValue
  else .ok ()

def readCommand {α : Type} (g : Grammar (Globals × α)) (initial : α) (v : Variables)
    (args : List String) : Except Usage (Globals × α) := do
  let (p, _) ← g.scan false { settings := ({}, initial) } args
  let p ← p.flush
  p.settings.1.checkVariables v
  return p.settings

/-- What follows the word `help` must name a command. -/
def readHelp : List String → Usage
  | [] => .help
  | [name] => if topGrammar.subcommands.contains name then .help else .invalidSubcommand
  | _ => .invalidSubcommand

def readNamed (name : String) (v : Variables) (args : List String) :
    Except Usage (Globals × Command) := do
  match name with
  | "simulate" =>
    let (g, a) ← readCommand (commandGrammar simulateOptions none) {} v args
    return (g, .simulate a)
  | "caps" =>
    let (g, a) ← readCommand (commandGrammar capsOptions none) {} v args
    return (g, .caps a)
  | "decode" =>
    let (g, a) ← readCommand (commandGrammar decodeOptions (some hexArgument)) {} v args
    a.check
    return (g, .decode a)
  | "version" =>
    let (g, a) ← readCommand (commandGrammar versionOptions none) {} v args
    return (g, .version a)
  | _ => throw (readHelp args)

/-- Joins what was given after and before the name of the command with the environment. -/
def Invocation.join (command : Command) (after before : Globals) (v : Variables) : Invocation where
  command := command
  config := after.config <|> before.config <|> v.config
  format := after.format <|> before.format
  logFormat := (after.logFormat <|> before.logFormat).getD .text
  logLevel := (after.logLevel <|> before.logLevel <|>
    v.logLevel.bind (LogLevel.names.lookup ·)).getD .warn

def Invocation.read (v : Variables) (args : List String) : Except Usage Invocation := do
  let (p, named) ← topGrammar.scan false { settings := {} } args
  match named with
  | none =>
    let p ← p.flush
    p.settings.checkVariables v
    throw (if p.given.isEmpty ∧ v.config.isNone ∧ v.logLevel.isNone then .helpOnMissing
      else .missingSubcommand)
  | some (name, rest) =>
    let (after, command) ← readNamed name v rest
    let p ← p.flush
    p.settings.checkVariables v
    return .join command after p.settings v

end SlaveLink.Cli
