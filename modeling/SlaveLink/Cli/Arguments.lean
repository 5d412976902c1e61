/-! # Command line arguments
One level of a command line: options with two dashes, at most one positional argument, and the names
of subcommands. The value of an option is either attached with an equals sign or the next argument.
An option's value is stored only when the next option, positional argument or the end of the line is
reached. -/

namespace SlaveLink.Cli

/-- Why a command line is not accepted, or what it asks for in place of a command. -/
inductive Usage where
  | help
  | version
  /-- Nothing was given at all. -/
  | helpOnMissing
  | missingSubcommand
  | invalidSubcommand
  | unknownArgument
  /-- A value is missing or not one of those that are possible. -/
  | invalidValue
  /-- A value cannot be read. -/
  | unreadableValue
  /-- A flag was given a value. -/
  | tooManyValues
  /-- Two arguments exclude each other, or one was given twice. -/
  | argumentConflict
  | missingArgument
deriving DecidableEq, Repr

def Usage.exitCode : Usage → Nat
  | .help | .version => 0
  | _ => 2

/-- An option that stores what it is given in settings of type `σ`. -/
structure Opt (σ : Type) where
  name : String
  takesValue : Bool
  repeatable : Bool
  /-- A flag stores the empty text. -/
  store : String → σ → Except Usage σ

namespace Opt

variable {σ τ : Type}

def flag (name : String) (set : σ → σ) : Opt σ := ⟨name, false, false, fun _ s => .ok (set s)⟩

/-- An option with one value. -/
def value {α : Type} (name : String) (read : String → Except Usage α) (set : α → σ → σ) : Opt σ :=
  ⟨name, true, false, fun text s => (read text).map fun x => set x s⟩

/-- An option that may be given many times, each time with values between commas. -/
def list {α : Type} (name : String) (read : String → Except Usage α) (append : List α → σ → σ) :
    Opt σ :=
  ⟨name, true, true, fun text s => ((text.splitOn ",").mapM read).map fun xs => append xs s⟩

/-- The same option for larger settings. -/
def onPart (get : τ → σ) (put : σ → τ → τ) (o : Opt σ) : Opt τ :=
  { name := o.name, takesValue := o.takesValue, repeatable := o.repeatable
    store := fun text t => (o.store text (get t)).map fun s => put s t }

end Opt

/-- What one level of a command line accepts. -/
structure Grammar (σ : Type) where
  options : List (Opt σ)
  positional : Option (Opt σ) := none
  subcommands : List String := []
  /-- Whether the level answers for the version. -/
  hasVersion : Bool := false

/-- What an argument looks like. -/
inductive Shape where
  /-- Two dashes alone: all that follows is positional. -/
  | escape
  | long (name : String) (value : Option String)
  | short (letter : Char)
  | plain
deriving DecidableEq, Repr

def Shape.of (arg : String) : Shape :=
  match arg.toList with
  | ['-', '-'] => .escape
  | '-' :: '-' :: cs =>
    let name := String.ofList (cs.takeWhile (· != '='))
    match cs.dropWhile (· != '=') with
    | _ :: value => .long name (some (String.ofList value))
    | [] => .long name none
  | '-' :: c :: _ => .short c
  | _ => .plain

/-- How far a level has been read. -/
structure Progress (σ : Type) where
  settings : σ
  /-- The names of the options stored so far. -/
  given : List String := []
  /-- An option that is not stored yet, and its value once that has been seen. -/
  pending : Option (Opt σ × Option String) := none
  /-- The positional argument has been seen. -/
  isPlaced : Bool := false

namespace Progress

variable {σ : Type}

/-- An option waits for the next argument to be its value. -/
def isOpen (p : Progress σ) : Bool := p.pending matches some (_, none)

def store (o : Opt σ) (text : String) (p : Progress σ) : Except Usage (Progress σ) :=
  if p.given.contains o.name ∧ ¬ o.repeatable then .error .argumentConflict
  else (o.store text p.settings).map fun settings =>
    { p with settings, given := o.name :: p.given }

def flush (p : Progress σ) : Except Usage (Progress σ) :=
  match p.pending with
  | none => .ok p
  | some (_, none) => .error .invalidValue
  | some (o, some text) => { p with pending := none }.store o text

/-- Flushes and then answers for something other than a command. -/
def leave (answer : Usage) (p : Progress σ) : Usage :=
  match p.flush with
  | .error e => e
  | .ok _ => answer

end Progress

namespace Grammar

variable {σ : Type}

/-- What a built-in option answers for. -/
def builtIn? (g : Grammar σ) (name : String) : Option Usage :=
  if name = "help" then some .help
  else if name = "version" ∧ g.hasVersion then some .version
  else none

def long (g : Grammar σ) (name : String) (value : Option String) (p : Progress σ) :
    Except Usage (Progress σ) :=
  match g.builtIn? name, g.options.find? (·.name == name), value with
  | some answer, _, none => .error (p.leave answer)
  | some _, _, some _ => .error .tooManyValues
  | none, none, _ => .error .unknownArgument
  | none, some o, some text =>
    if o.takesValue then p.flush.bind (·.store o text) else .error .tooManyValues
  | none, some o, none =>
    p.flush.bind fun p =>
      if o.takesValue then .ok { p with pending := some (o, none) } else p.store o ""

/-- Letters only ask for help or for the version. -/
def short (g : Grammar σ) (letter : Char) (p : Progress σ) : Usage :=
  if letter = 'h' then p.leave .help
  else if letter = 'V' ∧ g.hasVersion then p.leave .version
  else .unknownArgument

def place (g : Grammar σ) (trailing : Bool) (arg : String) (p : Progress σ) :
    Except Usage (Progress σ) :=
  match g.positional, p.isPlaced with
  | some o, false =>
    p.flush.map fun p => { p with pending := some (o, some arg), isPlaced := true }
  | _, _ =>
    if g.subcommands.isEmpty ∨ (trailing ∧ g.subcommands.contains arg) then
      .error .unknownArgument
    else .error .invalidSubcommand

/-- Reads arguments up to the end or to a subcommand, which is returned with what follows it.
`trailing` tells that two dashes alone have been seen. -/
def scan (g : Grammar σ) (trailing : Bool) (p : Progress σ) :
    List String → Except Usage (Progress σ × Option (String × List String))
  | [] => .ok (p, none)
  | arg :: rest =>
    if trailing then (g.place true arg p).bind fun p => g.scan true p rest
    else if !p.isOpen ∧ g.subcommands.contains arg then .ok (p, some (arg, rest))
    else match Shape.of arg, p.pending with
      | .escape, _ => g.scan true p rest
      | .long name value, _ => (g.long name value p).bind fun p => g.scan false p rest
      | .short letter, _ => .error (g.short letter p)
      | .plain, some (o, none) => g.scan false { p with pending := some (o, some arg) } rest
      | .plain, _ => (g.place false arg p).bind fun p => g.scan false p rest

end Grammar
end SlaveLink.Cli
