/-!
# Options of the command line

`Arguments.ofList` reads arguments from left to right. The value of an option is only looked at when
the next option begins or the arguments end, so of two mistakes the one that is noticed first is
reported.
-/

namespace MidiPatch.CommandLine

inductive Opt
  | config
  | logLevel
  | listPorts
  | monitor
  | help
  | version
  deriving DecidableEq, Repr

namespace Opt

def all : List Opt := [.config, .logLevel, .listPorts, .monitor, .help, .version]

def name : Opt → String
  | .config => "config"
  | .logLevel => "log-level"
  | .listPorts => "list-ports"
  | .monitor => "monitor"
  | .help => "help"
  | .version => "version"

def letter? : Opt → Option Char
  | .config => some 'c'
  | .logLevel => some 'l'
  | .listPorts => none
  | .monitor => none
  | .help => some 'h'
  | .version => some 'V'

/-- What the value of an option is called, if it takes one. -/
def valueName? : Opt → Option String
  | .config => some "CONFIG"
  | .logLevel => some "LOG_LEVEL"
  | _ => none

def takesValue (o : Opt) : Bool := o.valueName?.isSome

def ofName? (name : String) : Option Opt := all.find? (·.name = name)

def ofLetter? (c : Char) : Option Opt := all.find? (·.letter? = some c)

/-- Whether an option says what the program does, and is no question about the program itself. -/
def isOwn (o : Opt) : Bool := o != .help && o != .version

end Opt

inductive Stop
  | help
  | version
  | missingValue (o : Opt)
  | repeated (o : Opt)
  | unneededValue (o : Opt) (value : String) (given : List Opt)
  /-- A long option that is not known, behind the given ones. -/
  | unknownName (name : String) (given : List Opt)
  | unknown (argument : String)
  deriving DecidableEq, Repr

structure Arguments where
  config : String := "bridge.yaml"
  logLevel : Option String := none
  listPorts : Bool := false
  monitor : Bool := false
  deriving DecidableEq, Repr

/-- Arguments partly read. -/
structure Parsing where
  given : List (Opt × String) := []
  /-- The last option, as long as it may still get its value or has not been looked at. -/
  pending : Option (Opt × Option String) := none

namespace Parsing

def givenOptions (p : Parsing) : List Opt := p.given.map (·.1)

/-- Takes an option, which must not have been given before. -/
def accept (p : Parsing) (o : Opt) (value : String) : Except Stop Parsing :=
  if p.givenOptions.contains o then .error (.repeated o)
  else .ok { p with given := p.given ++ [(o, value)] }

def settle (p : Parsing) : Except Stop Parsing :=
  match p.pending with
  | none => .ok p
  | some (o, none) => .error (.missingValue o)
  | some (o, some value) => { p with pending := none }.accept o value

/-- The options that count as given where a mistake is found. -/
def settledOptions (p : Parsing) : List Opt :=
  match p.settle with
  | .ok p => p.givenOptions
  | .error _ => p.givenOptions

def flag (p : Parsing) (o : Opt) : Except Stop Parsing := do
  let p ← p.settle
  match o with
  | .help => .error .help
  | .version => .error .version
  | _ => p.accept o ""

def valued (p : Parsing) (o : Opt) (attached : Option String) : Except Stop Parsing := do
  let p ← p.settle
  match attached with
  | some value => p.accept o value
  | none => .ok { p with pending := some (o, none) }

def long (p : Parsing) (cs : List Char) : Except Stop Parsing :=
  let name := String.ofList (cs.takeWhile (· ≠ '='))
  let attached :=
    match cs.dropWhile (· ≠ '=') with
    | [] => none
    | _ :: value => some (String.ofList value)
  match Opt.ofName? name with
  | none => .error (.unknownName name p.settledOptions)
  | some o =>
    if o.takesValue then p.valued o attached
    else
      match attached with
      | some value => .error (.unneededValue o value p.givenOptions)
      | none => p.flag o

/-- Letters from behind a dash. What follows the letter of an option with a value is that value. -/
def short (p : Parsing) : List Char → Except Stop Parsing
  | [] => .ok p
  | c :: rest =>
    match Opt.ofLetter? c with
    | none => .error (.unknown (String.ofList ['-', c]))
    | some o =>
      if o.takesValue then
        match rest with
        | [] => p.valued o none
        | '=' :: value => p.valued o (some (String.ofList value))
        | value => p.valued o (some (String.ofList value))
      else do (← p.flag o).short rest

/-- An argument that is no option: the value of the last one, if that still needs it. -/
def plain (p : Parsing) (s : String) : Except Stop Parsing :=
  match p.pending with
  | some (o, none) => .ok { p with pending := some (o, some s) }
  | _ => .error (.unknown s)

/-- The arguments from left to right. Two dashes end the options. -/
def arguments (p : Parsing) : List String → Except Stop Parsing
  | [] => p.settle
  | s :: rest =>
    match s.toList with
    | ['-', '-'] =>
      match rest with
      | [] => p.settle
      | s :: _ => .error (.unknown s)
    | '-' :: '-' :: cs => do (← p.long cs).arguments rest
    | '-' :: c :: cs => do (← p.short (c :: cs)).arguments rest
    | _ => do (← p.plain s).arguments rest

def value? (p : Parsing) (o : Opt) : Option String := p.given.lookup o

end Parsing

namespace Arguments

def ofList (args : List String) : Except Stop Arguments := do
  let p ← ({} : Parsing).arguments args
  let defaults : Arguments := {}
  .ok
    { config := (p.value? .config).getD defaults.config
      logLevel := p.value? .logLevel
      listPorts := (p.value? .listPorts).isSome
      monitor := (p.value? .monitor).isSome }

end Arguments

end MidiPatch.CommandLine
