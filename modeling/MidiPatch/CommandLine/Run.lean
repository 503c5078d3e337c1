import MidiPatch.CommandLine.Usage
import MidiPatch.Environment.File
import MidiPatch.Host
import MidiPatch.Log.Filter
import MidiPatch.Patchbay.Assembly
import MidiPatch.Setup.File

/-!
# Running the program

`run` says what the program prints and how it ends, from the arguments, the environment and what is
in files. Without MIDI support it ends where the first port of the host is to be opened.
-/

namespace MidiPatch.CommandLine

open Log

/-- What the program is started with. -/
structure Surroundings where
  args : List String
  environment : Environment
  /-- What reading a file gives. -/
  contents : String → Except Folder.Error String
  /-- The time that log lines begin with. -/
  time : String
  terminal : Bool := false

structure Outcome where
  code : Nat
  output : String := ""
  errors : String := ""
  deriving DecidableEq, Repr

/-! ### Failures -/

structure Failure where
  message : String
  cause : Option String := none
  deriving DecidableEq, Repr

/-- Indents the lines after the first. -/
def indentLines (s : String) : String := String.intercalate "\n    " (s.splitOn "\n")

def Failure.text (f : Failure) : String :=
  let cause := f.cause.map fun c => "\n\nCaused by:\n    " ++ indentLines c
  "Error: " ++ f.message ++ cause.getD "" ++ "\n"

/-! ### Opening ports -/

def openOutput (p : Setup.Port) : Except Failure (Option Empty) :=
  match p.output with
  | none => .ok none
  | some pattern =>
    match Host.openOutput pattern with
    | .ok output => .ok (some output)
    | .error e => .error ⟨s!"Failed to open output for port '{p.name}'", some e.message⟩

def openInput (pattern : String) (_producer : Producer) : Except LinkError Empty :=
  Host.openInput pattern

/-! ### Log -/

def programTarget : String := "midi_bridge"

def patchbayTarget : String := "midi_bridge::bridge"

def info (text : String) : Entry := { level := .info, target := programTarget, text }

def portEntries {ι ο η : Type} (bay : Patchbay ι ο η) : List Entry :=
  bay.ports.zipIdx.map fun (p, i) =>
    let id : PortId := { number := i.toUInt8 }
    { level := .debug, target := patchbayTarget, text := s!"Port added: {p.name} ({id.text})" }

def routeEntries (routes : List Setup.Route) : List Entry :=
  routes.map fun r => { level := .info, target := patchbayTarget, text := s!"Route: {r.text}" }

/-! ### Colors -/

/-- Whether a variable asks for colors in any case. -/
def forcesColor (e : Environment) : Bool := (e.get? "CLICOLOR_FORCE").any (· ≠ "0")

/-- Whether a variable has a value that is not empty. -/
def isFilled (e : Environment) (name : String) : Bool := (e.get? name).any (!·.isEmpty)

def listingColor (e : Environment) (terminal : Bool) : Bool :=
  if forcesColor e then true
  else if (e.get? "NO_COLOR").isSome then false
  else terminal && (e.get? "CLICOLOR").all (· ≠ "0")

def usageColor (e : Environment) (terminal : Bool) : Bool :=
  !isFilled e "NO_COLOR" && (forcesColor e || (terminal && (e.get? "CLICOLOR").all (· ≠ "0")))

def logColor (e : Environment) : Bool := !isFilled e "NO_COLOR"

/-! ### The run -/

def ofBuildError : Patchbay.BuildError Failure → Failure
  | .patch e => { message := e.message }
  | .output f => f

def ofConnectError : Patchbay.ConnectError LinkError → Failure
  | .missing name => { message := s!"Port '{name}' missing from bridge" }
  | .patch e => { message := e.message }
  | .input name e => ⟨s!"Failed to open input for port '{name}'", some e.message⟩

/-- Builds the patchbay of a setup and opens its inputs: what is logged, and what fails. -/
def start (s : Setup) : List Entry × Option Failure :=
  let new : Patchbay Empty Empty Empty := .new s.settings
  let (bay, stopped) := new.addSetupPorts openOutput s.ports
  match stopped with
  | some e => (portEntries bay, some (ofBuildError e))
  | none =>
    match bay.addSetupRoutes s.routes with
    | .error e => (portEntries bay, some (ofBuildError (.patch e)))
    | .ok bay =>
      let entries := portEntries bay ++ routeEntries s.routes
      match bay.connectInputs openInput s.ports with
      | .error e => (entries, some (ofConnectError e))
      | .ok _ => (entries, none)

/-- Loads the setup and starts it: what is logged, and what fails. -/
def loadAndStart (s : Surroundings) (path : String) : List Entry × Option Failure :=
  let greeting :=
    [info s!"Starting {programName} v{programVersion}...", info s!"Configuration file: {path}"]
  match Setup.ofFile path (s.contents path) with
  | .error e => (greeting, some { message := e.message, cause := some e.causeMessage })
  | .ok s =>
    let loaded :=
      info s!"Configuration loaded: {s.ports.length} ports, {s.routes.length} routes"
    let (entries, failure) := start s
    (greeting ++ loaded :: entries, failure)

def environmentFile : String := ".env"

def fullEnvironment (s : Surroundings) : Environment :=
  match s.contents environmentFile with
  | .ok text => s.environment.readFile text
  | .error _ => s.environment

/--
The log filter, and what is said about it. A variable goes before the log level if it is sound.
-/
def chooseFilter (e : Environment) (level : String) : Log.Filter × List String :=
  match (e.get? "RUST_LOG").bind filter? with
  | some f => (f, [])
  | none => (soundFilter level, complaints level)

def perform (s : Surroundings) (e : Environment) (a : Arguments) : Outcome :=
  let level := (a.logLevel.or (e.get? "LOG_LEVEL")).getD "info"
  let (filter, remarks) := chooseFilter e level
  let remarks := String.join (remarks.map (· ++ "\n"))
  if a.listPorts then
    { code := 0, output := Host.listing (listingColor e s.terminal), errors := remarks }
  else
    let (entries, failure) := loadAndStart s a.config
    let shown := entries.filter (admits filter)
    { code := if failure.isSome then 1 else 0
      output := String.join (shown.map (·.line (logColor e) s.time))
      errors := remarks ++ ((failure.map Failure.text).getD "") }

def run (s : Surroundings) : Outcome :=
  let e := fullEnvironment s
  let color := usageColor e s.terminal
  match Arguments.ofList s.args with
  | .ok a => perform s e a
  | .error .help => { code := 0, output := helpText color ((e.get? "LOG_LEVEL").getD "") }
  | .error .version => { code := 0, output := versionText }
  | .error stop => { code := 2, errors := mistakeText color stop }

end MidiPatch.CommandLine
