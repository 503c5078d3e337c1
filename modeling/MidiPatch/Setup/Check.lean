import MidiPatch.Setup.Basic

/-!
# Checking setups

`Setup.check` finds the first fault of a setup: what all ports have in common comes first, then the
ports and then the routes, each in order.
-/

namespace MidiPatch.Setup

inductive Fault
  | noCapacity
  | sysExLimit
  | noPorts
  | tooManyPorts (count : Nat)
  | unnamedPort (index : Nat)
  | duplicateName (name : String)
  | idlePort (name : String)
  | unknownPort (r : Route)
  | noInput (name : String)
  | noOutput (name : String)
  | badChannel (r : Route) (channel : UInt8)
  deriving DecidableEq, Repr

def Route.text (r : Route) : String := s!"{r.source} -> {r.destination}"

def Fault.message : Fault → String
  | .noCapacity => "queue_capacity must be at least 1"
  | .sysExLimit => "framer.max_sysex_len must be at least 2"
  | .noPorts => "At least one port must be defined"
  | .tooManyPorts count => s!"Too many ports ({count})"
  | .unnamedPort index => s!"Port {index} name cannot be empty"
  | .duplicateName name => s!"Duplicate port name '{name}'"
  | .idlePort name => s!"Port '{name}' needs an input, an output, or both"
  | .unknownPort r => s!"Route {r.text} references unknown port"
  | .noInput name => s!"Route source '{name}' has no input"
  | .noOutput name => s!"Route destination '{name}' has no output"
  | .badChannel r channel =>
    s!"Route {r.text} channel {channel.toNat} is invalid (must be 1-16)"

/-- Refuses with a fault where a condition holds. -/
def refuse (fault : Fault) (condition : Bool) : Except Fault Unit :=
  if condition then .error fault else .ok ()

def checkGlobals (s : Setup) : Except Fault Unit := do
  refuse .noCapacity (s.queueCapacity = 0)
  refuse .sysExLimit (s.maxSysEx < 2)
  refuse .noPorts s.ports.isEmpty
  refuse (.tooManyPorts s.ports.length) (s.ports.length > 255)

/-- Checks ports from number `index` on, where the names before them are known. -/
def checkPorts (index : Nat) (names : List String) : List Port → Except Fault Unit
  | [] => .ok ()
  | p :: rest => do
    refuse (.unnamedPort index) p.name.isEmpty
    refuse (.duplicateName p.name) (names.contains p.name)
    refuse (.idlePort p.name) (p.input.isNone && p.output.isNone)
    checkPorts (index + 1) (p.name :: names) rest

/-- The port that a route names. -/
def routePort (s : Setup) (r : Route) (name : String) : Except Fault Port :=
  match s.port? name with
  | some p => .ok p
  | none => .error (.unknownPort r)

def isChannelNumber (n : UInt8) : Bool := 1 ≤ n && n ≤ 16

def checkRoute (s : Setup) (r : Route) : Except Fault Unit := do
  let source ← s.routePort r r.source
  let destination ← s.routePort r r.destination
  refuse (.noInput source.name) source.input.isNone
  refuse (.noOutput destination.name) destination.output.isNone
  match (r.filter.bind (·.channels)).bind fun cs => cs.find? (!isChannelNumber ·) with
  | some channel => .error (.badChannel r channel)
  | none => .ok ()

def checkRoutes (s : Setup) : List Route → Except Fault Unit
  | [] => .ok ()
  | r :: rest => do
    s.checkRoute r
    s.checkRoutes rest

def check (s : Setup) : Except Fault Unit := do
  s.checkGlobals
  checkPorts 0 [] s.ports
  s.checkRoutes s.routes

end MidiPatch.Setup
