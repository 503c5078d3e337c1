import MidiPatch.Patchbay.Basic

/-!
# Setups

A `Setup` says which ports a patchbay has, what they are connected to, and which routes there are.
-/

namespace MidiPatch

namespace Setup

/-- A port and what to look for in the names of host ports that it connects to. -/
structure Port where
  name : String
  input : Option String := none
  output : Option String := none
  deriving DecidableEq, Repr

structure Route where
  source : String
  destination : String
  /-- None lets every message through. -/
  filter : Option Filter := none
  deriving DecidableEq, Repr

end Setup

structure Setup where
  queueCapacity : UInt64 := 64
  /-- Milliseconds between two passes. -/
  pollInterval : UInt64 := 1
  runningStatus : Bool := false
  maxSysEx : UInt64 := 256
  compress : Bool := false
  ports : List Setup.Port
  routes : List Setup.Route := []
  deriving DecidableEq, Repr

namespace Setup

def port? (s : Setup) (name : String) : Option Port := s.ports.find? (·.name = name)

/-- What the ports of the patchbay have in common. -/
def settings (s : Setup) : Patchbay.Settings :=
  { queueCapacity := s.queueCapacity.toNat
    decoding := { runningStatus := s.runningStatus, maxSysEx := s.maxSysEx.toNat }
    compress := s.compress }

end Setup

end MidiPatch
