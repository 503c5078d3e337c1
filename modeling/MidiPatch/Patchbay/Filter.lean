import MidiPatch.Message.Basic

/-!
# Route filters

A filter may name the channels and the kinds it lets through. System messages have no channel, so
only the kinds apply to them.
-/

namespace MidiPatch

structure Filter where
  /-- Channel numbers, counted from one; none lets every channel through. -/
  channels : Option (List UInt8) := none
  /-- None lets every kind through. -/
  kinds : Option (List Kind) := none
  deriving DecidableEq, Repr

namespace Filter

def admitsChannel (f : Filter) (m : Message) : Bool :=
  match f.channels, m.channel? with
  | some numbers, some c => numbers.any (·.toNat = Message.channelNumber c)
  | _, _ => true

def admitsKind (f : Filter) (m : Message) : Bool :=
  f.kinds.all (·.contains m.kind)

def admits (f : Filter) (m : Message) : Bool :=
  f.admitsKind m && f.admitsChannel m

end Filter

end MidiPatch
