import MidiPatch.Wire.Byte

/-!
# Message boundaries of an outgoing stream

`Boundary` follows the bytes that go out and knows when the last one completed a message, so that
another message may follow, and which channel status the receiver would repeat.
-/

namespace MidiPatch

open Wire

structure Boundary where
  status : Option UInt8 := none
  /-- Data bytes seen of the message in progress. -/
  count : Nat := 0
  /-- Whether the last byte left the stream between two messages. -/
  safe : Bool := true
  deriving DecidableEq, Repr

namespace Boundary

/-- A two-byte message leaves no status behind, nor does a system common one of three bytes. -/
def onData (t : Boundary) : Boundary :=
  match t.status with
  | none => { t with safe := false }
  | some s =>
    match lengthOf s with
    | .two => { t with status := none, safe := true }
    | .three =>
      if t.count = 0 then { t with count := 1, safe := false }
      else { status := if isChannelStatus s then some s else none, count := 0, safe := true }
    | .one | .undefined => { t with safe := false }

/-- Follows one outgoing byte. A realtime byte leaves the boundary where it was. -/
def next (t : Boundary) (b : UInt8) : Boundary :=
  if isRealtime b then t
  else if isStatus b then
    if b = tuneRequest ∨ b = sysExEnd then { t with status := none, safe := true }
    else { status := some b, count := 0, safe := false }
  else t.onData

def run (t : Boundary) (bytes : List UInt8) : Boundary := bytes.foldl next t

/-- Whether the status byte `s` may be left out of the next message. -/
def canRepeat (t : Boundary) (s : UInt8) : Bool :=
  t.safe && t.count == 0 && t.status == some s && isChannelStatus s

end Boundary

end MidiPatch
