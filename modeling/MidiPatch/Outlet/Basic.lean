import MidiPatch.Link.Basic
import MidiPatch.Message.Bytes
import MidiPatch.Outlet.Boundary

/-!
# A shared output

Several sources may write to one `Outlet`. Raw bytes go out at once. Whole messages go out between
messages only; while a raw message is in progress they wait, and follow as soon as it is complete.
-/

namespace MidiPatch

namespace Outlet

structure Counters where
  bytes : Nat := 0
  messages : Nat := 0
  /-- Status bytes left out. -/
  compressed : Nat := 0
  /-- Messages that had to wait. -/
  deferred : Nat := 0
  sendErrors : Nat := 0
  deriving DecidableEq, Repr

end Outlet

structure Outlet (ο : Type) where
  output : ο
  /-- Leave out a channel status that the receiver would repeat. -/
  compress : Bool := false
  boundary : Boundary := {}
  /-- The messages that wait, oldest first. -/
  pending : List Message := []
  counters : Outlet.Counters := {}

namespace Outlet

variable {ο : Type} [ByteOutput ο]

def isSafe (o : Outlet ο) : Bool := o.boundary.safe

/-- Sends one byte; a refusal is counted and changes nothing else. -/
def sendByte (o : Outlet ο) (b : UInt8) : Outlet ο :=
  let (output, result) := ByteOutput.send o.output [b]
  { o with
    output := output
    boundary := o.boundary.next b
    counters.bytes := o.counters.bytes + 1
    counters.sendErrors :=
      match result with
      | .ok () => o.counters.sendErrors
      | .error _ => o.counters.sendErrors + 1 }

def leavesOutStatus (o : Outlet ο) (m : Message) : Bool :=
  o.compress && o.boundary.canRepeat m.status

def write (o : Outlet ο) (m : Message) : Outlet ο :=
  let skipped := (o.leavesOutStatus m).toNat
  let o' := (m.encode.drop skipped).foldl sendByte o
  { o' with
    counters.messages := o'.counters.messages + 1
    counters.compressed := o'.counters.compressed + skipped }

/-- Writes the given messages as long as the stream is between messages; the others wait. -/
def release (o : Outlet ο) : List Message → Outlet ο
  | [] => { o with pending := [] }
  | m :: ms => if o.isSafe then (o.write m).release ms else { o with pending := m :: ms }

def flush (o : Outlet ο) : Outlet ο := o.release o.pending

/--
Sends one raw byte and says whether it left the stream between messages; if so, the messages that
wait follow it.
-/
def emit (o : Outlet ο) (b : UInt8) : Outlet ο × Bool :=
  let o' := o.sendByte b
  if o'.isSafe then (o'.flush, true) else (o', false)

/-- Whether a message has to wait. Realtime messages never do. -/
def mustWait (o : Outlet ο) (m : Message) : Bool :=
  !m.isRealtime && (!o.isSafe || !o.pending.isEmpty)

/-- Sends a whole message, or lets it wait; says whether it went out and ended between messages. -/
def emitMessage (o : Outlet ο) (m : Message) : Outlet ο × Bool :=
  if o.mustWait m then
    ({ o with
        pending := o.pending ++ [m]
        counters.deferred := o.counters.deferred + 1 }, false)
  else
    let o' := o.write m
    (o', o'.isSafe)

/-- Starts the stream over between messages; the messages that wait go out now. -/
def reset (o : Outlet ο) : Outlet ο :=
  { o with boundary := {} }.flush

end Outlet

end MidiPatch
