import MidiPatch.Inlet.Basic
import MidiPatch.Outlet.Basic
import MidiPatch.Patchbay.Filter

/-!
# The patchbay

A `Patchbay` joins inputs to outputs. Every port has an inlet and may have an outlet; routes say
whose messages go where. An operation that fails gives no new patchbay, so the old one stays as it
was.
-/

namespace MidiPatch

/-- The place of a port in its patchbay, which is also the source number of its inlet. -/
structure PortId where
  number : UInt8
  deriving DecidableEq, Repr

namespace PortId

def index (id : PortId) : Nat := id.number.toNat

def source (id : PortId) : SourceId := { number := id.number }

def ofSource (s : SourceId) : PortId := { number := s.number }

def text (id : PortId) : String := s!"port{id.number.toNat}"

end PortId

inductive PatchError
  | unknownPort (id : PortId)
  | unknownName (name : String)
  | duplicatePort (name : String)
  | tooManyPorts
  | producerTaken (name : String)
  | noOutput (name : String)
  deriving DecidableEq, Repr

def PatchError.message : PatchError → String
  | unknownPort id => s!"unknown port {id.text}"
  | unknownName name => s!"no port named '{name}'"
  | duplicatePort name => s!"port '{name}' already exists"
  | tooManyPorts => "too many ports"
  | producerTaken name => s!"input queue producer of '{name}' was already taken"
  | noOutput name => s!"port '{name}' has no output"

/-- Messages of one port's input go to another port's output. -/
structure Route where
  source : PortId
  destination : PortId
  filter : Filter := {}
  deriving DecidableEq, Repr

/-- Who hears the messages of an inlet: the patchbay itself, or a handler of its user. -/
inductive Hearer (η : Type)
  | patchbay
  | user (handler : η)
  deriving DecidableEq, Repr

/-- The right to put bytes into a port's queue, once it has been handed out. -/
structure Producer where
  port : PortId
  deriving DecidableEq, Repr

namespace Patchbay

/-- What all ports of a patchbay have in common. -/
structure Settings where
  queueCapacity : Nat := 64
  decoding : Decoder.Options := {}
  compress : Bool := false
  deriving DecidableEq, Repr

structure Port (ι ο η : Type) where
  name : String
  inlet : Inlet (Hearer η)
  /-- Whether the right to fill the queue is still with the port. -/
  producerHeld : Bool := true
  /-- A link that is asked for bytes on every pass. -/
  input : Option ι := none
  outlet : Option (Outlet ο) := none

end Patchbay

structure Patchbay (ι ο η : Type) where
  settings : Patchbay.Settings
  ports : List (Patchbay.Port ι ο η) := []
  /-- In the order they were added. -/
  routes : List Route := []
  /-- Whether someone watches the messages as they are delivered. -/
  observed : Bool := false
  /-- Messages heard and not yet delivered, oldest first. -/
  undelivered : List (SourceId × Message) := []

namespace Patchbay

variable {ι ο η : Type}

/-! ### Ports -/

def new (settings : Settings) : Patchbay ι ο η := { settings }

def port (bay : Patchbay ι ο η) (id : PortId) : Except PatchError (Port ι ο η) :=
  match bay.ports[id.index]? with
  | some p => .ok p
  | none => .error (.unknownPort id)

def setPort (bay : Patchbay ι ο η) (id : PortId) (p : Port ι ο η) : Patchbay ι ο η :=
  { bay with ports := bay.ports.set id.index p }

def hasName (bay : Patchbay ι ο η) (name : String) : Bool :=
  bay.ports.any (·.name = name)

def portId? (bay : Patchbay ι ο η) (name : String) : Option PortId :=
  (bay.ports.findIdx? (·.name = name)).map fun i => { number := i.toUInt8 }

def portName? (bay : Patchbay ι ο η) (id : PortId) : Option String :=
  bay.ports[id.index]?.map (·.name)

/-- A new port hears its own messages until someone else claims them. -/
def newPort (bay : Patchbay ι ο η) (id : PortId) (name : String) (output : Option ο) :
    Port ι ο η :=
  let inlet : Inlet (Hearer η) :=
    .new id.source name bay.settings.queueCapacity bay.settings.decoding
  { name
    inlet := { inlet with handlers := { catchAll := some .patchbay } }
    outlet := output.map fun o => { output := o, compress := bay.settings.compress } }

/-- Adds a port, which can transmit if it is given an output. -/
def addPort (bay : Patchbay ι ο η) (name : String) (output : Option ο) :
    Except PatchError (Patchbay ι ο η × PortId) :=
  if bay.hasName name then .error (.duplicatePort name)
  else if bay.ports.length < 256 then
    let id : PortId := { number := bay.ports.length.toUInt8 }
    .ok ({ bay with ports := bay.ports ++ [bay.newPort id name output] }, id)
  else .error .tooManyPorts

/-! ### Inputs -/

/-- Hands out the right to fill a port's queue, unless it is gone or an input uses it. -/
def takeProducer (bay : Patchbay ι ο η) (id : PortId) :
    Except PatchError (Patchbay ι ο η × Option Producer) := do
  let p ← bay.port id
  if p.input.isNone && p.producerHeld then
    .ok (bay.setPort id { p with producerHeld := false }, some { port := id })
  else .ok (bay, none)

/-- Puts bytes into the queue of the producer's port and says how many there was room for. -/
def produce (bay : Patchbay ι ο η) (producer : Producer) (bytes : List UInt8) :
    Patchbay ι ο η × Nat :=
  match bay.ports[producer.port.index]? with
  | none => (bay, 0)
  | some p =>
    let (queue, n) := p.inlet.queue.enqueueAll bytes
    (bay.setPort producer.port { p with inlet.queue := queue }, n)

/-- Attaches a link that every pass asks for bytes, in place of an earlier one. -/
def attachInput (bay : Patchbay ι ο η) (id : PortId) (input : ι) :
    Except PatchError (Patchbay ι ο η) := do
  let p ← bay.port id
  if p.producerHeld then .ok (bay.setPort id { p with input := some input })
  else .error (.producerTaken p.name)

/-! ### Routes -/

def addRoute (bay : Patchbay ι ο η) (r : Route) : Except PatchError (Patchbay ι ο η) := do
  let _ ← bay.port r.source
  let p ← bay.port r.destination
  match p.outlet with
  | none => .error (.noOutput p.name)
  | some _ => .ok { bay with routes := bay.routes ++ [r] }

def observe (bay : Patchbay ι ο η) (on : Bool) : Patchbay ι ο η := { bay with observed := on }

/-! ### Outlets -/

def outlet (bay : Patchbay ι ο η) (id : PortId) : Except PatchError (Outlet ο) := do
  let p ← bay.port id
  match p.outlet with
  | none => .error (.noOutput p.name)
  | some o => .ok o

def setOutlet (bay : Patchbay ι ο η) (id : PortId) (o : Outlet ο) : Patchbay ι ο η :=
  match bay.ports[id.index]? with
  | none => bay
  | some p => bay.setPort id { p with outlet := some o }

/-- Sends a raw byte through a port's outlet and says whether it ended between messages. -/
def emit [ByteOutput ο] (bay : Patchbay ι ο η) (id : PortId) (b : UInt8) :
    Except PatchError (Patchbay ι ο η × Bool) := do
  let o ← bay.outlet id
  let (o', safe) := o.emit b
  .ok (bay.setOutlet id o', safe)

def emitMessage [ByteOutput ο] (bay : Patchbay ι ο η) (id : PortId) (m : Message) :
    Except PatchError (Patchbay ι ο η × Bool) := do
  let o ← bay.outlet id
  let (o', sent) := o.emitMessage m
  .ok (bay.setOutlet id o', sent)

/-! ### Inlets -/

/-- The messages that calls put up for delivery. -/
def heard (calls : List (Call (Hearer η))) : List (SourceId × Message) :=
  calls.filterMap fun c =>
    match c.handler with
    | .patchbay => some (c.source, c.message)
    | .user _ => none

def userCalls (calls : List (Call (Hearer η))) : List (Call η) :=
  calls.filterMap fun c =>
    match c.handler with
    | .patchbay => none
    | .user h => some { handler := h, source := c.source, message := c.message }

def inlet (bay : Patchbay ι ο η) (id : PortId) : Except PatchError (Inlet (Hearer η)) := do
  let p ← bay.port id
  .ok p.inlet

/-- Puts a port's inlet into a new state; messages for the patchbay wait for the next pass. -/
def setInlet (bay : Patchbay ι ο η) (id : PortId) (pass : Inlet.Pass (Hearer η)) :
    Patchbay ι ο η :=
  match bay.ports[id.index]? with
  | none => bay
  | some p =>
    { bay.setPort id { p with inlet := pass.inlet } with
      undelivered := bay.undelivered ++ heard pass.calls }

/--
Puts a port back into the state it was added in, handlers and counters apart: its queue and its open
message are dropped, its messages that wait for delivery are dropped, and its output starts over.
-/
def resetPort [ByteOutput ο] (bay : Patchbay ι ο η) (id : PortId) :
    Except PatchError (Patchbay ι ο η) := do
  let p ← bay.port id
  .ok
    { bay.setPort id { p with inlet := p.inlet.reset, outlet := p.outlet.map Outlet.reset } with
      undelivered := bay.undelivered.filter (·.1 ≠ id.source) }

/-! ### Counters -/

structure PortCounters where
  id : PortId
  name : String
  queued : Nat
  lost : Nat
  decoding : Decoder.Counters
  output : Option Outlet.Counters
  deriving DecidableEq, Repr

def counters (bay : Patchbay ι ο η) : List PortCounters :=
  bay.ports.zipIdx.map fun (p, i) =>
    { id := { number := i.toUInt8 }
      name := p.name
      queued := p.inlet.queue.length
      lost := p.inlet.queue.lost
      decoding := p.inlet.decoder.counters
      output := p.outlet.map (·.counters) }

end Patchbay

end MidiPatch
