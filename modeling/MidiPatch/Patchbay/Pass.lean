import MidiPatch.Patchbay.Basic

/-!
# One pass of the patchbay

A pass moves bytes from the attached inputs into the queues, decodes every queue, port by port, and
then delivers the messages in the order they were completed, each along the routes in the order they
were added.
-/

namespace MidiPatch.Patchbay

variable {ι ο η : Type}

structure Work where
  bytesIn : Nat := 0
  /-- Bytes of attached inputs that found a full queue. -/
  bytesDropped : Nat := 0
  messages : Nat := 0
  routed : Nat := 0
  deriving DecidableEq, Repr

def Work.isIdle (w : Work) : Bool := w.bytesIn == 0 && w.messages == 0

/-- Moves what the attached input received into the queue; gives the bytes taken and dropped. -/
def Port.pump [ByteInput ι] (p : Port ι ο η) : Port ι ο η × Nat × Nat :=
  match p.input, p.producerHeld with
  | some input, true =>
    let (input', bytes) := ByteInput.poll input
    let (queue, n) := p.inlet.queue.enqueueAll bytes
    ({ p with input := some input', inlet.queue := queue }, n, bytes.length - n)
  | _, _ => (p, 0, 0)

/-- Asks every attached input; gives all bytes taken and dropped. -/
def pump [ByteInput ι] (bay : Patchbay ι ο η) : Patchbay ι ο η × Nat × Nat :=
  let pumped := bay.ports.map Port.pump
  ({ bay with ports := pumped.map (·.1) },
    pumped.foldl (· + ·.2.1) 0, pumped.foldl (· + ·.2.2) 0)

/--
Decodes the queue of every port; gives the calls to the user's handlers and how many messages there
were. The handlers put no bytes into the queues here: what the holder of a producer lets in while
the ports are decoded is left to `produce`, before the pass or after it.
-/
def decode (bay : Patchbay ι ο η) : Patchbay ι ο η × List (Call η) × Nat :=
  let passes := bay.ports.map fun p => p.inlet.process Inlet.silent
  let calls := passes.flatMap (·.calls)
  ({ bay with
      ports := (bay.ports.zip passes).map fun (p, pass) => { p with inlet := pass.inlet }
      undelivered := bay.undelivered ++ heard calls },
    userCalls calls, (passes.flatMap (·.messages)).length)

/-- Hands a message to the outlet of a port; gives whether there is one. -/
def hand [ByteOutput ο] (ports : List (Port ι ο η)) (id : PortId) (m : Message) :
    List (Port ι ο η) × Bool :=
  match ports[id.index]? with
  | none => (ports, false)
  | some p =>
    match p.outlet with
    | none => (ports, false)
    | some o => (ports.set id.index { p with outlet := some (o.emitMessage m).1 }, true)

/-- The routes a message from `source` takes, in order. -/
def routesOf (routes : List Route) (source : PortId) (m : Message) : List Route :=
  routes.filter fun r => r.source = source && r.filter.admits m

/-- Hands a message to the destination of each route; gives what was handed over, in order. -/
def follow [ByteOutput ο] (ports : List (Port ι ο η)) (m : Message) :
    List Route → List (Port ι ο η) × List (PortId × Message)
  | [] => (ports, [])
  | r :: rs =>
    let (ports', there) := hand ports r.destination m
    let (ports'', handed) := follow ports' m rs
    (ports'', if there then (r.destination, m) :: handed else handed)

def deliverAll [ByteOutput ο] (routes : List Route) (ports : List (Port ι ο η)) :
    List (SourceId × Message) → List (Port ι ο η) × List (PortId × Message)
  | [] => (ports, [])
  | (s, m) :: rest =>
    let (ports', handed) := follow ports m (routesOf routes (.ofSource s) m)
    let (ports'', later) := deliverAll routes ports' rest
    (ports'', handed ++ later)

/-- Delivers all that waits; gives what an observer saw and what was handed over, in order. -/
def deliver [ByteOutput ο] (bay : Patchbay ι ο η) :
    Patchbay ι ο η × List (PortId × Message) × List (PortId × Message) :=
  let (ports, handed) := deliverAll bay.routes bay.ports bay.undelivered
  ({ bay with ports := ports, undelivered := [] },
    if bay.observed then bay.undelivered.map fun (s, m) => (.ofSource s, m) else [],
    handed)

/-- What a pass did, as its user sees it. -/
structure Outcome (η : Type) where
  work : Work
  seen : List (PortId × Message)
  calls : List (Call η)

def poll [ByteInput ι] [ByteOutput ο] (bay : Patchbay ι ο η) : Patchbay ι ο η × Outcome η :=
  let (pumped, bytesIn, bytesDropped) := bay.pump
  let (decoded, calls, messages) := pumped.decode
  let (delivered, seen, handed) := decoded.deliver
  (delivered, { work := { bytesIn, bytesDropped, messages, routed := handed.length }, seen, calls })

end MidiPatch.Patchbay
