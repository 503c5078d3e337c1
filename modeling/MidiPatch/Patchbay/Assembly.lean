import MidiPatch.Setup.Basic

/-!
# Building a patchbay from a setup

Ports are added in the order of the setup, each with the output that is opened for it, and then the
routes. The inputs of the ports are connected afterwards: each is given the right to fill the queue
of its port.
-/

namespace MidiPatch.Patchbay

variable {ι ο η ε κ : Type}

/-! ### Ports and routes -/

inductive BuildError (ε : Type)
  | patch (e : PatchError)
  | output (e : ε)
  deriving DecidableEq, Repr

def addSetupPort (openOutput : Setup.Port → Except ε (Option ο)) (bay : Patchbay ι ο η)
    (p : Setup.Port) : Except (BuildError ε) (Patchbay ι ο η) :=
  match openOutput p with
  | .error e => .error (.output e)
  | .ok output =>
    match bay.addPort p.name output with
    | .error e => .error (.patch e)
    | .ok (bay, _) => .ok bay

/-- Adds ports as far as that goes, and says what stopped it. -/
def addSetupPorts (openOutput : Setup.Port → Except ε (Option ο)) (bay : Patchbay ι ο η) :
    List Setup.Port → Patchbay ι ο η × Option (BuildError ε)
  | [] => (bay, none)
  | p :: rest =>
    match bay.addSetupPort openOutput p with
    | .error e => (bay, some e)
    | .ok bay => bay.addSetupPorts openOutput rest

def namedPort (bay : Patchbay ι ο η) (name : String) : Except PatchError PortId :=
  match bay.portId? name with
  | some id => .ok id
  | none => .error (.unknownName name)

def addSetupRoute (bay : Patchbay ι ο η) (r : Setup.Route) : Except PatchError (Patchbay ι ο η) := do
  let source ← bay.namedPort r.source
  let destination ← bay.namedPort r.destination
  bay.addRoute { source, destination, filter := r.filter.getD {} }

def addSetupRoutes (bay : Patchbay ι ο η) : List Setup.Route → Except PatchError (Patchbay ι ο η)
  | [] => .ok bay
  | r :: rest => do (← bay.addSetupRoute r).addSetupRoutes rest

def ofSetup (s : Setup) (openOutput : Setup.Port → Except ε (Option ο)) :
    Except (BuildError ε) (Patchbay ι ο η) :=
  match (new s.settings : Patchbay ι ο η).addSetupPorts openOutput s.ports with
  | (_, some e) => .error e
  | (bay, none) => (bay.addSetupRoutes s.routes).mapError .patch

/-! ### Inputs -/

inductive ConnectError (ε : Type)
  | missing (name : String)
  | patch (e : PatchError)
  | input (name : String) (e : ε)
  deriving DecidableEq, Repr

def takeNamedProducer (bay : Patchbay ι ο η) (name : String) :
    Except (ConnectError ε) (Patchbay ι ο η × Producer) :=
  match bay.portId? name with
  | none => .error (.missing name)
  | some id =>
    match bay.takeProducer id with
    | .error e => .error (.patch e)
    | .ok (_, none) => .error (.patch (.producerTaken name))
    | .ok (bay, some producer) => .ok (bay, producer)

/-- Connects an input to every port that has one. `connect` opens what a pattern finds. -/
def connectInputs (connect : String → Producer → Except ε κ) (bay : Patchbay ι ο η) :
    List Setup.Port → Except (ConnectError ε) (Patchbay ι ο η × List κ)
  | [] => .ok (bay, [])
  | p :: rest =>
    match p.input with
    | none => bay.connectInputs connect rest
    | some pattern => do
      let (bay, producer) ← bay.takeNamedProducer p.name
      let input ← (connect pattern producer).mapError (.input p.name)
      let (bay, inputs) ← bay.connectInputs connect rest
      .ok (bay, input :: inputs)

end MidiPatch.Patchbay
