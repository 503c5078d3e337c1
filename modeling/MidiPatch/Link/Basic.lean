import MidiPatch.Message.Basic

/-!
# Links to the outside

A link takes bytes, takes whole messages, or has bytes to give. Each is a type with one operation
that returns the link as it is afterwards; a refused send may still have changed it.
-/

namespace MidiPatch

/-- Why a link cannot be opened or refuses a send. -/
inductive LinkError
  | portNotFound (pattern : String)
  | connect (port reason : String)
  | send (reason : String)
  | closed
  deriving DecidableEq, Repr

def LinkError.message : LinkError → String
  | portNotFound pattern => s!"no MIDI port matching '{pattern}'"
  | connect port reason => s!"failed to connect to '{port}': {reason}"
  | send reason => s!"send failed: {reason}"
  | closed => "transport closed"

/-- Links that take raw bytes. -/
class ByteOutput (ο : Type) where
  send : ο → List UInt8 → ο × Except LinkError Unit

/-- Links that take whole messages only. -/
class MessageOutput (σ : Type) where
  send : σ → Message → σ × Except LinkError Unit

/-- Links that hand over what they received since they were last asked. -/
class ByteInput (ι : Type) where
  poll : ι → ι × List UInt8

/-- A link of one of two kinds. -/
instance {α β : Type} [ByteOutput α] [ByteOutput β] : ByteOutput (α ⊕ β) where
  send
    | .inl a, bytes => let (a', r) := ByteOutput.send a bytes; (.inl a', r)
    | .inr b, bytes => let (b', r) := ByteOutput.send b bytes; (.inr b', r)

instance {α β : Type} [ByteInput α] [ByteInput β] : ByteInput (α ⊕ β) where
  poll
    | .inl a => let (a', bytes) := ByteInput.poll a; (.inl a', bytes)
    | .inr b => let (b', bytes) := ByteInput.poll b; (.inr b', bytes)

end MidiPatch
