import MidiPatch.Decoder
import MidiPatch.Fifo
import MidiPatch.Inlet.Handlers

/-!
# One input

An `Inlet` decodes the bytes of its queue and lets its handlers hear the messages. A handler may put
bytes into the queue it is fed from; those wait for the next pass.
-/

namespace MidiPatch

structure Inlet (η : Type) where
  source : SourceId
  name : String
  queue : Fifo
  decoder : Decoder
  handlers : HandlerTable η := {}

/--
The bytes that a handler call puts into the queue of its own inlet. It is given the calls so far,
the present one last, so a handler may act on what was heard before.
-/
abbrev Echo (η : Type) := List (Call η) → List UInt8

namespace Inlet

variable {η : Type}

def new (source : SourceId) (name : String) (capacity : Nat) (options : Decoder.Options) :
    Inlet η :=
  { source := source, name := name, queue := .new capacity, decoder := .new options }

structure Pass (η : Type) where
  inlet : Inlet η
  calls : List (Call η) := []
  messages : List Message := []

def Pass.call (echo : Echo η) (p : Pass η) (c : Call η) : Pass η :=
  { p with
    calls := p.calls ++ [c]
    inlet.queue := (p.inlet.queue.enqueueAll (echo (p.calls ++ [c]))).1 }

def Pass.feed (echo : Echo η) (p : Pass η) (b : UInt8) : Pass η :=
  let (decoder, m) := p.inlet.decoder.feed b
  let p := { p with inlet.decoder := decoder, messages := p.messages ++ m.toList }
  match m with
  | none => p
  | some m => (p.inlet.handlers.calls p.inlet.source m).foldl (Pass.call echo) p

/-- Takes `remaining` bytes from the queue in batches and decodes them. -/
def Pass.drain (echo : Echo η) (batch : Nat) (remaining : Nat) (p : Pass η) : Pass η :=
  if remaining = 0 then p
  else
    let (queue, bytes) := p.inlet.queue.dequeueBatch (min remaining batch)
    if bytes.length = 0 then p
    else
      drain echo batch (remaining - bytes.length)
        (bytes.foldl (Pass.feed echo) { p with inlet.queue := queue })
termination_by remaining
decreasing_by omega

def batchSize : Nat := 16

/-- Handlers that put nothing into the queue. -/
def silent : Echo η := fun _ => []

def feed (i : Inlet η) (echo : Echo η) (b : UInt8) : Pass η :=
  Pass.feed echo { inlet := i } b

/-- Decodes the bytes that are in the queue now; bytes that arrive meanwhile wait. -/
def process (i : Inlet η) (echo : Echo η) : Pass η :=
  Pass.drain echo batchSize i.queue.length { inlet := i }

/-- Drops the queued bytes and the open message; handlers and counters stay. -/
def reset (i : Inlet η) : Inlet η :=
  { i with queue := i.queue.clear.1, decoder := i.decoder.reset }

end Inlet

end MidiPatch
