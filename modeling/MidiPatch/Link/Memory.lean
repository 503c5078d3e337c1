import MidiPatch.Link.Basic

/-!
# Links in memory

Outputs that record what they are sent, an output that can be closed, and an input that replays
chunks.
-/

namespace MidiPatch

structure ByteBuffer where
  bytes : List UInt8 := []
  deriving DecidableEq, Repr

instance : ByteOutput ByteBuffer where
  send o bytes := ({ bytes := o.bytes ++ bytes }, .ok ())

def ByteBuffer.take (o : ByteBuffer) : ByteBuffer × List UInt8 := ({}, o.bytes)

/-- A connection that may be closed; while it is, sends are refused and reach nothing. -/
structure Closable (ο : Type) where
  output : ο
  isOpen : Bool := true

instance {ο : Type} [ByteOutput ο] : ByteOutput (Closable ο) where
  send o bytes :=
    if o.isOpen then
      let (output, r) := ByteOutput.send o.output bytes
      ({ o with output := output }, r)
    else (o, .error .closed)

structure MessageLog where
  messages : List Message := []
  /-- How many more messages fit; none means no end. -/
  room : Option Nat := none
  deriving DecidableEq, Repr

instance : MessageOutput MessageLog where
  send o m :=
    match o.room with
    | none => ({ o with messages := o.messages ++ [m] }, .ok ())
    | some 0 => (o, .error (.send "sink full"))
    | some (n + 1) => ({ messages := o.messages ++ [m], room := some n }, .ok ())

/-- Hands over one chunk at a time. -/
structure Script where
  chunks : List (List UInt8) := []
  deriving DecidableEq, Repr

def Script.push (s : Script) (chunk : List UInt8) : Script := { chunks := s.chunks ++ [chunk] }

instance : ByteInput Script where
  poll s := ({ chunks := s.chunks.tail }, s.chunks.headD [])

end MidiPatch
