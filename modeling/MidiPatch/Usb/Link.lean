import MidiPatch.Link.Basic
import MidiPatch.Usb.Packet

/-!
# Packet streams as links

`Reader` turns a stream of packets, however it is cut into reads, into MIDI bytes. `Writer` sends
messages as packets.
-/

namespace MidiPatch.Usb

structure Reader (ι : Type) where
  inner : ι
  /-- The cable to listen to; none means all. -/
  cable : Option UInt8 := none
  /-- The bytes of a packet that is not complete. -/
  held : List UInt8 := []

/-- Whether a packet on this cable passes the filter. -/
def passes (filter : Option UInt8) (cable : UInt8) : Bool :=
  filter.all (· = cable)

/-- The MIDI bytes of the complete packets in `bytes`, and the bytes left over. -/
def unpack (filter : Option UInt8) : List UInt8 → List UInt8 × List UInt8
  | h :: a :: b :: c :: rest =>
    let p := Packet.ofBytes h a b c
    let (out, held) := unpack filter rest
    (if passes filter p.cable then p.payload ++ out else out, held)
  | short => ([], short)

instance {ι : Type} [ByteInput ι] : ByteInput (Reader ι) where
  poll r :=
    let (inner, received) := ByteInput.poll r.inner
    let (out, held) := unpack r.cable (r.held ++ received)
    ({ r with inner := inner, held := held }, out)

structure Writer (ο : Type) where
  output : ο
  cable : UInt8

/-- A message is sent as all of its packets at once. -/
instance {ο : Type} [ByteOutput ο] : MessageOutput (Writer ο) where
  send w m :=
    let (output, result) := ByteOutput.send w.output ((packetsOf w.cable m).flatMap Packet.bytes)
    ({ w with output := output }, result)

end MidiPatch.Usb
