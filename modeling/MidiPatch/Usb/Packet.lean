import MidiPatch.Message.Bytes

/-!
# USB event packets

A USB streaming endpoint carries MIDI in packets of four bytes: a cable number and a code index
share the first, and up to three MIDI bytes follow. The code index says how many of them count.
-/

namespace MidiPatch.Usb

open Wire

structure Packet where
  cable : UInt8
  codeIndex : UInt8
  first : UInt8
  second : UInt8
  third : UInt8
  deriving DecidableEq, Repr

/-- How many MIDI bytes a packet with this code index carries. The indices 0 and 1 are reserved. -/
def payloadLength (codeIndex : UInt8) : Nat :=
  match (codeIndex &&& 0x0F).toNat with
  | 0x0 | 0x1 => 0
  | 0x2 | 0x6 | 0xC | 0xD => 2
  | 0x5 | 0xF => 1
  | _ => 3

namespace Packet

def ofBytes (header first second third : UInt8) : Packet :=
  { cable := header >>> 4, codeIndex := header &&& 0x0F, first, second, third }

def data (p : Packet) : List UInt8 := [p.first, p.second, p.third]

/-- The four bytes of a packet; cable and code index keep four bits each. -/
def bytes (p : Packet) : List UInt8 :=
  (((p.cable &&& 0x0F) <<< 4) ||| (p.codeIndex &&& 0x0F)) :: p.data

def payload (p : Packet) : List UInt8 := p.data.take (payloadLength p.codeIndex)

/-- A packet with fewer than three MIDI bytes is filled up with zeros. -/
def filled (cable codeIndex : UInt8) (bytes : List UInt8) : Packet :=
  { cable, codeIndex, first := bytes.getD 0 0, second := bytes.getD 1 0, third := bytes.getD 2 0 }

end Packet

/-- The code index of a message that starts with `status`, system exclusive apart. -/
def codeIndexOf (status : UInt8) : UInt8 :=
  if isChannelStatus status then status >>> 4
  else if status = 0xF1 ∨ status = 0xF3 then 0x2
  else if status = 0xF2 then 0x3
  else if status = tuneRequest then 0x5
  else 0xF

/-- The code index of the last packet of a run, by the MIDI bytes in it. -/
def lastCodeIndex (count : Nat) : UInt8 :=
  match count with
  | 1 => 0x5
  | 2 => 0x6
  | _ => 0x7

/-- The packets of a run, three bytes in each but the last. -/
def packetsOfRun (cable : UInt8) : List UInt8 → List Packet
  | [] => []
  | a :: b :: c :: d :: rest =>
    .filled cable 0x4 [a, b, c] :: packetsOfRun cable (d :: rest)
  | short => [.filled cable (lastCodeIndex short.length) short]

def packetsOf (cable : UInt8) (m : Message) : List Packet :=
  match m with
  | .sysEx x => packetsOfRun cable x.data
  | _ => [.filled cable (codeIndexOf m.status) m.encode]

end MidiPatch.Usb
