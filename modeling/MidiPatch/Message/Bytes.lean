import MidiPatch.Message.Basic

/-!
# Messages and their bytes

`Message.encode` writes a message; fields keep their low four, seven or fourteen bits.
`Message.ofBytes?` reads the message at the start of a byte list that begins with its status byte.
-/

namespace MidiPatch.Message

open Wire

def status : Message → UInt8
  | noteOff c .. => 0x80 ||| channelBits c
  | noteOn c .. => 0x90 ||| channelBits c
  | aftertouch c .. => 0xA0 ||| channelBits c
  | controlChange c .. => 0xB0 ||| channelBits c
  | programChange c .. => 0xC0 ||| channelBits c
  | channelPressure c .. => 0xD0 ||| channelBits c
  | pitchBend c .. => 0xE0 ||| channelBits c
  | quarterFrame .. => 0xF1
  | songPosition .. => 0xF2
  | songSelect .. => 0xF3
  | tuneRequest => Wire.tuneRequest
  | realtime k => k.byte
  | sysEx .. => sysExBegin

/-- The bytes of a message. A system exclusive run is written as it is stored. -/
def encode (m : Message) : List UInt8 :=
  match m with
  | noteOff _ a b | noteOn _ a b | aftertouch _ a b | controlChange _ a b =>
    [m.status, dataBits a, dataBits b]
  | programChange _ a | channelPressure _ a | quarterFrame a | songSelect a => [m.status, dataBits a]
  | pitchBend _ v | songPosition v => [m.status, (Word14.split v).1, (Word14.split v).2]
  | tuneRequest | realtime _ => [m.status]
  | sysEx x => x.data

def wireLength (m : Message) : Nat :=
  match m with
  | sysEx x => x.data.length
  | _ => (lengthOf m.status).bytes?.getD 1

/-- The message with a given status byte and masked data bytes, for a status of fixed length. -/
def ofStatus? (s a b : UInt8) : Option Message :=
  let c := channelBits s
  if s < 0x80 then none
  else if s < 0x90 then some (noteOff c a b)
  else if s < 0xA0 then some (noteOn c a b)
  else if s < 0xB0 then some (aftertouch c a b)
  else if s < 0xC0 then some (controlChange c a b)
  else if s < 0xD0 then some (programChange c a)
  else if s < 0xE0 then some (channelPressure c a)
  else if s < 0xF0 then some (pitchBend c (Word14.join a b))
  else if s = 0xF1 then some (quarterFrame a)
  else if s = 0xF2 then some (songPosition (Word14.join a b))
  else if s = 0xF3 then some (songSelect a)
  else if s = 0xF6 then some tuneRequest
  else none

/--
The message at the start of `bytes`. Bytes after it are ignored; a run lasts to the first end byte,
whatever stands before it.
-/
def ofBytes? : List UInt8 → Option Message
  | [] => none
  | s :: rest =>
    match Realtime.ofByte? s with
    | some k => some (realtime k)
    | none =>
      if s = sysExBegin then
        if sysExEnd ∈ rest then
          some (sysEx { data := s :: rest.takeWhile (· ≠ sysExEnd) ++ [sysExEnd] })
        else none
      else do
        let n ← (lengthOf s).bytes?
        if rest.length + 1 < n then none
        else ofStatus? s (dataBits (rest.getD 0 0)) (dataBits (rest.getD 1 0))

end MidiPatch.Message
