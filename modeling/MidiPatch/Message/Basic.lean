import MidiPatch.Wire.Word14

/-!
# MIDI messages

`Message` is one complete message with its fields as given: nothing forces a channel below sixteen
or a data value below 128. The named constructors at the end mask their arguments into range.
-/

namespace MidiPatch

open Wire

/-- Messages of a single realtime byte. -/
inductive Realtime
  | clock
  | tick
  | start
  | resume
  | stop
  /-- `FD` has no meaning assigned and passes through all the same. -/
  | reserved
  | activeSense
  | reset
  deriving DecidableEq, Repr

namespace Realtime

def byte : Realtime → UInt8
  | clock => 0xF8
  | tick => 0xF9
  | start => 0xFA
  | resume => 0xFB
  | stop => 0xFC
  | reserved => 0xFD
  | activeSense => 0xFE
  | reset => 0xFF

def all : List Realtime := [clock, tick, start, resume, stop, reserved, activeSense, reset]

def ofByte? (b : UInt8) : Option Realtime :=
  all.find? (·.byte = b)

end Realtime

/-- A system exclusive run with both delimiters. -/
structure SysEx where
  data : List UInt8
  /-- Set when the middle was cut because the run exceeded the capture limit. -/
  truncated : Bool := false
  deriving DecidableEq, Repr

namespace SysEx

/-- A complete run around `payload`, whose bytes keep their low seven bits. -/
def ofPayload (payload : List UInt8) : SysEx :=
  { data := sysExBegin :: payload.map dataBits ++ [sysExEnd] }

/-- What stands between the first and the last byte. -/
def payload (x : SysEx) : List UInt8 :=
  x.data.tail.dropLast

end SysEx

/-- What a message is about, apart from its values. -/
inductive Kind
  | noteOn
  | noteOff
  | controlChange
  | programChange
  | channelPressure
  | pitchBend
  | aftertouch
  | songPosition
  | songSelect
  | quarterFrame
  | tuneRequest
  | realtime
  | sysEx
  deriving DecidableEq, Repr

namespace Kind

def all : List Kind :=
  [noteOn, noteOff, controlChange, programChange, channelPressure, pitchBend, aftertouch,
    songPosition, songSelect, quarterFrame, tuneRequest, realtime, sysEx]

def name : Kind → String
  | noteOn => "note_on"
  | noteOff => "note_off"
  | controlChange => "control_change"
  | programChange => "program_change"
  | channelPressure => "channel_pressure"
  | pitchBend => "pitch_bend"
  | aftertouch => "aftertouch"
  | songPosition => "song_position"
  | songSelect => "song_select"
  | quarterFrame => "time_code_quarter_frame"
  | tuneRequest => "tune_request"
  | realtime => "realtime"
  | sysEx => "sys_ex_boundary"

def ofName? (name : String) : Option Kind :=
  all.find? (·.name = name)

end Kind

/-- A complete message. Channels count from zero. -/
inductive Message
  | noteOff (channel note velocity : UInt8)
  /-- Velocity zero stays a note on, so that the bytes come out as they came in. -/
  | noteOn (channel note velocity : UInt8)
  | aftertouch (channel note pressure : UInt8)
  | controlChange (channel controller value : UInt8)
  | programChange (channel program : UInt8)
  | channelPressure (channel pressure : UInt8)
  | pitchBend (channel : UInt8) (value : UInt16)
  | quarterFrame (data : UInt8)
  | songPosition (position : UInt16)
  | songSelect (song : UInt8)
  | tuneRequest
  | realtime (kind : Realtime)
  | sysEx (run : SysEx)
  deriving DecidableEq, Repr

namespace Message

def kind : Message → Kind
  | noteOff .. => .noteOff
  | noteOn .. => .noteOn
  | aftertouch .. => .aftertouch
  | controlChange .. => .controlChange
  | programChange .. => .programChange
  | channelPressure .. => .channelPressure
  | pitchBend .. => .pitchBend
  | quarterFrame .. => .quarterFrame
  | songPosition .. => .songPosition
  | songSelect .. => .songSelect
  | tuneRequest => .tuneRequest
  | realtime .. => .realtime
  | sysEx .. => .sysEx

/-- The channel of a channel message; system messages have none. -/
def channel? : Message → Option UInt8
  | noteOff c .. | noteOn c .. | aftertouch c .. | controlChange c .. | programChange c ..
  | channelPressure c .. | pitchBend c .. => some c
  | _ => none

/-- A channel as people count it, from one. -/
def channelNumber (channel : UInt8) : Nat := channel.toNat + 1

def isChannel (m : Message) : Bool := m.channel?.isSome

def isRealtime : Message → Bool
  | realtime _ => true
  | _ => false

/-! ### Messages with masked fields -/

def maskedNoteOn (channel note velocity : UInt8) : Message :=
  noteOn (channelBits channel) (dataBits note) (dataBits velocity)

def maskedNoteOff (channel note velocity : UInt8) : Message :=
  noteOff (channelBits channel) (dataBits note) (dataBits velocity)

def maskedAftertouch (channel note pressure : UInt8) : Message :=
  aftertouch (channelBits channel) (dataBits note) (dataBits pressure)

def maskedControlChange (channel controller value : UInt8) : Message :=
  controlChange (channelBits channel) (dataBits controller) (dataBits value)

def maskedProgramChange (channel program : UInt8) : Message :=
  programChange (channelBits channel) (dataBits program)

def maskedChannelPressure (channel pressure : UInt8) : Message :=
  channelPressure (channelBits channel) (dataBits pressure)

/-- A pitch bend by a signed amount around the centre, clamped to fourteen bits. -/
def signedPitchBend (channel : UInt8) (amount : Int) : Message :=
  pitchBend (channelBits channel) (Word14.ofSigned amount)

/-- A song position; a position above fourteen bits becomes the largest one. -/
def clampedSongPosition (position : UInt16) : Message :=
  songPosition (min position Word14.largest)

end Message

end MidiPatch
