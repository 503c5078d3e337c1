import MidiPatch.Message.Basic

/-!
# Messages as text

One line per message for a reader. Channels count from one here.
-/

namespace MidiPatch

def Realtime.text : Realtime → String
  | clock => "Clock"
  | tick => "Tick"
  | start => "Start"
  | resume => "Continue"
  | stop => "Stop"
  | reserved => "Reserved"
  | activeSense => "ActiveSense"
  | reset => "Reset"

def Kind.text : Kind → String
  | noteOn => "NoteOn"
  | noteOff => "NoteOff"
  | controlChange => "ControlChange"
  | programChange => "ProgramChange"
  | channelPressure => "ChannelPressure"
  | pitchBend => "PitchBend"
  | aftertouch => "Aftertouch"
  | songPosition => "SongPosition"
  | songSelect => "SongSelect"
  | quarterFrame => "TimeCodeQuarterFrame"
  | tuneRequest => "TuneRequest"
  | realtime => "Realtime"
  | sysEx => "SysExBoundary"

def SysEx.text (x : SysEx) : String :=
  s!"SysEx {x.data.length} bytes" ++ if x.truncated then " (truncated)" else ""

namespace Message

def text : Message → String
  | noteOff c n v => s!"NoteOff ch:{channelNumber c} n:{n.toNat} v:{v.toNat}"
  | noteOn c n v => s!"NoteOn ch:{channelNumber c} n:{n.toNat} v:{v.toNat}"
  | aftertouch c n p => s!"Aftertouch ch:{channelNumber c} n:{n.toNat} p:{p.toNat}"
  | controlChange c n v => s!"CC ch:{channelNumber c} cc:{n.toNat} v:{v.toNat}"
  | programChange c p => s!"ProgramChange ch:{channelNumber c} p:{p.toNat}"
  | channelPressure c p => s!"ChannelPressure ch:{channelNumber c} p:{p.toNat}"
  | pitchBend c v => s!"PitchBend ch:{channelNumber c} v:{v.toNat}"
  | quarterFrame d => s!"TimeCodeQuarterFrame \x7b data: {d.toNat} \x7d"
  | songPosition p => s!"SongPosition \x7b position: {p.toNat} \x7d"
  | songSelect s => s!"SongSelect \x7b song: {s.toNat} \x7d"
  | tuneRequest => "TuneRequest"
  | realtime k => k.text
  | sysEx x => x.text

end Message

end MidiPatch
