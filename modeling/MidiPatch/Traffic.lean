import MidiPatch.Message.Bytes
import MidiPatch.Message.Text
import MidiPatch.Text.Style
import MidiPatch.Wire.Hex

/-!
# Showing traffic

One line per message: when it came, from which port, its bytes, and what it says.
-/

namespace MidiPatch.Traffic

open Text

structure Event where
  time : Nat
  port : String
  message : Message

def portWidth : Nat := 20

/-- A port name of at most the width of its column. -/
def shortened (name : String) : String :=
  if name.length > portWidth then String.ofList (name.toList.take (portWidth - 3)) ++ "..."
  else name

/-- A number with zeros in front of it up to eight digits. -/
def eightDigits (n : Nat) : String := String.ofList ((toString n).toList.leftpad 8 '0')

/-- The style that the bytes of a message are shown in. -/
def bytesStyle : Message → Style
  | .noteOn .. => .brightGreen
  | .noteOff .. => .brightRed
  | .controlChange .. => .brightYellow
  | .pitchBend .. => .brightCyan
  | .sysEx _ => .brightMagenta
  | .realtime _ => .dimmed
  | _ => .normal

def lineAt (color : Bool) (time : String) (e : Event) : String :=
  "[" ++ paint color .dimmed time ++ "ms] " ++
    paintWide color .white portWidth (shortened e.port) ++ " | " ++
    paint color (bytesStyle e.message) (Wire.hexText e.message.encode) ++ " => " ++
    paint color .brightBlue e.message.text

def line (color : Bool) (e : Event) : String := lineAt color (eightDigits e.time) e

def header (color : Bool) : String :=
  paint color .green "Monitoring MIDI traffic..." ++ "\n" ++
    paint color .dimmed "Format: [timestamp] PORT | HEX => PARSED" ++ "\n" ++
    paint color .dimmed (String.ofList (List.replicate 80 '─')) ++ "\n"

end MidiPatch.Traffic
