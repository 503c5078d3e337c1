import MidiPatch.Link.Basic
import MidiPatch.Text.Case
import MidiPatch.Text.Style

/-!
# The ports of the host

Host ports are found by a part of their name. This host has no MIDI support, so no client can be
made and every attempt to list or open a port fails in the same way.
-/

namespace MidiPatch.Host

open Text

def clientName : String := "midi-bridge"

/-- Whether a port name contains a pattern. Capital and small letters count as the same. -/
def nameMatches (name pattern : String) : Bool :=
  occursIn (lowercase pattern).toList (lowercase name).toList

def noClient : LinkError := .connect clientName "MIDI support could not be initialized"

def inputNames : Except LinkError (List String) := .error noClient

def outputNames : Except LinkError (List String) := .error noClient

/-- Opens the first input whose name contains the pattern. No input can be opened here. -/
def openInput (_pattern : String) : Except LinkError Empty := .error noClient

/-- Opens the first output whose name contains the pattern. No output can be opened here. -/
def openOutput (_pattern : String) : Except LinkError Empty := .error noClient

/-! ### Listing -/

def listed (color : Bool) : Except LinkError (List String) → List String
  | .ok names => names.zipIdx.map fun (name, i) => s!"  {i}: {name}"
  | .error e => ["  " ++ paint color .red e.message]

def listingUnder (color : Bool) (heading : String) (names : Except LinkError (List String)) :
    List String :=
  "" :: paint color .boldCyan heading :: listed color names

def listing (color : Bool) : String :=
  let lines :=
    listingUnder color "=== MIDI Input Ports ===" inputNames ++
      listingUnder color "=== MIDI Output Ports ===" outputNames ++ [""]
  String.join (lines.map (· ++ "\n"))

end MidiPatch.Host
