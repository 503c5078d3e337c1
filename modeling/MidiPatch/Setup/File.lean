import MidiPatch.Folder
import MidiPatch.Setup.Check
import MidiPatch.Setup.Tree
import MidiPatch.Yaml.Node.Reader
import MidiPatch.Yaml.Value.Writer

/-!
# Setup files

A setup is loaded only if it passes its check; any setup can be saved.
-/

namespace MidiPatch.Setup

inductive TextError
  /-- It is not YAML, or not of the right shape. -/
  | unparsed
  | faulty (fault : Fault)
  deriving DecidableEq, Repr

def TextError.message : TextError → String
  | .unparsed => "Failed to parse YAML config"
  | .faulty fault => fault.message

inductive LoadError
  | unreadable (path : String) (cause : Folder.Error)
  | invalid (path : String) (cause : TextError)
  deriving DecidableEq, Repr

namespace LoadError

def message : LoadError → String
  | .unreadable path _ => s!"Failed to read config file: {path}"
  | .invalid path _ => s!"Invalid config file: {path}"

def causeMessage : LoadError → String
  | .unreadable _ cause => cause.message
  | .invalid _ cause => cause.message

end LoadError

structure SaveError where
  path : String
  cause : Folder.Error
  deriving DecidableEq, Repr

def SaveError.message (e : SaveError) : String := s!"Failed to write config file: {e.path}"

def ofText (text : String) : Except TextError Setup :=
  match (Yaml.Document.ofText? text).bind ofDocument? with
  | none => .error .unparsed
  | some s =>
    match s.check with
    | .ok () => .ok s
    | .error fault => .error (.faulty fault)

def text (s : Setup) : String := s.value.render

/-- The setup in a file, by what reading the file gave. -/
def ofFile (path : String) (contents : Except Folder.Error String) : Except LoadError Setup :=
  match contents with
  | .error cause => .error (.unreadable path cause)
  | .ok text => (ofText text).mapError (.invalid path)

def load (folder : Folder) (path : String) : Except LoadError Setup :=
  ofFile path (folder.readText path)

def save (s : Setup) (folder : Folder) (path : String) : Except SaveError Folder :=
  (folder.writeText path s.text).mapError ({ path, cause := · })

end MidiPatch.Setup
