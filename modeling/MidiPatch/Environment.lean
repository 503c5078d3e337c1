/-!
# Environment variables
-/

namespace MidiPatch

/-- The variables that are set. -/
abbrev Environment := List (String × String)

namespace Environment

def get? (e : Environment) (name : String) : Option String := e.lookup name

def setNew (e : Environment) (name value : String) : Environment :=
  if (e.get? name).isSome then e else (name, value) :: e

end Environment

end MidiPatch
