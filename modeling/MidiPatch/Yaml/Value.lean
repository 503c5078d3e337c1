/-!
# Values to be written as YAML
-/

namespace MidiPatch.Yaml

inductive Value
  | bool (b : Bool)
  | number (n : Nat)
  | text (s : String)
  | sequence (items : List Value)
  /-- The keys are plain words. -/
  | mapping (entries : List (String × Value))
  deriving Repr

namespace Value

def boolText (b : Bool) : String := if b then "true" else "false"

/-- An entry that is only there if it has a value. -/
def entryIf (name : String) (v : Option Value) : List (String × Value) :=
  (v.map fun v => (name, v)).toList

end Value

end MidiPatch.Yaml
