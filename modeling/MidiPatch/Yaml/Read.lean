import MidiPatch.Yaml.Node
import MidiPatch.Yaml.Plain

/-!
# Reading values out of a document

A reader asks for the kind of value it expects, follows aliases, and fails where a node is of
another kind. A document that makes it follow far more aliases than it has nodes is refused.
-/

namespace MidiPatch.Yaml

/-- Reads a document, counting the aliases followed. -/
abbrev Read := ReaderT Document (StateT Nat Option)

namespace Read

/-- How many aliases may be followed in a document. -/
def followLimit (d : Document) : Nat := 100 * d.root.size

def resolve : Node → Read Node
  | .alias anchor => do
    let d ← read
    let followed ← get
    if followed < followLimit d then
      set (followed + 1)
      match d.target? anchor with
      | some n => return n
      | none => failure
    else failure
  | n => return n

/-- The tag of the standard kinds. -/
def standardTag (kind : String) : String := "tag:yaml.org,2002:" ++ kind

def text (n : Node) : Read String := do
  match ← resolve n with
  | .scalar s _ _ => return s
  | _ => failure

/-- The text of a plain scalar, or of a literal block that a tag says the kind of. -/
def bareText (kind : String) (n : Node) : Read String := do
  match ← resolve n with
  | .scalar s .plain _ => return s
  | .scalar s .literal (some tag) => if tag = standardTag kind then return s else failure
  | _ => failure

def bool (n : Node) : Read Bool := do
  match Plain.bool? (← bareText "bool" n) with
  | some b => return b
  | none => failure

def natural (bound : Nat) (n : Node) : Read Nat := do
  match Plain.natural? (← bareText "int" n) with
  | some v => if v < bound then return v else failure
  | none => failure

def byte (n : Node) : Read UInt8 := return (← natural UInt8.size n).toUInt8

def word (n : Node) : Read UInt64 := return (← natural UInt64.size n).toUInt64

/-- The items of a sequence. Where nothing is written there are none. -/
def items (n : Node) : Read (List Node) := do
  match ← resolve n with
  | .sequence ns _ => return ns
  | .scalar s .plain _ => if s.isEmpty then return [] else failure
  | _ => failure

/-- The entries of a mapping with scalar keys. Where nothing is written there are none. -/
def fields (n : Node) : Read (List (String × Node)) := do
  match ← resolve n with
  | .mapping es _ => es.mapM fun (k, v) => return (← text k, v)
  | .scalar s .plain _ => if s.isEmpty then return [] else failure
  | _ => failure

/-- The value of a field, which must not be there twice. -/
def field? (name : String) (fields : List (String × Node)) : Read (Option Node) :=
  match fields.filter (·.1 = name) with
  | [] => return none
  | [(_, v)] => return some v
  | _ => failure

/-- Whether nothing is meant: a plain scalar that is empty or null, or one with the tag of null. -/
def isAbsent (n : Node) : Read Bool :=
  match n with
  | .scalar s .plain none => return s.isEmpty || Plain.isNull s
  | .scalar s .plain (some tag) =>
    if tag = standardTag "null" then if Plain.isNull s then return true else failure
    else return false
  | _ => return false

variable {α : Type}

def list (read : Node → Read α) (n : Node) : Read (List α) := do (← items n).mapM read

/-- A field that must be there. -/
def required (name : String) (read : Node → Read α) (fields : List (String × Node)) : Read α := do
  match ← field? name fields with
  | some n => read n
  | none => failure

/-- A field that may be left out. -/
def orDefault (name : String) (default : α) (read : Node → Read α)
    (fields : List (String × Node)) : Read α := do
  match ← field? name fields with
  | some n => read n
  | none => return default

/-- A field that may be left out or null. -/
def optional (name : String) (read : Node → Read α) (fields : List (String × Node)) :
    Read (Option α) := do
  match ← field? name fields with
  | none => return none
  | some n =>
    let n ← resolve n
    if ← isAbsent n then return none else return some (← read n)

/-- The name of one of several choices: a scalar, or a tag of its own with nothing behind it. -/
def choice (n : Node) : Read String := do
  match ← resolve n with
  | .scalar s style tag =>
    match tag.bind fun t => t.dropPrefix? "!" with
    | none => return s
    | some name =>
      if style = .plain ∧ (s.isEmpty ∨ Plain.isNull s) then return name.toString else failure
  | _ => failure

def run (read : Node → Read α) (d : Document) : Option α := ((read d.root d).run 0).map (·.1)

end Read

end MidiPatch.Yaml
