import MidiPatch.Yaml.Node
import MidiPatch.Yaml.Token.Stream

/-!
# Reading a document

The productions of the YAML grammar over tokens. Each takes fuel; every step down or along costs one
and passes a token at the latest in the next step, so a small multiple of the number of tokens is
enough.
-/

namespace MidiPatch.Yaml

structure Reading where
  rest : List Token
  /-- What tag handles stand for. -/
  handles : List (String × String) := []
  /-- The anchor numbers of the names in use, the latest first. -/
  names : List (String × Nat) := []
  /-- The numbers of all anchors in the order they appeared. -/
  anchors : List Nat := []
  /-- The nodes that are complete, each with its place in the order of anchors. -/
  nodes : List (Nat × Node) := []

abbrev Parser := StateT Reading Option

namespace Parser

def peek : Parser (Option Token) := return (← get).rest.head?

def skip : Parser Unit := modify fun r => { r with rest := r.rest.tail }

def sees (ts : List Token) : Parser Bool := return (← peek).any (ts.contains ·)

def accept (t : Token) : Parser Bool := do
  let found ← sees [t]
  if found then skip
  return found

/-! ### Anchors and tags -/

/-- How many different anchor names are in use. -/
def nameCount (names : List (String × Nat)) : Nat := (names.map (·.1)).eraseDups.length

/--
Numbers an anchor by the names in use before it, so an anchor with a name that is in use takes a new
number and the next new name shares it. Gives the anchor's place in the order of anchors.
-/
def declare (name : String) : Parser Nat := do
  let r ← get
  let number := nameCount r.names
  set { r with names := (name, number) :: r.names, anchors := r.anchors ++ [number] }
  return r.anchors.length

def complete (place : Option Nat) (n : Node) : Parser Unit :=
  match place with
  | none => return
  | some place => modify fun r => { r with nodes := (place, n) :: r.nodes }

/-- The tag that a handle and a suffix stand for. -/
def tagOf (handle suffix : String) : Parser String := do
  if handle.isEmpty then return suffix
  else
    match (← get).handles.lookup handle with
    | some meaning => return meaning ++ suffix
    | none => failure

def anchor : Parser (Option String) := do
  match ← peek with
  | some (.anchor name) =>
    skip
    return some name
  | _ => return none

def tag : Parser (Option (String × String)) := do
  match ← peek with
  | some (.tag handle suffix) =>
    skip
    return some (handle, suffix)
  | _ => return none

/-- An anchor and a tag in either order. -/
def properties : Parser (Option String × Option String) := do
  let first ← anchor
  let written ← tag
  let name ← if first.isNone && written.isSome then anchor else pure first
  return (name, ← written.mapM fun t => tagOf t.1 t.2)

/-! ### Nodes -/

/-- The tag of a scalar. A lone mark says that it has none. -/
def scalarTag (tag : Option String) : Option String := if tag == some "!" then none else tag

/-- The empty scalar where one of the given tokens comes next. -/
def emptyAt (ends : List Token) (p : Parser Node) : Parser Node := do
  if ← sees ends then return .empty none else p

inductive Place
  | flow
  | block
  /-- In a block mapping, where a sequence need not be indented. -/
  | blockEntry
  deriving DecidableEq

mutual

def node (place : Place) : Nat → Parser Node
  | 0 => failure
  | fuel + 1 => do
    match ← peek with
    | some (.alias name) =>
      skip
      match (← get).names.lookup name with
      | some number => return .alias number
      | none => failure
    | _ =>
      let (name, tag) ← properties
      let position ← name.mapM declare
      let n ← content place (name.isSome || tag.isSome) tag fuel
      complete position n
      return n

/-- What follows the properties of a node. Nothing may follow only where there are some. -/
def content (place : Place) (mayBeEmpty : Bool) (tag : Option String) : Nat → Parser Node
  | 0 => failure
  | fuel + 1 => do
    match ← peek with
    | some (.scalar text style) =>
      skip
      return .scalar text style (scalarTag tag)
    | some .flowSequenceStart =>
      skip
      return .sequence (← flowItems true fuel) tag
    | some .flowMappingStart =>
      skip
      return .mapping (← flowEntries true fuel) tag
    | next =>
      if place = .blockEntry ∧ next = some .blockEntry then
        return .sequence (← looseItems fuel) tag
      else if place ≠ .flow ∧ next = some .blockSequenceStart then
        skip
        return .sequence (← blockItems fuel) tag
      else if place ≠ .flow ∧ next = some .blockMappingStart then
        skip
        return .mapping (← blockEntries fuel) tag
      else if mayBeEmpty then return .empty tag
      else failure

def blockItems : Nat → Parser (List Node)
  | 0 => failure
  | fuel + 1 => do
    if ← accept .blockEntry then
      let item ← emptyAt [.blockEntry, .blockEnd] (node .block fuel)
      return item :: (← blockItems fuel)
    else if ← accept .blockEnd then return []
    else failure

/-- The items of a sequence that is not indented. It has no end of its own. -/
def looseItems : Nat → Parser (List Node)
  | 0 => failure
  | fuel + 1 => do
    if ← accept .blockEntry then
      let item ← emptyAt [.blockEntry, .key, .value, .blockEnd] (node .block fuel)
      return item :: (← looseItems fuel)
    else return []

def blockEntries : Nat → Parser (List (Node × Node))
  | 0 => failure
  | fuel + 1 => do
    if ← accept .key then
      let part := emptyAt [.key, .value, .blockEnd] (node .blockEntry fuel)
      let key ← part
      let value ← if ← accept .value then part else pure (.empty none)
      return (key, value) :: (← blockEntries fuel)
    else if ← accept .blockEnd then return []
    else failure

def flowItems (first : Bool) : Nat → Parser (List Node)
  | 0 => failure
  | fuel + 1 => do
    if ← accept .flowSequenceEnd then return []
    else if !first && !(← accept .flowEntry) then failure
    else if ← accept .flowSequenceEnd then return []
    else if ← accept .key then
      let entry ← singleEntry fuel
      return .mapping [entry] none :: (← flowItems false fuel)
    else
      let item ← node .flow fuel
      return item :: (← flowItems false fuel)

/--
A single entry in a flow sequence. Without a key, the token after the key's mark is passed over.
-/
def singleEntry : Nat → Parser (Node × Node)
  | 0 => failure
  | fuel + 1 => do
    let empty := Node.empty none
    let key ←
      if ← sees [.value, .flowEntry, .flowSequenceEnd] then
        skip
        pure empty
      else node .flow fuel
    let value ←
      if ← accept .value then emptyAt [.flowEntry, .flowSequenceEnd] (node .flow fuel)
      else pure empty
    return (key, value)

def flowEntries (first : Bool) : Nat → Parser (List (Node × Node))
  | 0 => failure
  | fuel + 1 => do
    let empty := Node.empty none
    if ← accept .flowMappingEnd then return []
    else if !first && !(← accept .flowEntry) then failure
    else if ← accept .flowMappingEnd then return []
    else if ← accept .key then
      let key ← emptyAt [.value, .flowEntry, .flowMappingEnd] (node .flow fuel)
      let value ←
        if ← accept .value then emptyAt [.flowEntry, .flowMappingEnd] (node .flow fuel)
        else pure empty
      return (key, value) :: (← flowEntries false fuel)
    else
      let key ← node .flow fuel
      return (key, empty) :: (← flowEntries false fuel)

end

/-! ### Documents -/

/-- The handles that need no directive. -/
def standardHandles : List (String × String) := [("!", "!"), ("!!", "tag:yaml.org,2002:")]

/-- The directives of a document: at most one version, and handles with different names. -/
def directives (versioned : Bool) : Nat → Parser Bool
  | 0 => failure
  | fuel + 1 => do
    match ← peek with
    | some (.version major minor) =>
      if versioned || major != 1 || (minor != 1 && minor != 2) then failure
      else
        skip
        directives true fuel
    | some (.handle name meaning) =>
      if ((← get).handles.lookup name).isSome then failure
      else
        skip
        modify fun r => { r with handles := (name, meaning) :: r.handles }
        directives versioned fuel
    | _ => return versioned

/-- The one document of a text, with or without a mark at its start. -/
def document (fuel : Nat) : Parser Node := do
  let versioned ← directives false fuel
  let directed := versioned || !(← get).handles.isEmpty
  let marked ← accept .documentStart
  if directed && !marked then failure
  modify fun r => { r with handles := r.handles ++ standardHandles }
  let empty ←
    if marked then do
      match ← peek with
      | none => pure true
      | some t => pure (t matches .version .. | .handle .. | .documentStart | .documentEnd)
    else pure false
  let root ← if empty then pure (.empty none) else node .block fuel
  if (← get).rest.all (· = .documentEnd) then return root else failure

end Parser

namespace Document

/-- The nodes of the anchors by number; of anchors with one number, the last one's. -/
def anchoredNodes (r : Reading) : List (Nat × Node) :=
  (r.anchors.zipIdx.reverse).filterMap fun (number, place) =>
    (r.nodes.lookup place).map fun n => (number, n)

def ofTokens? (ts : List Token) : Option Document := do
  let (root, r) ← (Parser.document (3 * ts.length + 3)).run { rest := ts }
  some { root, anchored := anchoredNodes r }

/-- The document in a text; none if the text is not one YAML document. -/
def ofText? (text : String) : Option Document := do ofTokens? (← tokens text)

end Document

end MidiPatch.Yaml
