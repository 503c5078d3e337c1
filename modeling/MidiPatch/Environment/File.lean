import MidiPatch.Environment
import MidiPatch.Text.Space

/-!
# Files of environment variables

A file holds one variable a line; a value in quotes may span lines. Variables are set as the file is
read, those that are set already stay as they are, and reading stops at the first line that is not
understood.
-/

namespace MidiPatch.Environment

open Text

/-! ### Lines -/

/-- Where the reader of lines stands with respect to quotes. -/
inductive LineState
  | complete
  | escape
  | strong
  | strongEscape
  | weak
  | weakEscape
  | space
  | comment
  deriving DecidableEq

/-- The state after one more character outside of quotes. -/
def LineState.outside (c : Char) (otherwise : LineState) : LineState :=
  if c = '\\' then .escape
  else if c = '"' then .weak
  else if c = '\'' then .strong
  else otherwise

def LineState.next (s : LineState) (c : Char) : LineState :=
  match s with
  | .space => if c = '#' then .comment else outside c .complete
  | .escape => .complete
  | .complete => if isSpace c && c != '\n' && c != '\r' then .space else outside c .complete
  | .weak => if c = '\\' then .weakEscape else if c = '"' then .complete else .weak
  | .weakEscape => .weak
  | .strong => if c = '\\' then .strongEscape else if c = '\'' then .complete else .strong
  | .strongEscape => .strong
  | .comment => .comment

def passLine : LineState → List Char → LineState × List Char
  | s, [] => (s, [])
  | s, c :: rest =>
    match s.next c with
    | .comment => (.comment, [])
    | s =>
      let (s, passed) := passLine s rest
      (s, c :: passed)

def cutLine (cs : List Char) : List Char × List Char :=
  match cs.dropWhile (· ≠ '\n') with
  | [] => (cs, [])
  | feed :: rest => (cs.takeWhile (· ≠ '\n') ++ [feed], rest)

def withoutBreak (cs : List Char) : List Char :=
  match cs.reverse with
  | '\n' :: '\r' :: rest => rest.reverse
  | '\n' :: rest => rest.reverse
  | _ => cs

/-- The lines of a text, joined where a quote is open; none stands for an end inside of one. -/
def joinedLines : Nat → LineState → List Char → List Char → List (Option (List Char))
  | 0, _, _, _ => []
  | fuel + 1, state, line, cs =>
    if cs.isEmpty then if state = .complete then [] else [none]
    else
      let (next, rest) := cutLine cs
      if (trimLeft (line ++ next)).head? = some '#' then
        some [] :: joinedLines fuel .complete [] rest
      else
        let (state, passed) := passLine state next
        if state = .comment then some (line ++ passed) :: joinedLines fuel .complete [] rest
        else if state = .complete then
          some (withoutBreak (line ++ passed)) :: joinedLines fuel .complete [] rest
        else joinedLines fuel state (line ++ passed) rest

/-! ### Values -/

/-- Whether the name of another variable is being read. -/
inductive NameState
  | none
  | bare (name : List Char)
  | braced (name : List Char)

structure ValueState where
  output : List Char := []
  strong : Bool := false
  weak : Bool := false
  escaped : Bool := false
  /-- Set behind a blank: only a comment may follow. -/
  ended : Bool := false
  name : NameState := .none

def escapedValue? (c : Char) : Option Char :=
  if c = '\\' || c = '\'' || c = '"' || c = '$' || c = ' ' then some c
  else if c = 'n' then some '\n'
  else none

def ValueState.substitute (lookup : String → String) (s : ValueState) (name : List Char) :
    ValueState :=
  { s with output := s.output ++ (lookup (String.ofList name)).toList, name := .none }

def ValueState.nextOfName (lookup : String → String) (s : ValueState) (c : Char) : ValueState :=
  match s.name with
  | .none => s
  | .bare name =>
    if c.isAlphanum then { s with name := .bare (name ++ [c]) }
    else if c = '{' && name.isEmpty then { s with name := .braced [] }
    else
      let s := s.substitute lookup name
      if c = '$' then { s with name := .bare [] } else { s with output := s.output ++ [c] }
  | .braced name =>
    if c = '}' then s.substitute lookup name else { s with name := .braced (name ++ [c]) }

/-- One more character outside of names, escapes and strong quotes. -/
def ValueState.nextPlain (s : ValueState) (c : Char) : ValueState :=
  if c = '$' then { s with name := .bare [] }
  else if s.weak then
    if c = '"' then { s with weak := false }
    else if c = '\\' then { s with escaped := true }
    else { s with output := s.output ++ [c] }
  else if c = '\'' then { s with strong := true }
  else if c = '"' then { s with weak := true }
  else if c = '\\' then { s with escaped := true }
  else if c = ' ' || c = '\t' then { s with ended := true }
  else { s with output := s.output ++ [c] }

def value (lookup : String → String) : ValueState → List Char → Option String
  | s, [] =>
    match s.name with
    | .braced _ => none
    | .bare name => finish (s.substitute lookup name)
    | .none => finish s
  | s, c :: rest =>
    if s.ended then
      if c = ' ' || c = '\t' then value lookup s rest
      else if c = '#' then finish s
      else none
    else if s.escaped then
      match escapedValue? c with
      | some d => value lookup { s with output := s.output ++ [d], escaped := false } rest
      | none => none
    else if s.strong then
      if c = '\'' then value lookup { s with strong := false } rest
      else value lookup { s with output := s.output ++ [c] } rest
    else
      match s.name with
      | .none => value lookup (s.nextPlain c) rest
      | _ => value lookup (s.nextOfName lookup c) rest
where
  finish (s : ValueState) : Option String :=
    if s.strong || s.weak then none else some (String.ofList s.output)

/-! ### Assignments -/

def isKeyStart (c : Char) : Bool := c.isAlpha || c = '_'

def isKeyPart (c : Char) : Bool := c.isAlphanum || c = '_' || c = '.'

/-- The name of a variable and what follows it and white space. -/
def key? (cs : List Char) : Option (String × List Char) :=
  if cs.head?.any isKeyStart then
    some (String.ofList (cs.takeWhile isKeyPart), trimLeft (cs.dropWhile isKeyPart))
  else none

def afterEquals? : List Char → Option (List Char)
  | '=' :: rest => some rest
  | _ => none

/-- The name and the text of the value. The word that exports a variable may stand in front. -/
def assignment? (cs : List Char) : Option (String × List Char) := do
  let (name, rest) ← key? cs
  match afterEquals? rest with
  | some text => some (name, trimLeft text)
  | none =>
    if name = "export" then
      let (name, rest) ← key? rest
      some (name, trimLeft (← afterEquals? rest))
    else none

/-- The environment while a file is read, and the variables of the file so far. -/
structure FileState where
  environment : Environment
  known : Environment := []

/-- What a name in a value stands for: a variable that is set, else one of the file. -/
def FileState.lookup (s : FileState) (name : String) : String :=
  ((s.environment.get? name).or (s.known.get? name)).getD ""

def FileState.assign (s : FileState) (name value : String) : FileState :=
  { environment := s.environment.setNew name value, known := (name, value) :: s.known }

def FileState.readLine (s : FileState) (line : List Char) : Option FileState :=
  let cs := trimLeft (trimRight line)
  if cs.isEmpty || cs.head? = some '#' then some s
  else do
    let (name, text) ← assignment? cs
    if text.isEmpty || text.head? = some '#' then some (s.assign name "")
    else some (s.assign name (← value s.lookup {} text))

/-- Reads lines up to the first that is not understood. -/
def FileState.readLines (s : FileState) : List (Option (List Char)) → FileState
  | [] => s
  | line :: rest =>
    match line.bind s.readLine with
    | some s => s.readLines rest
    | none => s

/-- Sets the variables of a file. A byte order mark in front is passed over. -/
def readFile (e : Environment) (text : String) : Environment :=
  let cs := text.toList
  let cs := if cs.head? = some '\uFEFF' then cs.tail else cs
  let s : FileState := { environment := e }
  (s.readLines (joinedLines (cs.length + 2) .complete [] cs)).environment

end MidiPatch.Environment
