import MidiPatch.Yaml.Token.Scalar
import MidiPatch.Yaml.Token.Tag

/-!
# Tokens of a text

`tokens` cuts a text into tokens. Blocks have no closing mark of their own, so their ends are found
from the indentation. A key is only known as such when its colon is reached; where a key may stand,
its place is remembered and its token is inserted later.
-/

namespace MidiPatch.Yaml

/-- A place where a key may have begun. -/
structure KeyPlace where
  /-- How many tokens stand before it. -/
  token : Nat
  index : Nat
  line : Nat
  column : Nat
  /-- Set where nothing but a key may stand. -/
  required : Bool

structure Scan where
  cursor : Cursor
  tokens : Array Token := #[]
  /-- The column of the innermost block; -1 outside of any. -/
  indent : Int := -1
  /-- The columns of the blocks around it. -/
  indents : List Int := []
  /-- Whether a key may begin here. -/
  keyAllowed : Bool := true
  /-- The key places of the open flow collections, innermost first, and of the block around them. -/
  keys : List (Option KeyPlace) := [none]

namespace Scan

def inFlow (s : Scan) : Bool := s.keys.length > 1

def push (s : Scan) (t : Token) : Scan := { s with tokens := s.tokens.push t }

def pushMark (s : Scan) (n : Nat) (t : Token) : Scan :=
  { s with cursor := s.cursor.skip n }.push t

/-! ### Blocks -/

/-- How many of the open blocks are indented deeper than `column`, and what remains open. -/
def deeper (column : Int) : Int → List Int → Nat × Int × List Int
  | i, [] => (0, i, [])
  | i, j :: js =>
    if column < i then
      let (n, r) := deeper column j js
      (n + 1, r)
    else (0, i, j :: js)

/-- Ends the blocks that are indented deeper than `column`. -/
def closeBlocks (s : Scan) (column : Int) : Scan :=
  if s.inFlow then s
  else
    let (n, indent, indents) := deeper column s.indent s.indents
    { s with
      indent, indents
      tokens := s.tokens ++ Array.replicate n .blockEnd }

/-- Begins a block before the token with the given number, unless one is open at that column. -/
def openBlock (s : Scan) (column : Nat) (place : Nat) (t : Token) : Scan :=
  if s.inFlow || s.indent ≥ column then s
  else
    { s with
      indent := column
      indents := s.indent :: s.indents
      tokens := s.tokens.insertIdxIfInBounds place t }

/-! ### Keys -/

/-- Gives up the innermost key place; fails where a key is required. -/
def dropKey (s : Scan) : Option Scan :=
  match s.keys with
  | some k :: rest => if k.required then none else some { s with keys := none :: rest }
  | _ => some s

/-- Remembers that a key may begin here. -/
def saveKey (s : Scan) : Option Scan :=
  if s.keyAllowed then do
    let s' ← s.dropKey
    let k : KeyPlace :=
      { token := s.tokens.size
        index := s.cursor.index
        line := s.cursor.line
        column := s.cursor.column
        required := !s.inFlow && s.indent == s.cursor.column }
    some { s' with keys := some k :: s'.keys.tail }
  else some s

/-- A key stands on one line and has at most 1024 characters. -/
def KeyPlaceIsStale (k : KeyPlace) (c : Cursor) : Bool :=
  k.line < c.line || k.index + 1024 < c.index

/-- Gives up the key places that are too far back. -/
def dropStaleKeys (s : Scan) : Option Scan := do
  let keys ← s.keys.mapM fun key =>
    match key with
    | some k =>
      if KeyPlaceIsStale k s.cursor then
        if k.required then none else some none
      else some key
    | none => some none
  some { s with keys }

/-! ### Between tokens -/

/-- Passes white space, comments and line breaks. After a line break of a block a key may begin. -/
def skipSpace : Nat → Scan → Scan
  | 0, s => s
  | fuel + 1, s =>
    let c := s.cursor
    let c := if c.column == 0 && c.sees byteOrderMark then c.next else c
    let tabs := s.inFlow || !s.keyAllowed
    let c := (c.skipWhile fun x => x = ' ' || (tabs && x = '\t')).skipComment
    if c.peek.any isBreak then
      skipSpace fuel { s with cursor := c.nextLine, keyAllowed := s.keyAllowed || !s.inFlow }
    else { s with cursor := c }

/-! ### Tokens -/

/-- A token that ends all blocks: a directive or a document mark. -/
def endBlocks (s : Scan) : Option Scan := do
  let s ← (s.closeBlocks (-1)).dropKey
  some { s with keyAllowed := false }

def openFlow (s : Scan) (t : Token) : Option Scan := do
  let s ← s.saveKey
  some ({ s with keys := none :: s.keys, keyAllowed := true }.pushMark 1 t)

def closeFlow (s : Scan) (t : Token) : Option Scan := do
  let s ← s.dropKey
  let keys := if s.inFlow then s.keys.tail else s.keys
  some ({ s with keys, keyAllowed := false }.pushMark 1 t)

def flowEntry (s : Scan) : Option Scan := do
  let s ← s.dropKey
  some ({ s with keyAllowed := true }.pushMark 1 .flowEntry)

/-- An entry or a key with a mark of its own, where a block of its kind may begin. -/
def blockMark (s : Scan) (begins : Token) : Option Scan :=
  if s.inFlow then s.dropKey
  else if s.keyAllowed then (s.openBlock s.cursor.column s.tokens.size begins).dropKey
  else none

def blockEntry (s : Scan) : Option Scan := do
  let s ← s.blockMark .blockSequenceStart
  some ({ s with keyAllowed := true }.pushMark 1 .blockEntry)

def explicitKey (s : Scan) : Option Scan := do
  let s ← s.blockMark .blockMappingStart
  some ({ s with keyAllowed := !s.inFlow }.pushMark 1 .key)

/-- The colon behind a key, or one that stands for a key with a mark of its own. -/
def value (s : Scan) : Option Scan :=
  match s.keys with
  | some k :: rest =>
    let s := { s with tokens := s.tokens.insertIdxIfInBounds k.token .key }
    let s := s.openBlock k.column k.token .blockMappingStart
    some ({ s with keys := none :: rest, keyAllowed := false }.pushMark 1 .value)
  | _ =>
    if s.inFlow then some ({ s with keyAllowed := false }.pushMark 1 .value)
    else if s.keyAllowed then
      let s := s.openBlock s.cursor.column s.tokens.size .blockMappingStart
      some ({ s with keyAllowed := true }.pushMark 1 .value)
    else none

/-- A token that a key may begin with. -/
def keyed (s : Scan) (read : Scan → Option (Token × Cursor)) : Option Scan := do
  let s ← s.saveKey
  let (t, cursor) ← read s
  some ({ s with cursor, keyAllowed := false }.push t)

def quotedScalar (single : Bool) (s : Scan) : Option (Token × Cursor) := do
  let c := s.cursor.next
  let (text, c) ← Scalar.quoted single (c.rest.length + 1) [] c
  some (.scalar (String.ofList text) .quoted, c)

def blockScalar (s : Scan) (literal : Bool) : Option Scan := do
  let s ← s.dropKey
  let (text, cursor) ← Scalar.block literal s.indent s.cursor.next
  let style := if literal then Style.literal else .folded
  some ({ s with cursor, keyAllowed := true }.push (.scalar (String.ofList text) style))

def plainScalar (s : Scan) : Option Scan := do
  let s ← s.saveKey
  let c := s.cursor
  let (text, broken, cursor) ←
    Scalar.plain s.inFlow (s.indent + 1).toNat (c.rest.length + 1) [] {} c
  some ({ s with cursor, keyAllowed := broken }.push (.scalar (String.ofList text) .plain))

/-- The marks that a plain scalar does not begin with, the first three apart. -/
def isMark (x : Char) : Bool := ",[]\x7b\x7d#&*!|>'\"%@`".toList.contains x

/-- Whether a plain scalar begins with `x` where `y` follows. -/
def beginsPlain (inFlow : Bool) (x : Char) (y : Option Char) : Bool :=
  if x = '-' then !y.any isBlank
  else if x = '?' ∨ x = ':' then !inFlow && !isSpaceOrEnd y
  else !isBlank x && !isBreak x && !isMark x

/-- Adds the token that begins with `x`, the next character. -/
def token (s : Scan) (x : Char) : Option Scan :=
  let c := s.cursor
  let spaced := isSpaceOrEnd (c.ahead 1)
  if c.column = 0 ∧ x = '%' then do
    let s ← s.endBlocks
    let (t, cursor) ← directive s.cursor.next
    some ({ s with cursor }.push t)
  else if c.atDocumentMark then do
    let s ← s.endBlocks
    some (s.pushMark 3 (if x = '-' then .documentStart else .documentEnd))
  else if x = '[' then s.openFlow .flowSequenceStart
  else if x = '{' then s.openFlow .flowMappingStart
  else if x = ']' then s.closeFlow .flowSequenceEnd
  else if x = '}' then s.closeFlow .flowMappingEnd
  else if x = ',' then s.flowEntry
  else if x = '-' ∧ spaced then s.blockEntry
  else if x = '?' ∧ (s.inFlow ∨ spaced) then s.explicitKey
  else if x = ':' ∧ (s.inFlow ∨ spaced) then s.value
  else if x = '*' then s.keyed fun s => do
    let (name, c) ← anchorName s.cursor.next
    some (.alias name, c)
  else if x = '&' then s.keyed fun s => do
    let (name, c) ← anchorName s.cursor.next
    some (.anchor name, c)
  else if x = '!' then s.keyed fun s => tag s.inFlow s.cursor
  else if x = '|' ∧ !s.inFlow then s.blockScalar true
  else if x = '>' ∧ !s.inFlow then s.blockScalar false
  else if x = '\'' then s.keyed (quotedScalar true)
  else if x = '"' then s.keyed (quotedScalar false)
  else if beginsPlain s.inFlow x (c.ahead 1) then s.plainScalar
  else none

/-- Adds tokens up to the end of the text. -/
def run : Nat → Scan → Option (List Token)
  | 0, _ => none
  | fuel + 1, s => do
    let s ← (skipSpace (s.cursor.rest.length + 1) s).dropStaleKeys
    let s := s.closeBlocks s.cursor.column
    match s.cursor.peek with
    | none =>
      let s ← s.endBlocks
      some s.tokens.toList
    | some x => run fuel (← s.token x)

end Scan

def tokens (text : String) : Option (List Token) :=
  let characters := text.toList
  if characters.all isAllowed then
    Scan.run (characters.length + 1) { cursor := { rest := characters } }
  else none

end MidiPatch.Yaml
