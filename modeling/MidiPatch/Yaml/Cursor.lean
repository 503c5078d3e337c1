import MidiPatch.Yaml.Character

/-!
# A place in a text

A `Cursor` is the text still to be read and how far into the text, the line and the column it
starts.
-/

namespace MidiPatch.Yaml

structure Cursor where
  rest : List Char
  index : Nat := 0
  line : Nat := 0
  column : Nat := 0
  deriving Repr

namespace Cursor

def peek (c : Cursor) : Option Char := c.rest.head?

def ahead (c : Cursor) (n : Nat) : Option Char := c.rest[n]?

def atEnd (c : Cursor) : Bool := c.rest.isEmpty

def sees (c : Cursor) (x : Char) : Bool := c.peek == some x

def next (c : Cursor) : Cursor :=
  if c.atEnd then c
  else { c with rest := c.rest.tail, index := c.index + 1, column := c.column + 1 }

def skip (c : Cursor) : Nat → Cursor
  | 0 => c
  | n + 1 => c.next.skip n

/-- Passes a line break, if there is one. A carriage return takes a line feed after it along. -/
def nextLine (c : Cursor) : Cursor :=
  match c.rest with
  | '\r' :: '\n' :: rest => { rest, index := c.index + 2, line := c.line + 1 }
  | x :: rest => if isBreak x then { rest, index := c.index + 1, line := c.line + 1 } else c
  | [] => c

/-- Passes characters of a line as long as they are in a class; gives them too. -/
def takeWhile (p : Char → Bool) (c : Cursor) : List Char × Cursor :=
  let taken := c.rest.takeWhile p
  (taken,
    { c with
      rest := c.rest.dropWhile p
      index := c.index + taken.length
      column := c.column + taken.length })

def skipWhile (p : Char → Bool) (c : Cursor) : Cursor := (c.takeWhile p).2

def skipComment (c : Cursor) : Cursor :=
  if c.sees '#' then c.skipWhile (!isBreak ·) else c

/-- Whether a line with a document mark starts here. -/
def atDocumentMark (c : Cursor) : Bool :=
  c.column == 0 && (c.rest.take 3 == ['-', '-', '-'] || c.rest.take 3 == ['.', '.', '.']) &&
    isSpaceOrEnd (c.ahead 3)

end Cursor

end MidiPatch.Yaml
