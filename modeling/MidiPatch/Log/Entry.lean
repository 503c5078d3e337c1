import MidiPatch.Text.Style

/-!
# Log entries
-/

namespace MidiPatch.Log

open Text

inductive Level
  | error
  | warn
  | info
  | debug
  | trace
  deriving DecidableEq, Repr

namespace Level

/-- Levels are numbered from the gravest on, starting at one. -/
def rank : Level → Nat
  | .error => 1
  | .warn => 2
  | .info => 3
  | .debug => 4
  | .trace => 5

def label : Level → String
  | .error => "ERROR"
  | .warn => " WARN"
  | .info => " INFO"
  | .debug => "DEBUG"
  | .trace => "TRACE"

def style : Level → Style
  | .error => .red
  | .warn => .yellow
  | .info => .green
  | .debug => .blue
  | .trace => .magenta

end Level

structure Entry where
  level : Level
  /-- The part of the program that the entry comes from. -/
  target : String
  text : String
  deriving DecidableEq, Repr

def lowerHexDigit (n : Nat) : Char :=
  if n < 10 then Char.ofNat ('0'.toNat + n) else Char.ofNat ('a'.toNat + (n - 10))

def twoHexDigits (n : Nat) : List Char := [lowerHexDigit (n / 16), lowerHexDigit (n % 16)]

/-- A character of an entry. Those that could control a terminal are shown by their number. -/
def shown (c : Char) : List Char :=
  let n := c.toNat
  if n = 0x1B ∨ n = 0x07 ∨ n = 0x08 ∨ n = 0x0C ∨ n = 0x7F then '\\' :: 'x' :: twoHexDigits n
  else if 0x80 ≤ n ∧ n ≤ 0x9F then '\\' :: 'u' :: '{' :: twoHexDigits n ++ ['}']
  else [c]

def Entry.line (color : Bool) (time : String) (e : Entry) : String :=
  paint color .dimmed time ++ " " ++ paint color e.level.style e.level.label ++ " " ++
    String.ofList (e.text.toList.flatMap shown) ++ "\n"

end MidiPatch.Log
