import MidiPatch.Yaml.Plain
import MidiPatch.Yaml.Value

/-!
# Writing values

`Value.render` writes a value as a block. A text is written plain where it reads back as itself,
else in single quotes, else in double quotes with escapes; a text of several lines is written as a
literal block where that keeps all of it.
-/

namespace MidiPatch.Yaml

/-! ### How a text may be written -/

/-- Whether two neighbours are as given. -/
def hasNeighbours (p : Char → Char → Bool) (cs : List Char) : Bool :=
  (cs.zip cs.tail).any fun (a, b) => p a b

/-- Blanks before a line break are lost, except in double quotes. -/
def hasBlankBeforeBreak : List Char → Bool := hasNeighbours fun a b => a = ' ' && isBreak b

/-- Blanks after a line break are lost in single quotes. -/
def hasBlankAfterBreak : List Char → Bool := hasNeighbours fun a b => isBreak a && b = ' '

/-- The characters that no plain scalar begins with. -/
def isIndicator (c : Char) : Bool := "#,[]\x7b\x7d&*!|>'\"%@`".toList.contains c

/-- Whether the beginning of a text would be taken for something else. -/
def beginsLikeMark (cs : List Char) : Bool :=
  cs.take 3 == ['-', '-', '-'] || cs.take 3 == ['.', '.', '.'] ||
    match cs with
    | c :: rest => isIndicator c || ((c = '?' || c = '-') && isSpaceOrEnd rest.head?)
    | [] => false

/-- Whether a text holds a colon that ends a key, or the sign of a comment. -/
def holdsMark (cs : List Char) : Bool :=
  cs.getLast? == some ':' ||
    hasNeighbours (fun a b => a = ':' && isSpaceOrEnd (some b)) cs ||
    hasNeighbours (fun a b => isSpaceOrEnd (some a) && b = '#') cs

def blockAllowed (cs : List Char) : Bool :=
  cs.all isPrintable && !hasBlankBeforeBreak cs && cs.getLast? != some ' '

def singleQuotesAllowed (cs : List Char) : Bool :=
  cs.all isPrintable && !hasBlankBeforeBreak cs && !hasBlankAfterBreak cs

def plainAllowed (cs : List Char) : Bool :=
  cs.all isPrintable && !cs.any isBreak && cs.head? != some ' ' && cs.getLast? != some ' ' &&
    !beginsLikeMark cs && !holdsMark cs

/-! ### Scalars -/

def blanks (n : Nat) : List Char := List.replicate n ' '

def indented (indent : Nat) : Bool → List Char → List Char
  | _, [] => []
  | afterBreak, c :: rest =>
    if isBreak c then c :: indented indent true rest
    else (if afterBreak then blanks indent else []) ++ c :: indented indent false rest

/-- A text in single quotes. Line breaks in it are other than line feeds. -/
def inSingleQuotes (indent : Nat) (cs : List Char) : List Char :=
  let doubled := cs.flatMap fun c => if c = '\'' then ['\'', '\''] else [c]
  let last := if cs.getLast?.any isBreak then blanks indent else []
  '\'' :: indented indent false doubled ++ last ++ ['\'']

/-- The escape of one letter for a character. -/
def letterEscape? (c : Char) : Option Char :=
  match c.toNat with
  | 0x00 => some '0'
  | 0x07 => some 'a'
  | 0x08 => some 'b'
  | 0x09 => some 't'
  | 0x0A => some 'n'
  | 0x0B => some 'v'
  | 0x0C => some 'f'
  | 0x0D => some 'r'
  | 0x1B => some 'e'
  | 0x22 => some '"'
  | 0x5C => some '\\'
  | 0x85 => some 'N'
  | 0xA0 => some '_'
  | 0x2028 => some 'L'
  | 0x2029 => some 'P'
  | _ => none

def upperHexDigit (n : Nat) : Char :=
  if n < 10 then Char.ofNat ('0'.toNat + n) else Char.ofNat ('A'.toNat + (n - 10))

/-- A number in the given count of hexadecimal digits. -/
def hexDigits : Nat → Nat → List Char
  | 0, _ => []
  | count + 1, n => hexDigits count (n / 16) ++ [upperHexDigit (n % 16)]

/-- The escape by number for a character. -/
def numberEscape (c : Char) : List Char :=
  let n := c.toNat
  if n ≤ 0xFF then 'x' :: hexDigits 2 n
  else if n ≤ 0xFFFF then 'u' :: hexDigits 4 n
  else 'U' :: hexDigits 8 n

def escaped (c : Char) : List Char :=
  if isPrintable c && !isBreak c && c != '"' && c != '\\' then [c]
  else
    match letterEscape? c with
    | some e => ['\\', e]
    | none => '\\' :: numberEscape c

def inDoubleQuotes (cs : List Char) : List Char := '"' :: cs.flatMap escaped ++ ['"']

/--
The marks of a literal block: the indentation where the text does not show it, and what becomes of
the line breaks at its end.
-/
def literalMarks (cs : List Char) : List Char :=
  let first := if cs.head?.any fun c => c = ' ' || isBreak c then ['2'] else []
  let last :=
    match cs.reverse with
    | [] => ['-']
    | a :: rest =>
      if !isBreak a then ['-']
      else if rest.head?.all isBreak then ['+']
      else []
  first ++ last

/-- A text as a literal block. -/
def literalBlock (indent : Nat) (cs : List Char) : List Char :=
  '|' :: literalMarks cs ++ '\n' :: indented indent true cs

/-- The written form of a text, whose further lines are indented. -/
def textForm (indent : Nat) (s : String) : List Char :=
  let cs := s.toList
  if cs.contains '\n' then if blockAllowed cs then literalBlock indent cs else inDoubleQuotes cs
  else if !Plain.isAmbiguous s && plainAllowed cs then cs
  else if singleQuotesAllowed cs then inSingleQuotes indent cs
  else inDoubleQuotes cs

def endLine (cs : List Char) : List Char := if cs.getLast?.any isBreak then cs else cs ++ ['\n']

/-! ### Blocks -/

namespace Value

/-- The form of a value that needs no lines of its own. -/
def inlineForm? (indent : Nat) : Value → Option (List Char)
  | .bool b => some (boolText b).toList
  | .number n => some (toString n).toList
  | .text s => some (textForm (indent + 2) s)
  | .sequence [] => some ['[', ']']
  | .mapping [] => some ['{', '}']
  | _ => none

mutual

/-- What follows the key of a mapping at column `indent`. A sequence stands at the same column. -/
def afterKey (indent : Nat) : Value → List Char
  | .sequence (v :: rest) => '\n' :: items indent (v :: rest)
  | .mapping (e :: rest) => '\n' :: entries (indent + 2) (e :: rest)
  | v => ' ' :: endLine ((v.inlineForm? indent).getD [])

def afterDash (indent : Nat) : Value → List Char
  | .sequence (v :: rest) => " -".toList ++ v.afterDash (indent + 2) ++ items (indent + 2) rest
  | .mapping ((k, v) :: rest) =>
    ' ' :: k.toList ++ ':' :: v.afterKey (indent + 2) ++ entries (indent + 2) rest
  | v => ' ' :: endLine ((v.inlineForm? indent).getD [])

def items (indent : Nat) : List Value → List Char
  | [] => []
  | v :: rest => blanks indent ++ '-' :: v.afterDash indent ++ items indent rest

def entries (indent : Nat) : List (String × Value) → List Char
  | [] => []
  | (k, v) :: rest => blanks indent ++ k.toList ++ ':' :: v.afterKey indent ++ entries indent rest

end

def render (v : Value) : String :=
  String.ofList <|
    match v with
    | .sequence (x :: rest) => items 0 (x :: rest)
    | .mapping (e :: rest) => entries 0 (e :: rest)
    | v => endLine ((v.inlineForm? 0).getD [])

end Value

end MidiPatch.Yaml
