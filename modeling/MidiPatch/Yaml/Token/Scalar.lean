import MidiPatch.Yaml.Cursor

/-!
# Reading scalars

Plain, quoted and block scalars. A single line break inside a plain or quoted scalar reads as a
blank, and each further one as itself; in a literal block scalar every line break reads as itself.
-/

namespace MidiPatch.Yaml.Scalar

/-! ### White space between words -/

/-- White space between two words of a scalar. -/
structure Gap where
  /-- Blanks before any line break. -/
  blanks : List Char := []
  /-- The first line break; none if it was escaped or there was none. -/
  first : Option Char := none
  /-- The line breaks after the first. -/
  further : List Char := []
  /-- Whether a line ended. -/
  broken : Bool := false

namespace Gap

def text (g : Gap) : List Char :=
  if g.broken then
    match g.first with
    | some '\n' => if g.further.isEmpty then [' '] else g.further
    | some c => c :: g.further
    | none => g.further
  else g.blanks

def isEmpty (g : Gap) : Bool := !g.broken && g.blanks.isEmpty

def addBlank (g : Gap) (c : Char) : Gap :=
  if g.broken then g else { g with blanks := g.blanks ++ [c] }

def addBreak (g : Gap) (c : Char) : Gap :=
  if g.broken then { g with further := g.further ++ [normalBreak c] }
  else { g with blanks := [], first := some (normalBreak c), broken := true }

end Gap

/--
Passes blanks and line breaks. A tab that stands left of column `indent` on a continued line is
refused.
-/
def gap (indent : Nat) : Nat → Gap → Cursor → Option (Gap × Cursor)
  | 0, g, c => some (g, c)
  | fuel + 1, g, c =>
    match c.peek with
    | none => some (g, c)
    | some x =>
      if isBlank x then
        if g.broken && c.column < indent && x = '\t' then none
        else gap indent fuel (g.addBlank x) c.next
      else if isBreak x then gap indent fuel (g.addBreak x) c.nextLine
      else some (g, c)

/-! ### Plain scalars -/

/-- The marks that end a plain scalar inside a flow collection. -/
def isFlowMark (c : Char) : Bool := c = ',' || c = '[' || c = ']' || c = '{' || c = '}'

/-- One word of a plain scalar; none where a colon stands before a mark. -/
def plainWord (inFlow : Bool) : List Char → Option (List Char)
  | [] => some []
  | x :: rest =>
    if isBlank x || isBreak x then some []
    else if inFlow && x = ':' && rest.head?.any (fun y => isFlowMark y || y = '?') then none
    else if x = ':' && isSpaceOrEnd rest.head? then some []
    else if inFlow && isFlowMark x then some []
    else (plainWord inFlow rest).map (x :: ·)

/-- A plain scalar: its text, whether it ended after a line break, and what follows. -/
def plain (inFlow : Bool) (indent : Nat) :
    Nat → List Char → Gap → Cursor → Option (List Char × Bool × Cursor)
  | 0, _, _, _ => none
  | fuel + 1, text, g, c =>
    if c.atDocumentMark || c.sees '#' then some (text, g.broken, c)
    else do
      let word ← plainWord inFlow c.rest
      let text := if word.isEmpty then text else text ++ g.text ++ word
      let g := if word.isEmpty then g else {}
      let c := c.skip word.length
      if c.peek.any fun x => isBlank x || isBreak x then
        let (g, c) ← gap indent (c.rest.length + 1) g c
        if !inFlow && c.column < indent then some (text, g.broken, c)
        else plain inFlow indent fuel text g c
      else some (text, g.broken, c)

/-! ### Quoted scalars -/

def shortEscape? : Char → Option Char
  | '0' => some '\x00'
  | 'a' => some '\x07'
  | 'b' => some '\x08'
  | 't' => some '\t'
  | '\t' => some '\t'
  | 'n' => some '\n'
  | 'v' => some '\x0b'
  | 'f' => some '\x0c'
  | 'r' => some '\r'
  | 'e' => some '\x1b'
  | ' ' => some ' '
  | '"' => some '"'
  | '/' => some '/'
  | '\\' => some '\\'
  | 'N' => some '\u0085'
  | '_' => some '\u00a0'
  | 'L' => some '\u2028'
  | 'P' => some '\u2029'
  | _ => none

/-- How many hexadecimal digits follow a long escape. -/
def escapeDigits? : Char → Option Nat
  | 'x' => some 2
  | 'u' => some 4
  | 'U' => some 8
  | _ => none

/-- The number that hexadecimal digits stand for. -/
def hexNumber? (digits : List Char) : Option Nat :=
  digits.foldlM (fun n d => (hexValue? d).map (n * 16 + ·)) 0

/-- The character of the escape after a backslash, and how many characters the escape takes. -/
def escape? (rest : List Char) : Option (Char × Nat) := do
  let x ← rest.head?
  match shortEscape? x with
  | some y => some (y, 1)
  | none =>
    let n ← escapeDigits? x
    let digits := (rest.drop 1).take n
    if digits.length < n then none
    else
      let y ← charOfCode? (← hexNumber? digits)
      some (y, n + 1)

/-- How a word of a quoted scalar ended. -/
inductive WordEnd
  | space
  | quote
  /-- At a backslash at the end of a line. -/
  | escapedBreak

def quotedWord (single : Bool) : Nat → List Char → Cursor → Option (List Char × WordEnd × Cursor)
  | 0, _, _ => none
  | fuel + 1, text, c =>
    match c.rest with
    | [] => some (text, .space, c)
    | x :: rest =>
      if isBlank x || isBreak x then some (text, .space, c)
      else if single && x = '\'' && rest.head? == some '\'' then
        quotedWord single fuel (text ++ ['\'']) (c.skip 2)
      else if x = (if single then '\'' else '"') then some (text, .quote, c)
      else if !single && x = '\\' then
        if rest.head?.any isBreak then some (text, .escapedBreak, c.next.nextLine)
        else do
          let (y, n) ← escape? rest
          quotedWord single fuel (text ++ [y]) (c.skip (n + 1))
      else quotedWord single fuel (text ++ [x]) c.next

/-- A quoted scalar from behind its opening quote to behind its closing one. -/
def quoted (single : Bool) : Nat → List Char → Cursor → Option (List Char × Cursor)
  | 0, _, _ => none
  | fuel + 1, text, c =>
    if c.atDocumentMark || c.atEnd then none
    else do
      let (word, wordEnd, c) ← quotedWord single (c.rest.length + 1) [] c
      let text := text ++ word
      match wordEnd with
      | .quote => some (text, c.next)
      | .escapedBreak =>
        if c.sees (if single then '\'' else '"') then some (text, c.next)
        else
          let (g, c) ← gap 0 (c.rest.length + 1) { broken := true } c
          quoted single fuel (text ++ g.text) c
      | .space =>
        let (g, c) ← gap 0 (c.rest.length + 1) {} c
        quoted single fuel (text ++ g.text) c

/-! ### Block scalars -/

/-- What becomes of the line breaks at the end of a block scalar. -/
inductive Chomping
  | strip
  | clip
  | keep
  deriving DecidableEq

/-- The marks behind the sign of a block scalar: chomping, and indentation if it is given. -/
structure Header where
  chomping : Chomping := .clip
  increment : Nat := 0

def chompingOf? : Option Char → Option Chomping
  | some '+' => some .keep
  | some '-' => some .strip
  | _ => none

/-- Reads an indentation digit, if there is one. Zero is refused. -/
def incrementOf (c : Cursor) : Option (Nat × Cursor) :=
  match c.peek with
  | some x =>
    if x = '0' then none
    else if isDigit x then some (x.toNat - '0'.toNat, c.next)
    else some (0, c)
  | none => some (0, c)

/-- Reads the marks, in either order. -/
def header (c : Cursor) : Option (Header × Cursor) := do
  match chompingOf? c.peek with
  | some chomping =>
    let (increment, c) ← incrementOf c.next
    some ({ chomping, increment }, c)
  | none =>
    let (increment, c) ← incrementOf c
    if increment = 0 then some ({}, c)
    else
      match chompingOf? c.peek with
      | some chomping => some ({ chomping, increment }, c.next)
      | none => some ({ increment }, c)

/--
Passes empty lines and the indentation of the next line. An `indent` of zero is not known yet; the
deepest column seen is given as well.
-/
def emptyLines (indent : Nat) : Nat → Nat → List Char → Cursor → Option (List Char × Nat × Cursor)
  | 0, _, _, _ => none
  | fuel + 1, deepest, breaks, c =>
    let open' := indent == 0 || c.column < indent
    if open' && c.sees ' ' then emptyLines indent fuel deepest breaks c.next
    else
      let deepest := max deepest c.column
      if open' && c.sees '\t' then none
      else
        match c.peek with
        | some x =>
          if isBreak x then emptyLines indent fuel deepest (breaks ++ [normalBreak x]) c.nextLine
          else some (breaks, deepest, c)
        | none => some (breaks, deepest, c)

/-- The state between two lines of a block scalar. -/
structure Lines where
  text : List Char := []
  /-- The break of the last line. -/
  lastBreak : List Char := []
  /-- The breaks of empty lines after it. -/
  emptyBreaks : List Char := []
  /-- Whether the last line began with a blank. -/
  blankLed : Bool := false

/-- What stands between the last line and a next one that begins with a blank or not. -/
def Lines.joint (l : Lines) (literal blankNext : Bool) : List Char :=
  if !literal && l.lastBreak == ['\n'] && !l.blankLed && !blankNext then
    if l.emptyBreaks.isEmpty then [' '] else l.emptyBreaks
  else l.lastBreak ++ l.emptyBreaks

def lines (literal : Bool) (indent : Nat) : Nat → Lines → Cursor → Option (Lines × Cursor)
  | 0, _, _ => none
  | fuel + 1, l, c =>
    match c.peek with
    | none => some (l, c)
    | some x =>
      if c.column = indent then do
        let blankNext := isBlank x
        let (line, c) := c.takeWhile (!isBreak ·)
        let lastBreak := (c.peek.map normalBreak).toList
        let (emptyBreaks, _, c') ← emptyLines indent (c.rest.length + 1) 0 [] c.nextLine
        lines literal indent fuel
          { text := l.text ++ l.joint literal blankNext ++ line
            lastBreak, emptyBreaks, blankLed := blankNext } c'
      else some (l, c)

/-- A block scalar from behind its sign, inside a block that is indented by `parent`. -/
def block (literal : Bool) (parent : Int) (c : Cursor) : Option (List Char × Cursor) := do
  let (h, c) ← header c
  let c := (c.skipWhile isBlank).skipComment
  if !isBreakOrEnd c.peek then none
  else
    let c := c.nextLine
    let given := if h.increment = 0 then 0 else (max parent 0).toNat + h.increment
    let (emptyBreaks, deepest, c) ← emptyLines given (c.rest.length + 1) 0 [] c
    let indent := if given = 0 then max (max deepest (parent + 1).toNat) 1 else given
    let (l, c) ← lines literal indent (c.rest.length + 1) { emptyBreaks } c
    let ending :=
      match h.chomping with
      | .strip => []
      | .clip => l.lastBreak
      | .keep => l.lastBreak ++ l.emptyBreaks
    some (l.text ++ ending, c)

end MidiPatch.Yaml.Scalar
