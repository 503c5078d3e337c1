import MidiPatch.Yaml.Cursor
import MidiPatch.Yaml.Token

/-!
# Reading names, tags and directives
-/

namespace MidiPatch.Yaml

def anchorName (c : Cursor) : Option (String × Cursor) :=
  let (name, c) := c.takeWhile isWord
  let ends := isSpaceOrEnd c.peek || c.peek.any ("?:,]\x7d%@`".toList.contains ·)
  if name.isEmpty || !ends then none else some (String.ofList name, c)

/-! ### Tags -/

/-- The characters of a tag; a verbatim tag may also hold commas and brackets. -/
def isTagCharacter (verbatim : Bool) (c : Char) : Bool :=
  isWord c || ";/?:@&=+$.%!~*'()".toList.contains c || (verbatim && ",[]".toList.contains c)

/-- One byte written as a percent sign and two digits. -/
def percentByte? : List Char → Option (UInt8 × List Char)
  | '%' :: a :: b :: rest => do
    some (((← hexValue? a) * 16 + (← hexValue? b)).toUInt8, rest)
  | _ => none

/-- How many bytes a character has, by the first of them. -/
def encodedLength? (b : UInt8) : Option Nat :=
  if b &&& 0x80 = 0 then some 1
  else if b &&& 0xE0 = 0xC0 then some 2
  else if b &&& 0xF0 = 0xE0 then some 3
  else if b &&& 0xF8 = 0xF0 then some 4
  else none

/-- `n` bytes written with percent signs. -/
def percentBytes? : Nat → List Char → Option (List UInt8 × List Char)
  | 0, rest => some ([], rest)
  | n + 1, rest => do
    let (b, rest) ← percentByte? rest
    let (bs, rest) ← percentBytes? n rest
    some (b :: bs, rest)

/-- One character written with percent signs. -/
def percentCharacter? (rest : List Char) : Option (Char × List Char) := do
  let (b, _) ← percentByte? rest
  let (bs, rest) ← percentBytes? (← encodedLength? b) rest
  match (← String.fromUTF8? ⟨bs.toArray⟩).toList with
  | [c] => some (c, rest)
  | _ => none

/-- The text that the characters of a tag stand for. -/
def unescaped : Nat → List Char → Option (List Char)
  | 0, _ => none
  | _ + 1, [] => some []
  | fuel + 1, c :: rest =>
    if c = '%' then do
      let (c, rest) ← percentCharacter? ('%' :: rest)
      (unescaped fuel rest).map (c :: ·)
    else (unescaped fuel rest).map (c :: ·)

def tagText (verbatim : Bool) (c : Cursor) : Option (List Char × Cursor) := do
  let (raw, c) := c.takeWhile (isTagCharacter verbatim)
  some (← unescaped (raw.length + 1) raw, c)

/-- The part of a tag that may be a handle: its first mark, letters, and a second mark. -/
def tagHandle (c : Cursor) : List Char × Cursor :=
  let (letters, c') := c.next.takeWhile isWord
  if c'.sees '!' then ('!' :: letters ++ ['!'], c'.next) else ('!' :: letters, c')

def tag (inFlow : Bool) (c : Cursor) : Option (Token × Cursor) := do
  let (token, c) ← do
    if c.ahead 1 == some '<' then
      let (suffix, c) ← tagText true (c.skip 2)
      if suffix.isEmpty || !c.sees '>' then none
      else pure (Token.tag "" (String.ofList suffix), c.next)
    else
      let (handle, c) := tagHandle c
      let (suffix, c) ← tagText false c
      if handle.length > 1 && handle.getLast? == some '!' then
        if suffix.isEmpty then none
        else pure (Token.tag (String.ofList handle) (String.ofList suffix), c)
      else
        match handle.tail ++ suffix with
        | [] => pure (Token.tag "" "!", c)
        | text => pure (Token.tag "!" (String.ofList text), c)
  if isSpaceOrEnd c.peek || (inFlow && c.sees ',') then some (token, c) else none

/-! ### Directives -/

def versionNumber (c : Cursor) : Option (Nat × Cursor) :=
  let (digits, c) := c.takeWhile isDigit
  if digits.isEmpty || digits.length > 9 then none
  else some (digits.foldl (fun n d => n * 10 + (d.toNat - '0'.toNat)) 0, c)

def versionDirective (c : Cursor) : Option (Token × Cursor) := do
  let (major, c) ← versionNumber (c.skipWhile isBlank)
  if c.sees '.' then
    let (minor, c) ← versionNumber c.next
    some (.version major minor, c)
  else none

def handleDirective (c : Cursor) : Option (Token × Cursor) := do
  let c := c.skipWhile isBlank
  if !c.sees '!' then none
  else
    let (handle, c) := tagHandle c
    if handle.getLast? != some '!' || !c.peek.any isBlank then none
    else
      let (meaning, c) ← tagText true (c.skipWhile isBlank)
      if meaning.isEmpty || !isSpaceOrEnd c.peek then none
      else some (.handle (String.ofList handle) (String.ofList meaning), c)

/-- A directive, from behind its percent sign to the end of its line. -/
def directive (c : Cursor) : Option (Token × Cursor) := do
  let (name, c) := c.takeWhile isWord
  if !isSpaceOrEnd c.peek then none
  else
    let (token, c) ←
      match String.ofList name with
      | "YAML" => versionDirective c
      | "TAG" => handleDirective c
      | _ => none
    let c := (c.skipWhile isBlank).skipComment
    if isBreakOrEnd c.peek then some (token, c.nextLine) else none

end MidiPatch.Yaml
