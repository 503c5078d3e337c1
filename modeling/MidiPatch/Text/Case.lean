import MidiPatch.Text.Case.Table

/-!
# Small letters

`lowercase` turns the capital letters of a text into small ones. A capital sigma turns into the form
that small sigma has at the end of a word if a letter stands before it and none behind it.
-/

namespace MidiPatch.Text

def inRanges (ranges : List (Nat × Nat)) (c : Char) : Bool :=
  ranges.any fun (first, last) => first ≤ c.toNat && c.toNat ≤ last

/-- Whether a character is a letter with a case. -/
def isCased (c : Char) : Bool := inRanges casedRanges c

/-- Whether a character is passed over in the search for a neighbour with a case. -/
def isIgnorable (c : Char) : Bool := inRanges ignorableRanges c

/-- The small letter of a capital one; any other character is left as it is. -/
def smallLetter (c : Char) : Char :=
  let n := c.toNat
  match capitals.find? fun (first, last, step, _) =>
      first ≤ n && n ≤ last && (n - first) % step = 0 with
  | some (first, _, _, small) => Char.ofNat (small + (n - first))
  | none => c

/-- Whether the nearest character that matters has a case. -/
def beginsCased (cs : List Char) : Bool := (cs.dropWhile isIgnorable).head?.any isCased

/-- The small letters of one character between its neighbours, the nearest first on both sides. -/
def smallLetters (before : List Char) (c : Char) (after : List Char) : List Char :=
  if c = 'Σ' then
    if beginsCased before && !beginsCased after then ['ς'] else ['σ']
  else if c = 'İ' then ['i', '\u0307']
  else [smallLetter c]

/-- The small letters of characters, where those before them are known. -/
def lowercaseAfter : List Char → List Char → List Char
  | _, [] => []
  | before, c :: rest => smallLetters before c rest ++ lowercaseAfter (c :: before) rest

def lowercase (s : String) : String := String.ofList (lowercaseAfter [] s.toList)

def occursIn (part : List Char) : List Char → Bool
  | [] => part.isEmpty
  | c :: rest => part.isPrefixOf (c :: rest) || occursIn part rest

end MidiPatch.Text
