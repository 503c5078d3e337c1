import MidiPatch.Yaml.Character

/-!
# What plain scalars mean

A plain scalar may be read as nothing, as a truth value, as a number or as text, whichever is asked
for. `isAmbiguous` says which texts have another reading than as text.
-/

namespace MidiPatch.Yaml.Plain

def isNull (s : String) : Bool := s = "null" || s = "Null" || s = "NULL" || s = "~"

def bool? (s : String) : Option Bool :=
  if s = "true" || s = "True" || s = "TRUE" then some true
  else if s = "false" || s = "False" || s = "FALSE" then some false
  else none

/-! ### Integers -/

/-- The number that one or more digits stand for. -/
def digits? (base : Nat) : List Char → Option Nat
  | [] => none
  | ds => ds.foldlM (fun n d => do
      let v ← hexValue? d
      if v < base then some (n * base + v) else none) 0

/-- Whether a decimal number has a zero too many in front. Such a scalar is text. -/
def hasLeadingZero (cs : List Char) : Bool :=
  let unsigned :=
    match cs with
    | '+' :: rest => rest
    | '-' :: rest => rest
    | _ => cs
  match unsigned with
  | '0' :: d :: rest => (d :: rest).all isDigit
  | _ => false

/-- A number without a sign, in the base that its first two characters tell. -/
def unsigned? : List Char → Option Nat
  | '0' :: 'x' :: ds => digits? 16 ds
  | '0' :: 'o' :: ds => digits? 8 ds
  | '0' :: 'b' :: ds => digits? 2 ds
  | ds => digits? 10 ds

/-- A number that is not negative. It may have a plus sign. -/
def natural? (s : String) : Option Nat :=
  let cs := s.toList
  if hasLeadingZero cs then none
  else
    match cs with
    | '+' :: rest => unsigned? rest
    | _ => unsigned? cs

/-- The size of a number with a minus sign. -/
def negated? (s : String) : Option Nat :=
  let cs := s.toList
  if hasLeadingZero cs then none
  else
    match cs with
    | '-' :: rest => unsigned? rest
    | _ => none

/-- Whether a scalar is an integer of 128 bits. -/
def isInteger (s : String) : Bool :=
  (natural? s).any (· < Nat.pow 2 128) || (negated? s).any (· ≤ Nat.pow 2 127)

/-! ### Fractions -/

/-- The number `digits · 10 ^ exponent`. -/
structure Decimal where
  digits : List Char
  exponent : Int

/-- What follows the digits of a number: nothing, or an exponent. -/
def exponent? : List Char → Option Int
  | [] => some 0
  | e :: rest =>
    if e = 'e' ∨ e = 'E' then
      match rest with
      | '+' :: ds => (digits? 10 ds).map Int.ofNat
      | '-' :: ds => (digits? 10 ds).map fun n => -(n : Int)
      | ds => (digits? 10 ds).map Int.ofNat
    else none

/-- Digits with at most one point among them, and an exponent. -/
def decimal? (cs : List Char) : Option Decimal :=
  let whole := cs.takeWhile isDigit
  let (fraction, rest) :=
    match cs.dropWhile isDigit with
    | '.' :: rest => (rest.takeWhile isDigit, rest.dropWhile isDigit)
    | rest => ([], rest)
  if whole.isEmpty && fraction.isEmpty then none
  else (exponent? rest).map fun e => { digits := whole ++ fraction, exponent := e - fraction.length }

/-- The first number that no double stands for: half a step above the largest double. -/
def doubleBound : Nat := Nat.pow 2 1024 - Nat.pow 2 970

/-- Whether a double is near the number. Far from the bound its length decides. -/
def Decimal.isFinite (d : Decimal) : Bool :=
  let significant := d.digits.dropWhile (· = '0')
  let magnitude := (significant.length : Int) + d.exponent
  if significant.isEmpty || magnitude < 300 then true
  else if magnitude > 320 then false
  else
    let n := (digits? 10 significant).getD 0
    if d.exponent < 0 then n < doubleBound * Nat.pow 10 d.exponent.natAbs
    else n * Nat.pow 10 d.exponent.natAbs < doubleBound

/-- Whether a scalar is a number that a double can hold, an infinity or no number. -/
def isFloat (s : String) : Bool :=
  match s.toList with
  | '+' :: cs => isInfinity cs || isFinite cs
  | '-' :: cs => isInfinity cs || isFinite cs
  | cs => isInfinity cs || isFinite cs || s = ".nan" || s = ".NaN" || s = ".NAN"
where
  isInfinity (cs : List Char) : Bool :=
    cs = ['.', 'i', 'n', 'f'] || cs = ['.', 'I', 'n', 'f'] || cs = ['.', 'I', 'N', 'F']
  isFinite (cs : List Char) : Bool := (decimal? cs).any Decimal.isFinite

/-- Whether a plain scalar can be taken for something else than text. -/
def isAmbiguous (s : String) : Bool :=
  s.isEmpty || isNull s || (bool? s).isSome || isInteger s || isFloat s || hasLeadingZero s.toList

end MidiPatch.Yaml.Plain
