/-!
# Bytes as hexadecimal text

A byte is two upper-case digits; a run of bytes is its pairs separated by blanks.
-/

namespace MidiPatch.Wire

def hexDigit (n : Nat) : Char :=
  if n < 10 then Char.ofNat ('0'.toNat + n) else Char.ofNat ('A'.toNat + (n - 10))

def hexPair (b : UInt8) : String :=
  String.ofList [hexDigit (b.toNat / 16), hexDigit (b.toNat % 16)]

/-- The pairs of `bytes`, separated by blanks. -/
def hexText (bytes : List UInt8) : String :=
  " ".intercalate (bytes.map hexPair)

end MidiPatch.Wire
