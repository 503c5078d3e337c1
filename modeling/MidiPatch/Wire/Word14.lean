import MidiPatch.Wire.Byte

/-!
# Fourteen-bit values

Pitch bend and song position carry fourteen bits in two data bytes, the low seven first. A pitch
bend is centred on `8192`.
-/

namespace MidiPatch.Wire.Word14

/-- The largest value of fourteen bits. -/
def largest : UInt16 := 0x3FFF

/-- The value carried by a low and a high data byte. -/
def join (low high : UInt8) : UInt16 :=
  ((dataBits high).toUInt16 <<< 7) ||| (dataBits low).toUInt16

/-- The low and the high data byte of a value; bits above the fourteenth are lost. -/
def split (value : UInt16) : UInt8 × UInt8 :=
  ((value &&& 0x7F).toUInt8, ((value >>> 7) &&& 0x7F).toUInt8)

/-- The bend for a signed amount, which is clamped to `-8192 … 8191`. -/
def ofSigned (amount : Int) : UInt16 :=
  (max (-8192) (min amount 8191) + 8192).toNat.toUInt16

/-- The signed amount of a bend; values above fourteen bits count as the largest. -/
def toSigned (value : UInt16) : Int :=
  (min value largest).toNat - 8192

end MidiPatch.Wire.Word14
