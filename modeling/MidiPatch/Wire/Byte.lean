/-!
# Bytes on a MIDI wire

A byte is a status byte (high bit set) or a data byte. The status byte of a message fixes the length
of the message, except for a system exclusive run, which lasts until its end byte.
-/

namespace MidiPatch.Wire

/-- Opens a system exclusive run. -/
def sysExBegin : UInt8 := 0xF0

/-- Closes a system exclusive run. -/
def sysExEnd : UInt8 := 0xF7

def tuneRequest : UInt8 := 0xF6

/-- Status bytes have the high bit set. -/
def isStatus (b : UInt8) : Bool := 0x80 ≤ b

/-- Realtime bytes, `F8` to `FF`, are whole messages and may stand anywhere. -/
def isRealtime (b : UInt8) : Bool := 0xF8 ≤ b

/-- Channel voice status bytes, `80` to `EF`. -/
def isChannelStatus (b : UInt8) : Bool := 0x80 ≤ b && b < 0xF0

/-- The seven bits a data byte carries. -/
def dataBits (b : UInt8) : UInt8 := b &&& 0x7F

/-- The four bits that name a channel. -/
def channelBits (b : UInt8) : UInt8 := b &&& 0x0F

/-- How many bytes a message has, its status byte included. -/
inductive Length
  | one
  | two
  | three
  /-- System exclusive delimiters, undefined system common, and data bytes. -/
  | undefined
  deriving DecidableEq, Repr

def Length.bytes? : Length → Option Nat
  | .one => some 1
  | .two => some 2
  | .three => some 3
  | .undefined => none

def lengthOf (status : UInt8) : Length :=
  if status < 0x80 then .undefined
  else if status < 0xC0 then .three
  else if status < 0xE0 then .two
  else if status < 0xF0 then .three
  else if status = 0xF1 ∨ status = 0xF3 then .two
  else if status = 0xF2 then .three
  else if status = 0xF6 ∨ 0xF8 ≤ status then .one
  else .undefined

end MidiPatch.Wire
