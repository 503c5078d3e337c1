import Mathlib
import MidiPatch.Message.Bytes

/-!
# Classes of bytes

Data bytes lie below `80`, status bytes of messages that may be cut short lie from `80` to `F7`, and
realtime bytes from `F8` on. Here is what the length of a status byte says about its place.
-/

namespace MidiPatch

open Wire

namespace Wire

theorem forall_byte {P : UInt8 → Prop} (all : ∀ n < 256, P (UInt8.ofNat n)) (b : UInt8) : P b := by
  have h := all b.toNat b.toNat_lt
  rwa [UInt8.ofNat_toNat] at h

theorem isStatus_of_lt {b : UInt8} (data : b < 0x80) : isStatus b = false := by
  simpa [isStatus] using data

theorem isStatus_of_le {b : UInt8} (status : 0x80 ≤ b) : isStatus b = true := by
  simpa [isStatus] using status

theorem isRealtime_of_lt {b : UInt8} (low : b < 0xF8) : isRealtime b = false := by
  simpa [isRealtime] using low

theorem lt_realtime_of_data {b : UInt8} (data : b < 0x80) : b < 0xF8 :=
  UInt8.lt_trans data (by decide)

theorem byte_cases (b : UInt8) : b < 0x80 ∨ (0x80 ≤ b ∧ b < 0xF8) ∨ 0xF8 ≤ b := by grind

theorem dataBits_of_lt (b : UInt8) (data : b < 0x80) : dataBits b = b := by
  apply UInt8.toNat_inj.mp
  rw [dataBits, UInt8.toNat_and]
  exact (Nat.and_two_pow_sub_one_eq_mod b.toNat 7).trans (Nat.mod_eq_of_lt data)

theorem dataBits_lt (b : UInt8) : dataBits b < 0x80 := by
  have bits : (dataBits b).toNat = b.toNat % 128 := Nat.and_two_pow_sub_one_eq_mod b.toNat 7
  rw [UInt8.lt_iff_toNat_lt, bits]
  exact Nat.mod_lt b.toNat (by decide)

theorem channelBits_of_lt (c : UInt8) (low : c < 16) : channelBits c = c := by
  apply UInt8.toNat_inj.mp
  rw [channelBits, UInt8.toNat_and]
  exact (Nat.and_two_pow_sub_one_eq_mod c.toNat 4).trans (Nat.mod_eq_of_lt low)

theorem channelBits_lt (c : UInt8) : channelBits c < 16 := by
  have bits : (channelBits c).toNat = c.toNat % 16 := Nat.and_two_pow_sub_one_eq_mod c.toNat 4
  rw [UInt8.lt_iff_toNat_lt, bits]
  exact Nat.mod_lt c.toNat (by decide)

/-! ### Status bytes by length -/

/-- The status bytes of system common messages, runs, and nothing at all. -/
theorem status_cases (s : UInt8) (status : 0x80 ≤ s) (low : s < 0xF8) :
    lengthOf s = .two ∨ lengthOf s = .three ∨ s = tuneRequest ∨ s = sysExBegin ∨ s = sysExEnd ∨
      s = 0xF4 ∨ s = 0xF5 := by
  grind [lengthOf, tuneRequest, sysExBegin, sysExEnd]

theorem status_of_two (s : UInt8) (two : lengthOf s = .two) : 0x80 ≤ s ∧ s < 0xF8 := by
  grind [lengthOf]

theorem status_of_three (s : UInt8) (three : lengthOf s = .three) : 0x80 ≤ s ∧ s < 0xF8 := by
  grind [lengthOf]

theorem status_of_channel (s : UInt8) (channel : isChannelStatus s = true) :
    0x80 ≤ s ∧ s < 0xF8 := by
  grind [isChannelStatus]

theorem length_of_data {b : UInt8} (data : b < 0x80) : lengthOf b = .undefined := if_pos data

theorem length_of_channel (s : UInt8) (channel : isChannelStatus s = true) :
    lengthOf s = .two ∨ lengthOf s = .three := by
  grind [isChannelStatus, lengthOf]

/-- No status byte of a message with data closes a run or stands for a whole message. -/
theorem open_of_two (s : UInt8) (two : lengthOf s = .two) :
    s ≠ tuneRequest ∧ s ≠ sysExEnd ∧ s ≠ sysExBegin := by
  grind [lengthOf, tuneRequest, sysExBegin, sysExEnd]

theorem open_of_three (s : UInt8) (three : lengthOf s = .three) :
    s ≠ tuneRequest ∧ s ≠ sysExEnd ∧ s ≠ sysExBegin := by
  grind [lengthOf, tuneRequest, sysExBegin, sysExEnd]

end Wire

namespace Realtime

theorem ofByte?_byte (k : Realtime) : ofByte? k.byte = some k := by
  cases k <;> rfl

theorem ofByte?_of_lt (b : UInt8) (low : b < 0xF8) : ofByte? b = none := by
  rw [ofByte?, List.find?_eq_none]
  intro k _ same
  cases k <;> grind [byte]

theorem exists_of_le (b : UInt8) (high : 0xF8 ≤ b) : ∃ k : Realtime, k.byte = b := by
  have named : b = 0xF8 ∨ b = 0xF9 ∨ b = 0xFA ∨ b = 0xFB ∨ b = 0xFC ∨ b = 0xFD ∨ b = 0xFE ∨
      b = 0xFF := by
    grind
  rcases named with rfl | rfl | rfl | rfl | rfl | rfl | rfl | rfl
  · exact ⟨clock, rfl⟩
  · exact ⟨tick, rfl⟩
  · exact ⟨start, rfl⟩
  · exact ⟨resume, rfl⟩
  · exact ⟨stop, rfl⟩
  · exact ⟨reserved, rfl⟩
  · exact ⟨activeSense, rfl⟩
  · exact ⟨reset, rfl⟩

@[simp] theorem isRealtime_byte (k : Realtime) : isRealtime k.byte = true := by
  cases k <;> rfl

end Realtime

/-! ### All bytes -/

/-- What a byte means to whoever reads a stream. -/
inductive ByteClass : UInt8 → Prop
  | data {b : UInt8} (low : b < 0x80) : ByteClass b
  | two {b : UInt8} (length : lengthOf b = .two) : ByteClass b
  | three {b : UInt8} (length : lengthOf b = .three) : ByteClass b
  | tune : ByteClass tuneRequest
  | opens : ByteClass sysExBegin
  | closes : ByteClass sysExEnd
  | undefined {b : UInt8} (unused : b = 0xF4 ∨ b = 0xF5) : ByteClass b
  | realtime (k : Realtime) : ByteClass k.byte

theorem byteClass (b : UInt8) : ByteClass b := by
  rcases byte_cases b with data | ⟨status, low⟩ | high
  · exact .data data
  · rcases status_cases b status low with two | three | rfl | rfl | rfl | unused
    · exact .two two
    · exact .three three
    · exact .tune
    · exact .opens
    · exact .closes
    · exact .undefined unused
  · obtain ⟨k, rfl⟩ := Realtime.exists_of_le b high
    exact .realtime k

end MidiPatch
