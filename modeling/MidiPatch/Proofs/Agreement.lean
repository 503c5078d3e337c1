import MidiPatch.Proofs.OpenMessage
import MidiPatch.Proofs.Recovery
import MidiPatch.Proofs.Spelling

/-!
# Packets and streams

A packet can be read at once, or its message can be written to a stream and decoded. Both agree on
the message exactly if no status byte stands inside a run: reading at once looks for the end byte
only, while a decoder takes realtime bytes out of a run and gives it up at any other status byte.
-/

namespace MidiPatch

open Wire

namespace Message

/-- No status byte stands between the delimiters of a run. -/
def Unbroken : Message → Prop
  | sysEx x => ∀ b ∈ x.payload, b < 0x80
  | _ => True

theorem WellFormed.unbroken {m : Message} (wf : m.WellFormed) : m.Unbroken := by
  cases m with
  | sysEx x => exact wf.2
  | _ => trivial

/-- What is read at once is whole, and well-formed unless it is a broken run. -/
theorem whole_of_read {bytes : List UInt8} {m : Message} (read : ofBytes? bytes = some m) :
    m.isTruncated = false ∧ (m.Unbroken → m.WellFormed) := by
  obtain ⟨-, ⟨wf, fixed⟩ | ⟨body, rfl⟩⟩ := spelled_of_read read
  · refine ⟨?_, fun _ => wf⟩
    cases m with
    | sysEx x => exact absurd rfl (fixed x)
    | _ => rfl
  · refine ⟨rfl, fun unbroken => SysEx.wellFormed_delimited false ?_⟩
    rwa [Unbroken, SysEx.payload_delimited] at unbroken

theorem runLength_le_length_encode (m : Message) : m.runLength ≤ m.encode.length := by
  cases m with
  | sysEx x => exact Nat.le_refl _
  | _ => exact Nat.zero_le _

end Message

/--
A message that is read at once from a packet is all that a new decoder hears of its bytes, with
nothing open or amiss afterwards, exactly if no status byte stands inside a run. A broken run is not
heard at all, and it is the only message read at once that is not well-formed.
-/
theorem heard_alone_iff {bytes : List UInt8} {m : Message} (read : Message.ofBytes? bytes = some m)
    (options : Decoder.Options) (room : m.encode.length ≤ options.maxSysEx) :
    let heard := (Decoder.new options).feedAll m.encode
    (heard.2 = [m] ∧ heard.1.phase = .idle ∧ heard.1.counters.framingErrors = 0 ∧
        heard.1.counters.aborted = 0 ↔ m.Unbroken) ∧
      (m ∈ heard.2 ↔ m.Unbroken) ∧ (m.WellFormed ↔ m.Unbroken) := by
  intro heard
  obtain ⟨whole, wellFormed⟩ := Message.whole_of_read read
  have alone : m.Unbroken → heard = ((Decoder.new options).took m, [m]) := by
    intro unbroken
    have fits : m.runLength ≤ max 2 options.maxSysEx :=
      (m.runLength_le_length_encode.trans room).trans (Nat.le_max_right ..)
    have clean : m.Clean (Decoder.new options).options.maxSysEx :=
      ⟨wellFormed unbroken, whole, fits⟩
    have idle := (Decoder.valid_new options).idle rfl
    exact (Decoder.feedAll_encode idle clean.wellFormed).trans (by rw [clean.clip])
  -- A decoder gives out well-formed messages only, whatever it is fed, and so no broken run.
  have sound : m ∈ heard.2 → m.Unbroken := fun member =>
    ((Decoder.feedAll_valid (Decoder.valid_new options) m.encode).2 m member).1.unbroken
  refine ⟨⟨fun ⟨given, _⟩ => sound ?_, fun unbroken => ?_⟩, ⟨sound, fun unbroken => ?_⟩,
    ⟨Message.WellFormed.unbroken, wellFormed⟩⟩
  · rw [given]
    exact List.mem_singleton_self m
  · rw [alone unbroken]
    exact ⟨rfl, rfl, rfl, rfl⟩
  · rw [alone unbroken]
    exact List.mem_singleton_self m

/-- Data bytes out of range are cut to seven bits in a note, but a run keeps them and is not heard. -/
theorem heard_alone_iff_of_bend :
    let bend : Message := .pitchBend 3 0x0C10
    let run : Message := .sysEx { data := [0xF0, 0x7D, 0xF8, 1, 0xF7] }
    Message.ofBytes? [0xE3, 0x90, 0x98, 0x05] = some bend ∧
      Message.ofBytes? [0xF0, 0x7D, 0xF8, 1, 0xF7, 0x40] = some run ∧
      bend.encode.length ≤ 3 ∧ run.encode.length ≤ 5 ∧
      ((Decoder.new { maxSysEx := 3 }).feedAll bend.encode).2 = [bend] ∧
      run ∉ ((Decoder.new { maxSysEx := 5 }).feedAll run.encode).2 := by
  intro bend run
  have read : Message.ofBytes? [0xE3, 0x90, 0x98, 0x05] = some bend := by decide
  have read' : Message.ofBytes? [0xF0, 0x7D, 0xF8, 1, 0xF7, 0x40] = some run := by decide
  have room : bend.encode.length ≤ 3 := by decide
  have room' : run.encode.length ≤ 5 := by decide
  obtain ⟨alone, -⟩ := heard_alone_iff read { maxSysEx := 3 } room
  obtain ⟨-, lost, -⟩ := heard_alone_iff read' { maxSysEx := 5 } room'
  refine ⟨read, read', room, room', (alone.mpr trivial).1, fun member => ?_⟩
  exact absurd (lost.mp member 0xF8 (by decide)) (by decide)

/-- A note that begins inside a run ends it, and neither of them is heard. -/
theorem broken_run_not_heard :
    let packet : List UInt8 := [0xF0, 0x90, 0xF7]
    Message.ofBytes? packet = some (.sysEx { data := packet }) ∧
      (Message.sysEx { data := packet }).encode = packet ∧
      ((Decoder.new {}).feedAll packet).2 = [] ∧
      ((Decoder.new {}).feedAll packet).1.counters.aborted = 2 ∧
      ((Decoder.new {}).feedAll packet).1.counters.framingErrors = 1 := by
  decide

end MidiPatch
