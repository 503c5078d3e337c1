import MidiPatch.Proofs.Decoding

/-!
# Back in step

A status byte starts a decoder afresh, whatever it holds. So the bytes of whole messages are read
back from every state, and nothing is lost but the message that was open before.
-/

namespace MidiPatch

open Wire

/-! ### Messages of masked fields -/

theorem Wire.Word14.ofSigned_le (amount : Int) : ofSigned amount ≤ largest := by
  rw [UInt16.le_iff_toNat_le, ofSigned, Nat.toUInt16, UInt16.toNat_ofNat']
  refine Nat.le_trans (Nat.mod_le ..) ?_
  change _ ≤ 16383
  omega

/-- What the constructors make that mask their arguments into range. -/
inductive Message.Masked : Message → Prop
  | noteOff (channel note velocity : UInt8) : Masked (maskedNoteOff channel note velocity)
  | noteOn (channel note velocity : UInt8) : Masked (maskedNoteOn channel note velocity)
  | aftertouch (channel note pressure : UInt8) : Masked (maskedAftertouch channel note pressure)
  | controlChange (channel controller value : UInt8) :
      Masked (maskedControlChange channel controller value)
  | programChange (channel program : UInt8) : Masked (maskedProgramChange channel program)
  | channelPressure (channel pressure : UInt8) : Masked (maskedChannelPressure channel pressure)
  | pitchBend (channel : UInt8) (amount : Int) : Masked (signedPitchBend channel amount)
  | songPosition (position : UInt16) : Masked (clampedSongPosition position)
  | run (payload : List UInt8) : Masked (.sysEx (.ofPayload payload))

theorem SysEx.wellFormed_ofPayload (payload : List UInt8) :
    (SysEx.ofPayload payload).WellFormed := by
  refine SysEx.wellFormed_delimited false ?_
  intro b member
  obtain ⟨a, -, rfl⟩ := List.mem_map.mp member
  exact dataBits_lt a

theorem Message.Masked.wellFormed {m : Message} (masked : m.Masked) :
    m.WellFormed ∧ m.isTruncated = false := by
  refine ⟨?_, by cases masked <;> rfl⟩
  cases masked with
  | noteOff c a b => exact ⟨channelBits_lt c, dataBits_lt a, dataBits_lt b⟩
  | noteOn c a b => exact ⟨channelBits_lt c, dataBits_lt a, dataBits_lt b⟩
  | aftertouch c a b => exact ⟨channelBits_lt c, dataBits_lt a, dataBits_lt b⟩
  | controlChange c a b => exact ⟨channelBits_lt c, dataBits_lt a, dataBits_lt b⟩
  | programChange c a => exact ⟨channelBits_lt c, dataBits_lt a⟩
  | channelPressure c a => exact ⟨channelBits_lt c, dataBits_lt a⟩
  | pitchBend c amount => exact ⟨channelBits_lt c, Word14.ofSigned_le amount⟩
  | songPosition p =>
    change (if p ≤ Word14.largest then p else Word14.largest) ≤ Word14.largest
    split
    · assumption
    · exact UInt16.le_refl _
  | run payload => exact SysEx.wellFormed_ofPayload payload

/-! ### One message -/

namespace Decoder

theorem encode_begins {m : Message} (wf : m.WellFormed) (plain : m.isRealtime = false) :
    ∃ s rest, m.encode = s :: rest ∧ (0x80 ≤ s ∧ s < 0xF8) ∧ s ≠ sysExEnd := by
  have shape := wf.onWire
  generalize m.encode = bytes at shape
  cases shape with
  | realtime k => exact nomatch plain
  | tune => exact ⟨_, _, rfl, by decide, by decide⟩
  | two _ length => exact ⟨_, _, rfl, status_of_two _ length, (open_of_two _ length).2.1⟩
  | three _ length => exact ⟨_, _, rfl, status_of_three _ length, (open_of_three _ length).2.1⟩
  | run => exact ⟨_, _, rfl, by decide, by decide⟩

/-- A message that is not realtime is read back from every state. -/
theorem feedAll_encode_afresh {m : Message} (d : Decoder) (wf : m.WellFormed)
    (plain : m.isRealtime = false) :
    d.feedAll m.encode = (d.abort.took m, [m.clip d.options.maxSysEx]) := by
  have afresh : d.feedAll m.encode = d.abort.feedAll m.encode := by
    obtain ⟨s, rest, bytes, status, opens⟩ := encode_begins wf plain
    rw [bytes, feedAll_cons, feedAll_cons, feed_abort status fun closes => opens closes.2]
  rw [afresh, feedAll_encode (idle_abort d) wf, abort_options]

/-! ### Many messages -/

/-- The first message that is not realtime ends what was open. -/
def cleared (d : Decoder) (ms : List Message) : Decoder :=
  if ms.any (!·.isRealtime) then d.abort else d

theorem abort_took (d : Decoder) (m : Message) : (d.took m).abort = d.abort.took m := by
  simp [abort_eq, took, close, repeatsAfterMessage]

theorem cleared_realtime (d : Decoder) (k : Realtime) (ms : List Message) :
    (d.took (.realtime k)).cleared ms = (d.cleared (.realtime k :: ms)).took (.realtime k) := by
  unfold cleared
  rw [List.any_cons, show (!(Message.realtime k).isRealtime) = false from rfl, Bool.false_or]
  split
  · exact abort_took d _
  · rfl

theorem cleared_of_idle {d : Decoder} (idle : d.Idle) (ms : List Message) : d.cleared ms = d := by
  rw [cleared, abort_of_idle idle, ite_self]

theorem cleared_framingErrors (d : Decoder) (ms : List Message) :
    (d.cleared ms).counters.framingErrors = d.counters.framingErrors := by
  unfold cleared
  split
  · rw [abort_eq]
  · rfl

theorem cleared_aborted (d : Decoder) (ms : List Message) :
    (d.cleared ms).counters.aborted =
      d.counters.aborted + (ms.any (!·.isRealtime) && decide (d.phase ≠ .idle)).toNat := by
  unfold cleared
  cases ms.any (!·.isRealtime) with
  | false => rfl
  | true =>
    rw [if_pos rfl, abort_eq, Bool.true_and]
    by_cases idle : d.phase = .idle <;> simp [idle]

theorem cleared_plain {m : Message} (d : Decoder) (plain : m.isRealtime = false)
    (ms : List Message) : d.cleared (m :: ms) = d.abort := by
  rw [cleared, List.any_cons, plain]; rfl

/-- Messages are read back from every state, their runs as far as the decoder keeps them. -/
theorem feedAll_messages {ms : List Message} (d : Decoder) (wf : ∀ m ∈ ms, m.WellFormed) :
    d.feedAll (ms.flatMap Message.encode) =
      (ms.foldl took (d.cleared ms), ms.map (Message.clip d.options.maxSysEx)) := by
  induction ms generalizing d with
  | nil => rfl
  | cons m rest ih =>
    obtain ⟨now, later⟩ := List.forall_mem_cons.mp wf
    rw [List.flatMap_cons, feedAll_append]
    cases plain : m.isRealtime with
    | true =>
      cases m with
      | realtime k =>
        rw [show (Message.realtime k).encode = [k.byte] from rfl, feedAll_realtime, ih _ later,
          cleared_realtime]
        rfl
      | _ => exact nomatch plain
    | false =>
      -- From here on the decoder is between messages, and there is nothing left to give up.
      rw [feedAll_encode_afresh d now plain, ih _ later, cleared_plain d plain,
        cleared_of_idle (idle_took (idle_abort d) m), took_options, abort_options]
      rfl

theorem foldl_took_stays (d : Decoder) (ms : List Message) :
    (ms.foldl took d).phase = d.phase ∧ (ms.foldl took d).held = d.held ∧
      (ms.foldl took d).counters.framingErrors = d.counters.framingErrors ∧
      (ms.foldl took d).counters.aborted = d.counters.aborted := by
  induction ms generalizing d with
  | nil => exact ⟨rfl, rfl, rfl, rfl⟩
  | cons m rest ih => exact ih (d.took m)

/-! ### Every state a decoder can be in -/

/-- What can happen to a decoder. -/
inductive Event
  | byte (b : UInt8)
  | reset
  deriving DecidableEq, Repr

def handle (d : Decoder) : Event → Decoder
  | .byte b => (d.feed b).1
  | .reset => d.reset

def after (d : Decoder) (events : List Event) : Decoder := events.foldl handle d

theorem after_options (d : Decoder) (events : List Event) :
    (d.after events).options = d.options := by
  induction events generalizing d with
  | nil => rfl
  | cons event rest ih =>
    refine (ih (d.handle event)).trans ?_
    cases event with
    | byte b => exact feed_options d b
    | reset => rfl

end Decoder

/--
Wherever a decoder stands after any bytes and resets, it reads the bytes of whole messages back as
those messages. Nothing is lost but the message that was open, and none is open afterwards.
-/
theorem messages_read_back (options : Decoder.Options) (events : List Decoder.Event)
    (ms : List Message)
    (clean : ∀ m ∈ ms, (m.WellFormed ∧ m.isTruncated = false ∨ m.Masked) ∧
      m.runLength ≤ max 2 options.maxSysEx) :
    let d := (Decoder.new options).after events
    let e := (d.feedAll (ms.flatMap Message.encode)).1
    (d.feedAll (ms.flatMap Message.encode)).2 = ms ∧
      e.counters.framingErrors = d.counters.framingErrors ∧
      e.counters.aborted = d.counters.aborted +
        (ms.any (!·.isRealtime) && decide (d.phase ≠ .idle)).toNat ∧
      ((∃ m ∈ ms, m.isRealtime = false) → e.phase = .idle ∧ e.pendingLength = 0) := by
  intro d e
  have limit : d.options.maxSysEx = max 2 options.maxSysEx :=
    congrArg Decoder.Options.maxSysEx (Decoder.after_options (.new options) events)
  have clean' : ∀ m ∈ ms, m.Clean d.options.maxSysEx := by
    intro m member
    obtain ⟨⟨wf, whole⟩ | masked, fits⟩ := clean m member
    · exact ⟨wf, whole, limit ▸ fits⟩
    · exact ⟨masked.wellFormed.1, masked.wellFormed.2, limit ▸ fits⟩
  have read := d.feedAll_messages fun m member => (clean' m member).wellFormed
  have state : e = ms.foldl Decoder.took (d.cleared ms) := congrArg Prod.fst read
  obtain ⟨phase, held, framing, aborted⟩ := (d.cleared ms).foldl_took_stays ms
  rw [← state] at phase held framing aborted
  refine ⟨?_, ?_, ?_, ?_⟩
  · rw [read, map_clip_of_clean clean']
  · rw [framing, Decoder.cleared_framingErrors]
  · rw [aborted, Decoder.cleared_aborted]
  · rintro ⟨m, member, plain⟩
    have some_plain : ms.any (!·.isRealtime) = true :=
      List.any_eq_true.mpr ⟨m, member, by simp [plain]⟩
    rw [Decoder.cleared, some_plain] at phase held
    refine ⟨phase.trans d.abort_phase, ?_⟩
    rw [Decoder.pendingLength, held.trans d.abort_held, List.length_nil]

/-- A decoder that has cut a run gives it up and reads on with the next messages. -/
theorem messages_read_back_after_cut :
    let options : Decoder.Options := { runningStatus := true, maxSysEx := 4 }
    let events : List Decoder.Event := [.byte 7, .reset, .byte 0xF0, .byte 1, .byte 2, .byte 3]
    let ms : List Message := [.realtime .clock, .maskedNoteOn 17 200 5,
      .sysEx { data := [0xF0, 1, 2, 0xF7] }, .signedPitchBend 3 (-9000), .tuneRequest]
    (∀ m ∈ ms, (m.WellFormed ∧ m.isTruncated = false ∨ m.Masked) ∧
      m.runLength ≤ max 2 options.maxSysEx) ∧
      ((Decoder.new options).after events).cut = true ∧
      (((Decoder.new options).after events).feedAll (ms.flatMap Message.encode)).2 = ms ∧
      (((Decoder.new options).after events).feedAll
        (ms.flatMap Message.encode)).1.counters.aborted = 1 := by
  intro options events ms
  have clean : ∀ m ∈ ms, (m.WellFormed ∧ m.isTruncated = false ∨ m.Masked) ∧
      m.runLength ≤ max 2 options.maxSysEx := by
    simp only [ms, List.forall_mem_cons]
    exact ⟨⟨.inl ⟨trivial, rfl⟩, by decide⟩, ⟨.inr (.noteOn 17 200 5), by decide⟩,
      ⟨.inl (by decide), by decide⟩, ⟨.inr (.pitchBend 3 (-9000)), by decide⟩,
      ⟨.inl ⟨trivial, rfl⟩, by decide⟩, nofun⟩
  obtain ⟨same, -, aborted, -⟩ := messages_read_back options events ms clean
  have pending : ((Decoder.new options).after events).counters.aborted + (ms.any (!·.isRealtime) &&
      decide (((Decoder.new options).after events).phase ≠ .idle)).toNat = 1 := by decide
  exact ⟨clean, by decide, same, aborted.trans pending⟩

end MidiPatch
