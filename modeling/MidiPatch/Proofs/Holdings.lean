import MidiPatch.Proofs.Reception
import MidiPatch.Proofs.Recovery
import MidiPatch.Proofs.Resumption

/-!
# The fields of a decoder

What a decoder holds, field by field and phase by phase, after any bytes and resets. From it follows
that bytes which are read as one message are always read, and that a channel can be counted from one
without leaving its byte.
-/

namespace MidiPatch

open Wire

namespace Decoder

variable {d : Decoder} {b : UInt8}

/--
The bytes held of a message of fixed length. They are kept in the same list as those of a run, so
that this and `captured` are views on `held`, of which one at most has bytes.
-/
def beginning (d : Decoder) : List UInt8 := if d.phase = .inSysEx then [] else d.held

/-- The bytes captured of a run: the other view on `held`. -/
def captured (d : Decoder) : List UInt8 := if d.phase = .inSysEx then d.held else []

/--
What the fields may be in each phase. As `beginning` and `captured` share one list, it is by their
definition that `nothing` holds inside a run and `captured = []` outside; the rest is about `held`,
`cut` and `repeatable`.
-/
structure Laid (d : Decoder) : Prop where
  room : 2 ≤ d.options.maxSysEx
  nothing : d.phase = .idle ∨ d.phase = .inSysEx → d.beginning = []
  secondOfTwo : d.phase = .secondOfTwo → ∃ s, d.beginning = [s] ∧ lengthOf s = .two
  secondOfThree : d.phase = .secondOfThree → ∃ s, d.beginning = [s] ∧ lengthOf s = .three
  thirdOfThree : d.phase = .thirdOfThree →
    ∃ s a, d.beginning = [s, a] ∧ lengthOf s = .three ∧ a < 0x80
  run : d.phase = .inSysEx → ∃ body, d.captured = sysExBegin :: body ∧ ∀ a ∈ body, a < 0x80
  run_length : d.phase = .inSysEx →
    1 ≤ d.captured.length ∧ d.captured.length ≤ d.options.maxSysEx - 1
  outside : d.phase ≠ .inSysEx → d.captured = [] ∧ d.cut = false
  repeatable : ∀ s, d.repeatable = some s → isChannelStatus s = true

theorem Valid.laid (valid : d.Valid) : d.Laid := by
  obtain ⟨options, phase, held, cut, repeatable, counters⟩ := d
  obtain ⟨room, opened, cached⟩ := valid
  change 2 ≤ options.maxSysEx at room
  change Opened options.maxSysEx phase held cut at opened
  cases opened with
  | idle =>
    exact ⟨room, fun _ => rfl, nofun, nofun, nofun, nofun, nofun, fun _ => ⟨rfl, rfl⟩, cached⟩
  | @secondOfTwo s length =>
    exact ⟨room, nofun, fun _ => ⟨s, rfl, length⟩, nofun, nofun, nofun, nofun,
      fun _ => ⟨rfl, rfl⟩, cached⟩
  | @secondOfThree s length =>
    exact ⟨room, nofun, nofun, fun _ => ⟨s, rfl, length⟩, nofun, nofun, nofun,
      fun _ => ⟨rfl, rfl⟩, cached⟩
  | @thirdOfThree s a length low =>
    exact ⟨room, nofun, nofun, nofun, fun _ => ⟨s, a, rfl, length, low⟩, nofun, nofun,
      fun _ => ⟨rfl, rfl⟩, cached⟩
  | @run body _ data fits full =>
    have length : 1 ≤ body.length + 1 ∧ body.length + 1 ≤ options.maxSysEx - 1 := by omega
    exact ⟨room, fun _ => rfl, nofun, nofun, nofun, fun _ => ⟨body, rfl, data⟩, fun _ => length,
      fun outside => absurd rfl outside, cached⟩

theorem after_valid (valid : d.Valid) (events : List Event) : (d.after events).Valid := by
  induction events generalizing d with
  | nil => exact valid
  | cons event rest ih =>
    cases event with
    | byte b => exact ih (feed_valid valid b).1
    | reset => exact ih valid.reset

/-! ### Bytes that are read as one message -/

/-- What is read as one message when `b` is fed: `b` alone, or behind the bytes it completes. -/
def packet? (d : Decoder) (b : UInt8) : Option (List UInt8) :=
  if b < 0x80 then
    if d.resumed.phase = .secondOfTwo ∨ d.resumed.phase = .thirdOfThree then
      some (d.resumed.held ++ [b])
    else none
  else if b = tuneRequest then some [b]
  else none

theorem feed_packet {packet : List UInt8} (known : d.packet? b = some packet) :
    ∃ e : Decoder, d.feed b = e.finish packet := by
  unfold packet? at known
  split at known
  · rename_i low
    split at known
    · rename_i last
      obtain rfl := Option.some.inj known
      refine ⟨d.resumed, ?_⟩
      rw [feed_resumed low, extend]
      rcases last with second | third
      · simp only [second]
      · simp only [third]
    · cases known
  · split at known
    · rename_i tune
      obtain rfl := Option.some.inj known
      subst tune
      refine ⟨{ d.abort with repeatable := none }, ?_⟩
      rw [feed_status d (by decide), onStatus, if_neg (by simp [tuneRequest, sysExEnd])]
      rfl
    · cases known

/-- Such bytes are a message, which is given out, and its bytes are these. -/
theorem Valid.packet_read (valid : d.Valid) {packet : List UInt8}
    (known : d.packet? b = some packet) :
    ∃ m, Message.ofBytes? packet = some m ∧ m.encode = packet ∧ (d.feed b).2 = some m := by
  unfold packet? at known
  split at known
  · rename_i low
    split at known
    · rename_i last
      obtain rfl := Option.some.inj known
      rw [feed_eq_resumed low]
      rcases last with second | third
      · obtain ⟨s, m, held, -, spells, fed⟩ := valid.resumed.feed_secondOfTwo low second
        rw [held, fed]
        exact ⟨m, spells.1, spells.2.2.2, rfl⟩
      · obtain ⟨s, a, m, held, -, spells, fed⟩ := valid.resumed.feed_thirdOfThree low third
        rw [held, fed]
        exact ⟨m, spells.1, spells.2.2.2, rfl⟩
    · cases known
  · split at known
    · rename_i tune
      obtain rfl := Option.some.inj known
      subst tune
      rw [feed_tune]
      exact ⟨.tuneRequest, rfl, rfl, rfl⟩
    · cases known

/-! ### Framing errors -/

/-- Bytes that mean nothing where they stand: data with no message open, the end of no run, and
status bytes without a meaning. -/
def Strays (d : Decoder) (b : UInt8) : Prop :=
  (b < 0x80 ∧ d.resumed.phase = .idle) ∨ (b = sysExEnd ∧ d.phase ≠ .inSysEx) ∨ b = 0xF4 ∨ b = 0xF5

instance (d : Decoder) : DecidablePred d.Strays := fun _ => inferInstanceAs (Decidable (_ ∨ _))

theorem Valid.extend_framingErrors (valid : d.Valid) (low : b < 0x80) :
    (d.extend b).1.counters.framingErrors =
      d.counters.framingErrors + if d.phase = .idle then 1 else 0 := by
  cases phase : d.phase with
  | idle =>
    rw [extend]
    simp only [phase]
    rfl
  | secondOfTwo =>
    obtain ⟨s, m, -, -, -, fed⟩ := valid.feed_secondOfTwo low phase
    rw [← feed_open low (by simp [phase]), fed]
    rfl
  | secondOfThree =>
    rw [extend]
    simp only [phase]
    rfl
  | thirdOfThree =>
    obtain ⟨s, a, m, -, -, -, fed⟩ := valid.feed_thirdOfThree low phase
    rw [← feed_open low (by simp [phase]), fed]
    rfl
  | inSysEx =>
    rw [extend]
    simp only [phase]
    split
    · rfl
    · split
      · rfl
      · rfl

/-- No byte counts as a framing error but one that strays. -/
theorem Valid.feed_framingErrors (valid : d.Valid) (b : UInt8) :
    (d.feed b).1.counters.framingErrors =
      d.counters.framingErrors + if d.Strays b then 1 else 0 := by
  have aborted : d.abort.counters.framingErrors = d.counters.framingErrors := by rw [abort_eq]
  cases byteClass b with
  | data low =>
    have plain : d.Strays b ↔ d.resumed.phase = .idle := by
      grind [Strays, sysExEnd]
    rw [feed_resumed low, valid.resumed.extend_framingErrors low, resumed_counters]
    simp only [plain]
  | two length =>
    have away : ¬ d.Strays b := by grind [Strays, lengthOf, sysExEnd]
    rw [feed_two d length, if_neg away]
    exact aborted
  | three length =>
    have away : ¬ d.Strays b := by grind [Strays, lengthOf, sysExEnd]
    rw [feed_three d length, if_neg away]
    exact aborted
  | tune =>
    rw [feed_tune, if_neg (by simp [Strays, tuneRequest, sysExEnd])]
    exact aborted
  | opens =>
    rw [feed_opens, if_neg (by simp [Strays, sysExBegin, sysExEnd])]
    exact aborted
  | closes =>
    by_cases inside : d.phase = .inSysEx
    · rw [feed_closes_run inside, if_neg (by simp [Strays, sysExEnd, inside])]
      rfl
    · rw [feed_closes_stray inside, if_pos (.inr (.inl ⟨rfl, inside⟩))]
      exact congrArg (· + 1) aborted
  | undefined unused =>
    rw [feed_unused d unused, if_pos (.inr (.inr unused))]
    exact congrArg (· + 1) aborted
  | realtime k =>
    rw [feed_realtime, if_neg (by cases k <;> simp [Strays, Realtime.byte, sysExEnd])]
    rfl

end Decoder

/-! ### Channels -/

theorem Message.WellFormed.channel {m : Message} {c : UInt8} (wf : m.WellFormed)
    (channel : m.channel? = some c) : c < 16 ∧ (c + 1).toNat = channelNumber c := by
  have low : c < 16 := by
    cases m <;> simp_all [channel?, WellFormed]
  refine ⟨low, ?_⟩
  have bound : c.toNat < 16 := low
  rw [UInt8.toNat_add, channelNumber]
  exact Nat.mod_eq_of_lt (by change c.toNat + 1 < 256; omega)

/--
After any bytes and resets the fields of a decoder fit its phase and its limit. Whatever byte comes
next, it opens a repeated message at most once, bytes that are read as one message are one, only
bytes that stray count as framing errors, and a message that is given out is well-formed, within the
limit, and on a channel whose number fits a byte.
-/
theorem decoder_fields_fit (options : Decoder.Options) (events : List Decoder.Event) :
    let d := (Decoder.new options).after events
    d.Laid ∧ d.options.maxSysEx = max 2 options.maxSysEx ∧ ∀ b,
      (b < 0x80 → d.feed b = d.resumed.feed b ∧ d.resumed.resumed = d.resumed) ∧
      (∀ packet, d.packet? b = some packet → (∃ e : Decoder, d.feed b = e.finish packet) ∧
        ∃ m, Message.ofBytes? packet = some m ∧ m.encode = packet ∧ (d.feed b).2 = some m) ∧
      (d.feed b).1.counters.framingErrors =
        d.counters.framingErrors + (if d.Strays b then 1 else 0) ∧
      ∀ m, (d.feed b).2 = some m → m.WellFormed ∧ m.runLength ≤ max 2 options.maxSysEx ∧
        ∀ c, m.channel? = some c → c < 16 ∧ (c + 1).toNat = Message.channelNumber c := by
  intro d
  have valid : d.Valid := Decoder.after_valid (Decoder.valid_new options) events
  have limit : d.options.maxSysEx = max 2 options.maxSysEx :=
    congrArg Decoder.Options.maxSysEx (Decoder.after_options (.new options) events)
  refine ⟨valid.laid, limit, ?_⟩
  intro b
  refine ⟨?_, ?_, valid.feed_framingErrors b, ?_⟩
  · intro low
    exact ⟨Decoder.feed_eq_resumed low, d.resumed_resumed⟩
  · intro packet known
    exact ⟨Decoder.feed_packet known, valid.packet_read known⟩
  · intro m given
    obtain ⟨wf, fits⟩ := (Decoder.feed_valid valid b).2 m given
    exact ⟨wf, limit ▸ fits, fun c channel => wf.channel channel⟩

end MidiPatch
