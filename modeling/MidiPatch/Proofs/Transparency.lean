import MidiPatch.Proofs.Grammar
import MidiPatch.Proofs.OpenMessage

/-!
# Realtime bytes disturb nothing

Two decoders read the same stream, one of them without its realtime bytes. They give the same
messages on the bytes they share and end in the same state, but for the count of realtime messages.
-/

namespace MidiPatch

open Wire

namespace Decoder

/-! ### Counters are not read -/

instance : Add Counters where
  add c c' :=
    { messages := c.messages + c'.messages
      realtime := c.realtime + c'.realtime
      framingErrors := c.framingErrors + c'.framingErrors
      aborted := c.aborted + c'.aborted
      truncated := c.truncated + c'.truncated }

/-- A decoder that has counted so much before. -/
def counting (d : Decoder) (c : Counters) : Decoder := { d with counters := c + d.counters }

section

variable (d : Decoder) (c : Counters)

theorem finish_counting (bytes : List UInt8) :
    (d.counting c).finish bytes = ((d.finish bytes).1.counting c, (d.finish bytes).2) := by
  unfold finish
  split
  · rfl
  · rfl

theorem start_counting (s : UInt8) :
    (d.counting c).start s = ((d.start s).1.counting c, (d.start s).2) := by
  unfold start
  split
  · exact finish_counting d c [s]
  · rfl
  · rfl
  · split
    · rfl
    · rfl

theorem extend_counting (b : UInt8) :
    (d.counting c).extend b = ((d.extend b).1.counting c, (d.extend b).2) := by
  obtain ⟨options, phase, held, cut, repeatable, counters⟩ := d
  cases phase with
  | idle => rfl
  | secondOfTwo => exact finish_counting _ c (held ++ [b])
  | secondOfThree => rfl
  | thirdOfThree => exact finish_counting _ c (held ++ [b])
  | inSysEx =>
    by_cases room : held.length < options.maxSysEx - 1
    · simp only [extend, counting, room, if_true]
    · cases cut with
      | true => simp only [extend, counting, room, if_false, if_true]
      | false =>
        simp only [extend, counting, room, if_false, Bool.false_eq_true]
        rfl

theorem abort_counting : (d.counting c).abort = d.abort.counting c := by
  unfold abort
  change (if d.phase = .idle then _ else _) = _
  split
  · rfl
  · rfl

theorem onStatus_counting (s : UInt8) :
    (d.counting c).onStatus s = ((d.onStatus s).1.counting c, (d.onStatus s).2) := by
  by_cases closes : d.phase = .inSysEx ∧ s = sysExEnd
  · have closes' : (d.counting c).phase = .inSysEx ∧ s = sysExEnd := closes
    rw [onStatus, onStatus, if_pos closes, if_pos closes']
    rfl
  · have closes' : ¬ ((d.counting c).phase = .inSysEx ∧ s = sysExEnd) := closes
    rw [onStatus, onStatus, if_neg closes, if_neg closes', abort_counting]
    exact start_counting { d.abort with repeatable := repeatsAfter s } c s

theorem feed_counting (b : UInt8) :
    (d.counting c).feed b = ((d.feed b).1.counting c, (d.feed b).2) := by
  rcases byte_cases b with data | status | high
  · by_cases idle : d.phase = .idle
    · have idle' : (d.counting c).phase = .idle := idle
      by_cases alone : d.repeatable = none ∨ d.options.runningStatus = false
      · rw [feed_stray data idle alone, feed_stray data idle' alone]
        rfl
      · rw [not_or, Bool.not_eq_false] at alone
        obtain ⟨s, cached⟩ := Option.ne_none_iff_exists'.mp alone.1
        have cached' : (d.counting c).repeatable = some s := cached
        have opened := reopen_phase d s
        have opened' : ((d.counting c).reopen s).phase ≠ .idle := opened
        rw [feed_repeat data idle cached alone.2, feed_repeat data idle' cached' alone.2,
          feed_open data opened, feed_open data opened']
        exact extend_counting (d.reopen s) c b
    · have inside : (d.counting c).phase ≠ .idle := idle
      rw [feed_open data idle, feed_open data inside]
      exact extend_counting d c b
  · rw [feed_status d status, feed_status (d.counting c) status]
    exact onStatus_counting d c b
  · obtain ⟨k, rfl⟩ := Realtime.exists_of_le b high
    rw [feed_realtime, feed_realtime]
    rfl

theorem feedAll_counting (w : List UInt8) :
    (d.counting c).feedAll w = ((d.feedAll w).1.counting c, (d.feedAll w).2) := by
  induction w generalizing d with
  | nil => rfl
  | cons b rest ih => rw [feedAll_cons, feedAll_cons, feed_counting, ih]

end

/-- A decoder that has taken `n` more realtime bytes. -/
def tallied (d : Decoder) (n : Nat) : Decoder :=
  { d with counters := { d.counters with
      messages := n + d.counters.messages
      realtime := n + d.counters.realtime } }

theorem tallied_eq (d : Decoder) (n : Nat) :
    d.tallied n = d.counting { messages := n, realtime := n } := by
  change _ = ({ d with counters :=
    { messages := n + d.counters.messages
      realtime := n + d.counters.realtime
      framingErrors := 0 + d.counters.framingErrors
      aborted := 0 + d.counters.aborted
      truncated := 0 + d.counters.truncated } } : Decoder)
  simp only [Nat.zero_add, tallied]

theorem tallied_tallied (d : Decoder) (m n : Nat) :
    (d.tallied m).tallied n = d.tallied (n + m) := by
  simp [tallied, Nat.add_assoc]

theorem feed_realtime_tallied (d : Decoder) (k : Realtime) :
    d.feed k.byte = (d.tallied 1, some (.realtime k)) := by
  rw [feed_realtime, tallied, Nat.add_comm 1, Nat.add_comm 1]

theorem feed_tallied (d : Decoder) (n : Nat) (b : UInt8) :
    (d.tallied n).feed b = ((d.feed b).1.tallied n, (d.feed b).2) := by
  rw [tallied_eq, tallied_eq, feed_counting]

theorem feedAll_tallied (d : Decoder) (n : Nat) (w : List UInt8) :
    (d.tallied n).feedAll w = ((d.feedAll w).1.tallied n, (d.feedAll w).2) := by
  rw [tallied_eq, tallied_eq, feedAll_counting]

/-! ### Messages of other bytes -/

theorem not_realtime_of_spells {m : Message} {s : UInt8} {data : List UInt8}
    (spells : m.Spells s data) (length : lengthOf s = .two ∨ lengthOf s = .three) :
    m.isRealtime = false := by
  rw [← spells.2.2.1] at length
  exact not_realtime_of_data length

theorem feed_data_plain {d : Decoder} {b : UInt8} {m : Message} (valid : d.Valid) (data : b < 0x80)
    (given : (d.feed b).2 = some m) : m.isRealtime = false := by
  have fed := valid.takesData data
  generalize d.feed b = step at fed given
  cases fed with
  | stray => exact nomatch given
  | repeatsTwo idle cached length spells =>
    obtain rfl := Option.some.inj given
    exact not_realtime_of_spells spells (.inl length)
  | repeatsThree => exact nomatch given
  | two held length spells =>
    obtain rfl := Option.some.inj given
    exact not_realtime_of_spells spells (.inl length)
  | half => exact nomatch given
  | three held length spells =>
    obtain rfl := Option.some.inj given
    exact not_realtime_of_spells spells (.inr length)
  | run => exact nomatch given

theorem feed_plain {d : Decoder} {b : UInt8} {m : Message} (valid : d.Valid) (low : b < 0xF8)
    (given : (d.feed b).2 = some m) : m.isRealtime = false := by
  cases byteClass b with
  | data data => exact feed_data_plain valid data given
  | two length => rw [feed_two d length] at given; exact nomatch given
  | three length => rw [feed_three d length] at given; exact nomatch given
  | tune =>
    rw [feed_tune] at given
    obtain rfl := Option.some.inj given
    rfl
  | opens => rw [feed_opens] at given; exact nomatch given
  | closes =>
    by_cases inside : d.phase = .inSysEx
    · rw [feed_closes_run inside] at given
      obtain rfl := Option.some.inj given
      rfl
    · rw [feed_closes_stray inside] at given
      exact nomatch given
  | undefined unused => rw [feed_unused d unused] at given; exact nomatch given
  | realtime k => cases k <;> exact absurd low (by decide)

/-! ### Two streams -/

/-- The stream as a receiver without realtime would have it. -/
def plainBytes (w : List UInt8) : List UInt8 := w.filter (!isRealtime ·)

theorem plainBytes_realtime (k : Realtime) (w : List UInt8) :
    plainBytes (k.byte :: w) = plainBytes w := by
  simp [plainBytes]

theorem plainBytes_cons {b : UInt8} (low : b < 0xF8) (w : List UInt8) :
    plainBytes (b :: w) = b :: plainBytes w := by
  simp [plainBytes, isRealtime_of_lt low]

theorem plainBytes_lt (w : List UInt8) : ∀ b ∈ plainBytes w, b < 0xF8 := by
  intro b member
  have kept := (List.mem_filter.mp member).2
  rw [Bool.not_eq_true', isRealtime, decide_eq_false_iff_not] at kept
  exact UInt8.not_le.mp kept

theorem feedAll_plainBytes (d : Decoder) (w : List UInt8) :
    (d.feedAll w).1 = (d.feedAll (plainBytes w)).1.tallied (w.countP isRealtime) := by
  induction w generalizing d with
  | nil => simp [plainBytes, tallied]
  | cons b rest ih =>
    rcases UInt8.lt_or_le b 0xF8 with low | high
    · rw [plainBytes_cons low, feedAll_cons, feedAll_cons, ih,
        List.countP_cons_of_neg (by simp [isRealtime_of_lt low])]
    · obtain ⟨k, rfl⟩ := Realtime.exists_of_le b high
      -- The tally of this byte passes through the rest of the stream.
      rw [plainBytes_realtime, feedAll_cons, feed_realtime_tallied, feedAll_tallied, ih,
        tallied_tallied, List.countP_cons_of_pos (Realtime.isRealtime_byte k), Nat.add_comm]

theorem feed_after_plainBytes (d : Decoder) (w : List UInt8) (b : UInt8) :
    ((d.feedAll w).1.feed b).2 = ((d.feedAll (plainBytes w)).1.feed b).2 := by
  rw [feedAll_plainBytes d w, feed_tallied]

theorem messages_plainBytes {d : Decoder} (valid : d.Valid) (w : List UInt8) :
    withoutRealtime (d.feedAll w).2 = (d.feedAll (plainBytes w)).2 ∧
      ((d.feedAll w).2.filter Message.isRealtime).flatMap Message.encode = w.filter isRealtime := by
  induction w generalizing d with
  | nil => exact ⟨rfl, rfl⟩
  | cons b rest ih =>
    rcases UInt8.lt_or_le b 0xF8 with low | high
    · obtain ⟨others, bytes⟩ := ih (feed_valid valid b).1
      rw [plainBytes_cons low, feedAll_cons, feedAll_cons, ← others,
        List.filter_cons_of_neg (by simp [isRealtime_of_lt low]), ← bytes]
      cases given : (d.feed b).2 with
      | none => exact ⟨rfl, rfl⟩
      | some m =>
        have plain := feed_plain valid low given
        simp [withoutRealtime, plain]
    · obtain ⟨k, rfl⟩ := Realtime.exists_of_le b high
      obtain ⟨others, bytes⟩ := ih valid
      rw [plainBytes_realtime, feedAll_cons, feed_realtime_tallied, feedAll_tallied, ← others,
        List.filter_cons_of_pos (Realtime.isRealtime_byte k), ← bytes]
      exact ⟨rfl, rfl⟩

end Decoder

/--
Without its realtime bytes a stream gives the same other messages, on the same bytes, and leaves the
decoder in the same state. The realtime bytes give one message each, at once.
-/
theorem realtime_transparent (options : Decoder.Options) (w : List UInt8) :
    let d := Decoder.new options
    let plain := w.filter (!isRealtime ·)
    let removed := w.filter isRealtime
    (d.feedAll w).1 =
        { (d.feedAll plain).1 with counters := { (d.feedAll plain).1.counters with
            messages := (d.feedAll plain).1.counters.messages + removed.length
            realtime := removed.length } } ∧
      withoutRealtime (d.feedAll w).2 = (d.feedAll plain).2 ∧
      ((d.feedAll w).2.filter Message.isRealtime).flatMap Message.encode = removed ∧
      ∀ before b after, before ++ b :: after = w →
        let given := ((d.feedAll before).1.feed b).2
        (isRealtime b = true → ∃ k : Realtime, k.byte = b ∧ given = some (.realtime k)) ∧
        (isRealtime b = false →
          given = ((d.feedAll (before.filter (!isRealtime ·))).1.feed b).2 ∧
            ∀ m, given = some m → m.isRealtime = false) := by
  intro d plain removed
  have valid := Decoder.valid_new options
  obtain ⟨others, bytes⟩ := Decoder.messages_plainBytes valid w
  refine ⟨?_, others, bytes, ?_⟩
  · have none_counted : (d.feedAll plain).1.counters.realtime = 0 :=
      (Decoder.feedAll_counts d (Decoder.plainBytes_lt w)).2
    have tally := d.feedAll_plainBytes w
    rw [List.countP_eq_length_filter, Decoder.tallied] at tally
    change _ = ({ (d.feedAll plain).1 with counters := { (d.feedAll plain).1.counters with
      messages := removed.length + (d.feedAll plain).1.counters.messages
      realtime := removed.length + (d.feedAll plain).1.counters.realtime } } : Decoder) at tally
    rw [tally, none_counted, Nat.add_zero, Nat.add_comm removed.length]
  · intro before b after _ given
    constructor
    · intro realtime
      obtain ⟨k, rfl⟩ := Realtime.exists_of_le b (of_decide_eq_true realtime)
      exact ⟨k, rfl, congrArg Prod.snd (Decoder.feed_realtime _ k)⟩
    · intro other
      have low : b < 0xF8 := UInt8.not_le.mp (of_decide_eq_false other)
      exact ⟨d.feed_after_plainBytes before b,
        fun m => Decoder.feed_plain (Decoder.feedAll_valid valid before).1 low⟩

/-- Realtime bytes amid a note and amid a run, also where the run is cut. -/
theorem realtime_transparent_in_cut_run :
    let w : List UInt8 := [0x90, 0xF8, 60, 0xFE, 100, 0xF0, 1, 2, 0xFA, 3, 0xFF, 0xF7]
    withoutRealtime ((Decoder.new { maxSysEx := 4 }).feedAll w).2 =
        [.noteOn 0 60 100, .sysEx { data := [0xF0, 1, 2, 0xF7], truncated := true }] ∧
      (((Decoder.new { maxSysEx := 4 }).feedAll w).2.filter Message.isRealtime).flatMap
        Message.encode = [0xF8, 0xFE, 0xFA, 0xFF] ∧
      ((Decoder.new { maxSysEx := 4 }).feedAll w).1.counters.realtime = 4 := by
  intro w
  obtain ⟨state, others, bytes, -⟩ := realtime_transparent { maxSysEx := 4 } w
  refine ⟨others.trans (by decide), bytes.trans (by decide), ?_⟩
  rw [state]
  decide

end MidiPatch
