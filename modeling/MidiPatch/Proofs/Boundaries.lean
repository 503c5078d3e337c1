import MidiPatch.Proofs.Recovery
import MidiPatch.Proofs.Tracking

/-!
# What a boundary knows

All that a `Boundary` says can be read off the stream: it depends on the last status byte and on the
number of data bytes after it (`boundary_recalls`). And all that it says is true of every receiver
of the stream, whatever the options it reads with (`boundary_sound_at_receiver`).
-/

namespace MidiPatch

open Wire

/-! ### The last status byte of a stream -/

def Wire.isPlainStatus (b : UInt8) : Bool := isStatus b && !isRealtime b

/-- The last status byte, realtime apart. -/
def lastStatus? (bytes : List UInt8) : Option UInt8 := (bytes.filter isPlainStatus).getLast?

/-- How many data bytes follow the last status byte, or how many there are if it has none. -/
def dataAfter (bytes : List UInt8) : Nat :=
  (bytes.rtakeWhile (!isPlainStatus ·)).countP (!isStatus ·)

theorem lastStatus?_range {bytes : List UInt8} {s : UInt8} (last : lastStatus? bytes = some s) :
    0x80 ≤ s ∧ s < 0xF8 := by
  have kept := (List.mem_filter.mp (List.mem_of_getLast? last)).2
  simpa [isPlainStatus, isStatus, isRealtime] using kept

theorem snoc_data {b : UInt8} (bytes : List UInt8) (data : b < 0x80) :
    lastStatus? (bytes ++ [b]) = lastStatus? bytes ∧
      dataAfter (bytes ++ [b]) = dataAfter bytes + 1 := by
  have other : isPlainStatus b = false := by simp [isPlainStatus, isStatus_of_lt data]
  unfold lastStatus? dataAfter
  rw [List.filter_append, List.rtakeWhile_concat_pos _ _ _ (by simp [other])]
  simp [other, isStatus_of_lt data]

theorem snoc_status {s : UInt8} (bytes : List UInt8) (status : 0x80 ≤ s ∧ s < 0xF8) :
    lastStatus? (bytes ++ [s]) = some s ∧ dataAfter (bytes ++ [s]) = 0 := by
  have plain : isPlainStatus s = true := by
    simp [isPlainStatus, isStatus_of_le status.1, isRealtime_of_lt status.2]
  unfold lastStatus? dataAfter
  rw [List.filter_append, List.rtakeWhile_concat_neg _ _ _ (by simp [plain])]
  simp [plain]

theorem snoc_realtime (bytes : List UInt8) (k : Realtime) :
    lastStatus? (bytes ++ [k.byte]) = lastStatus? bytes ∧
      dataAfter (bytes ++ [k.byte]) = dataAfter bytes := by
  have other : isPlainStatus k.byte = false := by simp [isPlainStatus]
  have status : isStatus k.byte = true := by cases k <;> rfl
  unfold lastStatus? dataAfter
  rw [List.filter_append, List.rtakeWhile_concat_pos _ _ _ (by simp [other])]
  simp [other, status]

namespace Boundary

/-- A boundary just after its last status byte. The count `n` is left from before. -/
def opening (n : Nat) : Option UInt8 → Boundary
  | none => { count := n }
  | some s => ({ count := n } : Boundary).next s

/-- Nothing before the last status byte matters but a count, which no byte reads any more. -/
theorem run_eq_iterate (bytes : List UInt8) :
    ∃ n, ({} : Boundary).run bytes = onData^[dataAfter bytes] (opening n (lastStatus? bytes)) := by
  induction bytes using List.reverseRecOn with
  | nil => exact ⟨0, rfl⟩
  | append_singleton bytes b ih =>
    obtain ⟨n, ih⟩ := ih
    rw [run_snoc]
    rcases byte_cases b with data | status | high
    · obtain ⟨last, count⟩ := snoc_data bytes data
      refine ⟨n, ?_⟩
      rw [last, count, next_data _ data, ih, Function.iterate_succ_apply']
    · obtain ⟨last, count⟩ := snoc_status bytes status
      refine ⟨(({} : Boundary).run bytes).count, ?_⟩
      rw [last, count]
      simp [opening, next, isRealtime_of_lt status.2, isStatus_of_le status.1]
    · obtain ⟨k, rfl⟩ := Realtime.exists_of_le b high
      obtain ⟨last, count⟩ := snoc_realtime bytes k
      refine ⟨n, ?_⟩
      rw [last, count, next_realtime, ih]

/-! ### Data bytes after a status byte -/

theorem iterate_none (n k : Nat) :
    onData^[k] ⟨none, n, true⟩ = ⟨none, n, decide (k = 0)⟩ := by
  induction k with
  | zero => rfl
  | succ k ih => rw [Function.iterate_succ_apply', ih]; rfl

theorem iterate_undefined {s : UInt8} (length : lengthOf s = .undefined) (k : Nat) :
    onData^[k] ⟨some s, 0, false⟩ = ⟨some s, 0, false⟩ := by
  induction k with
  | zero => rfl
  | succ k ih => rw [Function.iterate_succ_apply', ih, onData_undefined length]

theorem iterate_two {s : UInt8} (length : lengthOf s = .two) (k : Nat) :
    onData^[k] ⟨some s, 0, false⟩ = ⟨if k = 0 then some s else none, 0, decide (k = 1)⟩ := by
  cases k with
  | zero => rfl
  | succ k =>
    rw [Function.iterate_succ_apply, onData_two length, iterate_none]
    simp

/-- The data of a channel message comes in pairs, which all repeat its status. -/
theorem iterate_channel {s : UInt8} (length : lengthOf s = .three)
    (channel : isChannelStatus s = true) (k : Nat) :
    onData^[k] ⟨some s, 0, false⟩ = ⟨some s, k % 2, decide (Even k ∧ 2 ≤ k)⟩ := by
  have kept : Decoder.repeatsAfter s = some s := if_pos channel
  induction k with
  | zero => rfl
  | succ k ih =>
    rw [Function.iterate_succ_apply', ih]
    rcases Nat.mod_two_eq_zero_or_one k with even | odd
    · have count : (k + 1) % 2 = 1 := by omega
      have open_ : ¬ (Even (k + 1) ∧ 2 ≤ k + 1) := by
        rw [Nat.even_iff]
        omega
      rw [even, onData_first length, count, decide_eq_false open_]
    · have count : (k + 1) % 2 = 0 := by omega
      have whole : Even (k + 1) ∧ 2 ≤ k + 1 := by
        rw [Nat.even_iff]
        omega
      rw [odd, onData_second length, kept, count, decide_eq_true whole]

theorem iterate_position {s : UInt8} (length : lengthOf s = .three)
    (system : isChannelStatus s = false) (k : Nat) :
    onData^[k] ⟨some s, 0, false⟩ =
      ⟨if k < 2 then some s else none, if k = 1 then 1 else 0, decide (k = 2)⟩ := by
  have dropped : Decoder.repeatsAfter s = none := if_neg (by simp [system])
  match k with
  | 0 => rfl
  | 1 => exact onData_first length
  | k + 2 =>
    rw [Function.iterate_succ_apply, onData_first length, Function.iterate_succ_apply,
      onData_second length, dropped, iterate_none]
    simp

/-- What a boundary is after a status byte and `k` data bytes. -/
inductive Since (k : Nat) : UInt8 → Boundary → Prop
  | whole {s : UInt8} (n : Nat) (alone : s = tuneRequest ∨ s = sysExEnd) :
      Since k s ⟨none, n, decide (k = 0)⟩
  | two {s : UInt8} (length : lengthOf s = .two) :
      Since k s ⟨if k = 0 then some s else none, 0, decide (k = 1)⟩
  | channel {s : UInt8} (length : lengthOf s = .three) (channel : isChannelStatus s = true) :
      Since k s ⟨some s, k % 2, decide (Even k ∧ 2 ≤ k)⟩
  | position :
      Since k 0xF2 ⟨if k < 2 then some 0xF2 else none, if k = 1 then 1 else 0, decide (k = 2)⟩
  | endless {s : UInt8} (unbounded : s = sysExBegin ∨ s = 0xF4 ∨ s = 0xF5) :
      Since k s ⟨some s, 0, false⟩

theorem since_status {s : UInt8} (status : 0x80 ≤ s ∧ s < 0xF8) (n k : Nat) :
    Since k s (onData^[k] (opening n (some s))) := by
  change Since k s (onData^[k] (({ count := n } : Boundary).next s))
  cases byteClass s with
  | data low => exact absurd status.1 (UInt8.not_le.mpr low)
  | two length =>
    rw [next_two _ length, iterate_two length]
    exact .two length
  | three length =>
    rw [next_three _ length]
    cases channel : isChannelStatus s with
    | true =>
      rw [iterate_channel length channel]
      exact .channel length channel
    | false =>
      obtain rfl : s = 0xF2 := by grind [isChannelStatus, lengthOf]
      rw [iterate_position length channel]
      exact .position
  | tune =>
    rw [next_tune, iterate_none]
    exact .whole n (.inl rfl)
  | opens =>
    rw [next_opens, iterate_undefined rfl]
    exact .endless (.inl rfl)
  | closes =>
    rw [next_closes, iterate_none]
    exact .whole n (.inr rfl)
  | undefined unused =>
    rw [next_unused _ unused, iterate_undefined (by rcases unused with rfl | rfl <;> rfl)]
    exact .endless (.inr unused)
  | realtime k => cases k <;> exact absurd status.2 (by decide)

theorem run_since {bytes : List UInt8} {s : UInt8} (found : lastStatus? bytes = some s) :
    Since (dataAfter bytes) s (({} : Boundary).run bytes) := by
  obtain ⟨n, known⟩ := run_eq_iterate bytes
  rw [known, found]
  exact since_status (lastStatus?_range found) n _

theorem run_unstarted {bytes : List UInt8} (found : lastStatus? bytes = none) :
    ∃ n, ({} : Boundary).run bytes = ⟨none, n, decide (dataAfter bytes = 0)⟩ := by
  obtain ⟨n, known⟩ := run_eq_iterate bytes
  rw [found] at known
  exact ⟨n, known.trans (iterate_none n _)⟩

theorem other_of_two {s : UInt8} (length : lengthOf s = .two) :
    s ≠ sysExBegin ∧ s ≠ 0xF2 ∧ s ≠ 0xF4 ∧ s ≠ 0xF5 ∧ s ≠ tuneRequest ∧ s ≠ sysExEnd := by
  and_intros <;> rintro rfl <;> exact nomatch length

theorem other_of_channel {s : UInt8} (channel : isChannelStatus s = true) :
    s ≠ sysExBegin ∧ s ≠ 0xF2 ∧ s ≠ 0xF4 ∧ s ≠ 0xF5 ∧ s ≠ tuneRequest ∧ s ≠ sysExEnd := by
  and_intros <;> rintro rfl <;> exact nomatch channel

variable {k : Nat} {s : UInt8} {t : Boundary}

theorem Since.safe_iff (since : Since k s t) :
    t.safe = true ↔
      (s = tuneRequest ∨ s = sysExEnd) ∧ k = 0 ∨ lengthOf s = .two ∧ k = 1 ∨ s = 0xF2 ∧ k = 2 ∨
        (isChannelStatus s = true ∧ lengthOf s = .three) ∧ Even k ∧ 2 ≤ k := by
  cases since with
  | whole n alone =>
    rcases alone with rfl | rfl <;> simp [tuneRequest, sysExEnd, isChannelStatus, lengthOf]
  | two length => simp [length, other_of_two length]
  | channel length channel => simp [length, channel, other_of_channel channel]
  | position => simp [tuneRequest, sysExEnd, isChannelStatus, lengthOf]
  | endless unbounded =>
    rcases unbounded with rfl | rfl | rfl <;>
      simp [tuneRequest, sysExEnd, sysExBegin, isChannelStatus, lengthOf]

theorem Since.status_iff (since : Since k s t) (r : UInt8) :
    t.status = some r ↔
      s = r ∧ ((s = sysExBegin ∨ s = 0xF4 ∨ s = 0xF5) ∨ lengthOf s = .two ∧ k = 0 ∨
        s = 0xF2 ∧ k < 2 ∨ isChannelStatus s = true ∧ lengthOf s = .three) := by
  cases since with
  | whole n alone =>
    rcases alone with rfl | rfl <;>
      simp [tuneRequest, sysExEnd, sysExBegin, isChannelStatus, lengthOf]
  | two length => simp [length, other_of_two length, and_comm]
  | channel length channel => simp [length, channel]
  | position => simp [sysExBegin, isChannelStatus, lengthOf, and_comm]
  | endless unbounded => simp [unbounded]

theorem Since.canRepeat_iff (since : Since k s t) (r : UInt8) :
    t.canRepeat r = true ↔
      s = r ∧ (isChannelStatus s = true ∧ lengthOf s = .three) ∧ Even k ∧ 2 ≤ k := by
  rw [Boundary.canRepeat_iff]
  cases since with
  | whole n alone =>
    refine iff_of_false (fun free => nomatch free.2.2.1) ?_
    rintro ⟨-, ⟨channel, -⟩, -⟩
    rcases alone with rfl | rfl <;> exact nomatch channel
  | two length =>
    refine iff_of_false ?_ fun free => nomatch length.symm.trans free.2.1.2
    -- The status is forgotten with the byte that ends the message.
    rintro ⟨safe, -, status, -⟩
    rw [of_decide_eq_true safe] at status
    exact nomatch status
  | channel length channel =>
    constructor
    · rintro ⟨safe, -, status, -⟩
      exact ⟨Option.some.inj status, ⟨channel, length⟩, of_decide_eq_true safe⟩
    · rintro ⟨rfl, -, whole⟩
      exact ⟨decide_eq_true whole, Nat.even_iff.mp whole.1, rfl, channel⟩
  | position =>
    refine iff_of_false ?_ fun free => nomatch free.2.1.1
    rintro ⟨safe, -, status, -⟩
    rw [of_decide_eq_true safe] at status
    exact nomatch status
  | endless unbounded =>
    refine iff_of_false (fun free => nomatch free.1) ?_
    rintro ⟨-, ⟨channel, -⟩, -⟩
    rcases unbounded with rfl | rfl | rfl <;> exact nomatch channel

/-! ### Streams that are started over -/

/-- A boundary is told of each byte, and of each time its stream starts over. -/
def handle (t : Boundary) : Decoder.Event → Boundary
  | .byte b => t.next b
  | .reset => {}

def after (t : Boundary) (events : List Decoder.Event) : Boundary := events.foldl handle t

/-- The bytes since the stream was started over the last time. -/
def sinceReset (events : List Decoder.Event) : List UInt8 :=
  events.foldl (fun bytes => fun | .byte b => bytes ++ [b] | .reset => []) []

theorem after_eq_run (events : List Decoder.Event) :
    ({} : Boundary).after events = ({} : Boundary).run (sinceReset events) := by
  induction events using List.reverseRecOn with
  | nil => rfl
  | append_singleton events event ih =>
    unfold after sinceReset at *
    rw [List.foldl_concat, List.foldl_concat, ih]
    cases event with
    | byte b => exact (run_snoc _ _ b).symm
    | reset => rfl

end Boundary

/--
What a boundary says after any stream, by the last status byte since the stream was started over and
the number `k` of data bytes after it. A realtime byte is answered as the byte before it was, and
changes nothing.
-/
theorem boundary_recalls (events : List Decoder.Event) :
    let t := ({} : Boundary).after events
    let last := lastStatus? (Boundary.sinceReset events)
    let k := dataAfter (Boundary.sinceReset events)
    (t.safe = true ↔
      last = none ∧ k = 0 ∨
      ∃ s, last = some s ∧
        ((s = tuneRequest ∨ s = sysExEnd) ∧ k = 0 ∨ lengthOf s = .two ∧ k = 1 ∨ s = 0xF2 ∧ k = 2 ∨
          (isChannelStatus s = true ∧ lengthOf s = .three) ∧ Even k ∧ 2 ≤ k)) ∧
    (∀ s, t.status = some s ↔
      last = some s ∧
        ((s = sysExBegin ∨ s = 0xF4 ∨ s = 0xF5) ∨ lengthOf s = .two ∧ k = 0 ∨ s = 0xF2 ∧ k < 2 ∨
          isChannelStatus s = true ∧ lengthOf s = .three)) ∧
    (∀ s, t.canRepeat s = true ↔
      last = some s ∧ (isChannelStatus s = true ∧ lengthOf s = .three) ∧ Even k ∧ 2 ≤ k) ∧
    ∀ b, isRealtime b = true → (t.next b).safe = t.safe ∧ t.next b = t := by
  intro t last k
  have quiet : ∀ b, isRealtime b = true → t.next b = t := fun b realtime => if_pos realtime
  have state : t = ({} : Boundary).run (Boundary.sinceReset events) := Boundary.after_eq_run events
  rw [← and_assoc, ← and_assoc]
  refine ⟨?_, fun b realtime => ⟨congrArg Boundary.safe (quiet b realtime), quiet b realtime⟩⟩
  cases found : last with
  | none =>
    obtain ⟨n, known⟩ := Boundary.run_unstarted found
    rw [← state] at known
    simp [known, Boundary.canRepeat, k]
  | some s =>
    have since : Boundary.Since k s t := by
      rw [state]
      exact Boundary.run_since found
    refine ⟨⟨?_, fun r => ?_⟩, fun r => ?_⟩
    · rw [since.safe_iff]
      simp
    · rw [since.status_iff, Option.some.injEq]
      exact and_congr_right fun same => by rw [same]
    · rw [since.canRepeat_iff, Option.some.injEq]
      exact and_congr_right fun same => by rw [same]

/-- Two notes under one status byte, the second one open, and a clock before their data. -/
example :
    let bytes : List UInt8 := [0xC0, 5, 0x90, 0xF8, 60, 100, 62]
    lastStatus? bytes = some 0x90 ∧ dataAfter bytes = 3 ∧
      ({} : Boundary).run bytes = { status := some 0x90, count := 1, safe := false } := by
  decide

/-! ### The receiver -/

namespace Tracks

variable {t : Boundary} {d : Decoder} {b : UInt8} {m : Message}

theorem safe_of_data (h : Tracks t d) (data : b < 0x80)
    (off : d.options.runningStatus = false) (given : (d.feed b).2 = some m) :
    (t.next b).safe = true := by
  rw [Boundary.next_data t data]
  cases h with
  | clear phase =>
    rw [Decoder.feed_stray data phase (.inr off)] at given
    exact nomatch given
  | two length => rw [Boundary.onData_two length]
  | three length phase =>
    rw [Decoder.feed_secondOfThree data phase] at given
    exact nomatch given
  | half length => rw [Boundary.onData_second length]
  | done length phase =>
    -- With a status to repeat this would be half a message, which the sender would not see whole.
    rw [Decoder.feed_stray data phase (.inr off)] at given
    exact nomatch given
  | dropped length phase =>
    rw [Decoder.feed_stray data phase (.inr off)] at given
    exact nomatch given
  | run phase =>
    rw [(Decoder.feed_inSysEx data phase).1] at given
    exact nomatch given
  | unused which phase =>
    rw [Decoder.feed_stray data phase (.inr off)] at given
    exact nomatch given

/-- A receiver that repeats no status completes its messages where the sender sees a boundary. -/
theorem safe_of_given (h : Tracks t d) (off : d.options.runningStatus = false)
    (given : (d.feed b).2 = some m) (plain : m.isRealtime = false) : (t.next b).safe = true := by
  cases byteClass b with
  | data low => exact h.safe_of_data low off given
  | two length =>
    rw [Decoder.feed_two d length] at given
    exact nomatch given
  | three length =>
    rw [Decoder.feed_three d length] at given
    exact nomatch given
  | tune => rfl
  | opens =>
    rw [Decoder.feed_opens] at given
    exact nomatch given
  | closes => rfl
  | undefined unused =>
    rw [Decoder.feed_unused d unused] at given
    exact nomatch given
  | realtime k =>
    rw [Decoder.feed_realtime] at given
    obtain rfl := Option.some.inj given
    exact nomatch plain

theorem repeats_of_canRepeat {s : UInt8} (h : Tracks t d) (free : t.canRepeat s = true) :
    d.phase = .idle ∧ d.repeatable = some s ∧ isChannelStatus s = true ∧ lengthOf s = .three := by
  have cached := h.cached_of_canRepeat free
  obtain ⟨safe, -, status, channel⟩ := (t.canRepeat_iff s).mp free
  refine ⟨h.idle_of_safe safe, cached, channel, ?_⟩
  cases h with
  | clear => exact nomatch status
  | done length =>
    obtain rfl := Option.some.inj status
    exact length
  | _ => exact nomatch safe

end Tracks

theorem Decoder.Valid.feedAll_pair {d : Decoder} {s a b : UInt8} (valid : d.Valid)
    (phase : d.phase = .idle) (cached : d.repeatable = some s) (length : lengthOf s = .three)
    (running : d.options.runningStatus = true) (low : a < 0x80) (high : b < 0x80) :
    ∃ m, m.Spells s [a, b] ∧ d.feedAll [a, b] = (d.took m, [m]) := by
  obtain ⟨m, spells⟩ := Message.exists_of_three length low high
  obtain ⟨-, wf, status, encoded⟩ := id spells
  have again := Decoder.feedAll_repeated (valid.idle phase) wf running (by rw [cached, status])
    (by rw [status]; exact valid.repeatable s cached)
  rw [encoded] at again
  exact ⟨m, spells, again⟩

/--
A boundary and a receiver follow the same stream. Where the boundary is safe the receiver has
nothing open. A receiver without running status completes its messages at boundaries only, realtime
messages apart. A status that may be left out is one that the receiver has kept, of a channel
message of three bytes, so a receiver with running status makes any two data bytes that message.
-/
theorem boundary_sound_at_receiver (options : Decoder.Options) (bytes : List UInt8) :
    let t := ({} : Boundary).run bytes
    let d := ((Decoder.new options).feedAll bytes).1
    (t.safe = true → d.phase = .idle) ∧
    (options.runningStatus = false → ∀ b m, (d.feed b).2 = some m → m.isRealtime = false →
      (t.next b).safe = true) ∧
    ∀ s, t.canRepeat s = true →
      (d.phase = .idle ∧ d.repeatable = some s ∧ isChannelStatus s = true ∧
        lengthOf s = .three) ∧
      (options.runningStatus = true → ∀ a b, a < 0x80 → b < 0x80 →
        ∃ m, m.Spells s [a, b] ∧ (d.feedAll [a, b]).2 = [m]) := by
  intro t d
  have valid : d.Valid := (Decoder.feedAll_valid (Decoder.valid_new options) bytes).1
  have running : d.options.runningStatus = options.runningStatus := by
    rw [show d.options = (Decoder.new options).options from Decoder.feedAll_options _ bytes]
    rfl
  have tracks : Tracks t d := (Tracks.start options).feedAll (Decoder.valid_new options) bytes
  refine ⟨tracks.idle_of_safe, ?_, ?_⟩
  · intro off b m given plain
    exact tracks.safe_of_given (running.trans off) given plain
  · intro s free
    obtain ⟨phase, cached, channel, length⟩ := tracks.repeats_of_canRepeat free
    refine ⟨⟨phase, cached, channel, length⟩, ?_⟩
    intro on a b low high
    obtain ⟨m, spells, read⟩ :=
      valid.feedAll_pair phase cached length (running.trans on) low high
    exact ⟨m, spells, congrArg Prod.snd read⟩

end MidiPatch
