import MidiPatch.Decoder
import MidiPatch.Proofs.WellFormed

/-!
# What a decoder does with a byte

One equation for each class of bytes, and from them what a decoder makes of a whole message:
`feedAll_encode` reads a well-formed message back, its runs cut at the limit.
-/

namespace MidiPatch

open Wire

namespace Decoder

theorem feed_data {b : UInt8} (d : Decoder) (data : b < 0x80) : d.feed b = d.onData b := by
  simp [feed, Realtime.ofByte?_of_lt b (lt_realtime_of_data data), isStatus_of_lt data]

theorem feed_status {s : UInt8} (d : Decoder) (status : 0x80 ≤ s ∧ s < 0xF8) :
    d.feed s = d.onStatus s := by
  simp [feed, Realtime.ofByte?_of_lt s status.2, isStatus_of_le status.1]

theorem feed_realtime (d : Decoder) (k : Realtime) :
    d.feed k.byte =
      ({ d with counters := { d.counters with
          messages := d.counters.messages + 1
          realtime := d.counters.realtime + 1 } }, some (.realtime k)) := by
  simp [feed, Realtime.ofByte?_byte, complete]

/-! ### Options stay -/

@[simp] theorem finish_options (d : Decoder) (bytes : List UInt8) :
    (d.finish bytes).1.options = d.options := by
  unfold finish; split <;> rfl

@[simp] theorem start_options (d : Decoder) (s : UInt8) : (d.start s).1.options = d.options := by
  unfold start
  split
  · exact finish_options d [s]
  · rfl
  · rfl
  · split <;> rfl

@[simp] theorem extend_options (d : Decoder) (b : UInt8) : (d.extend b).1.options = d.options := by
  unfold extend
  split
  · rfl
  · exact finish_options d _
  · rfl
  · exact finish_options d _
  · split
    · rfl
    · split <;> rfl

@[simp] theorem abort_options (d : Decoder) : d.abort.options = d.options := by
  unfold abort; split <;> rfl

@[simp] theorem feed_options (d : Decoder) (b : UInt8) : (d.feed b).1.options = d.options := by
  unfold feed onStatus onData
  split
  · rfl
  · split
    · split
      · rfl
      · exact (start_options _ b).trans (abort_options d)
    · split
      · split
        · exact extend_options _ b
        · rfl
      · exact extend_options d b

@[simp] theorem feedAll_options (d : Decoder) (bytes : List UInt8) :
    (d.feedAll bytes).1.options = d.options := by
  induction bytes generalizing d with
  | nil => rfl
  | cons b rest ih => rw [feedAll_cons, ih, feed_options]

/-! ### Status bytes -/

theorem abort_eq (d : Decoder) :
    d.abort =
      { d.close with counters := { d.counters with
          aborted := d.counters.aborted + if d.phase = .idle then 0 else 1 } } := by
  unfold abort
  split <;> rfl

@[simp] theorem abort_phase (d : Decoder) : d.abort.phase = .idle := by simp [abort_eq, close]

@[simp] theorem abort_held (d : Decoder) : d.abort.held = [] := by simp [abort_eq, close]

@[simp] theorem abort_cut (d : Decoder) : d.abort.cut = false := by simp [abort_eq, close]

/-- The status that a bare data byte would repeat after a status byte. -/
def repeatsAfter (s : UInt8) : Option UInt8 := if isChannelStatus s then some s else none

theorem feed_two {s : UInt8} (d : Decoder) (length : lengthOf s = .two) :
    d.feed s =
      ({ d.abort with phase := .secondOfTwo, held := [s], repeatable := repeatsAfter s },
        none) := by
  rw [feed_status d (status_of_two s length), onStatus,
    if_neg (by simp [(open_of_two s length).2.1])]
  simp [start, length, repeatsAfter]

theorem feed_three {s : UInt8} (d : Decoder) (length : lengthOf s = .three) :
    d.feed s =
      ({ d.abort with phase := .secondOfThree, held := [s], repeatable := repeatsAfter s },
        none) := by
  rw [feed_status d (status_of_three s length), onStatus,
    if_neg (by simp [(open_of_three s length).2.1])]
  simp [start, length, repeatsAfter]

theorem feed_tune (d : Decoder) :
    d.feed tuneRequest =
      ({ d.abort with
          repeatable := none
          counters := { d.abort.counters with messages := d.abort.counters.messages + 1 } },
        some .tuneRequest) := by
  rw [feed_status d (by decide), onStatus, if_neg (by simp [tuneRequest, sysExEnd]), abort_eq]
  rfl

theorem feed_unused {s : UInt8} (d : Decoder) (unused : s = 0xF4 ∨ s = 0xF5) :
    d.feed s = (({ d.abort with repeatable := none } : Decoder).reject, none) := by
  rcases unused with rfl | rfl
  · rw [feed_status d (by decide), onStatus, if_neg (by simp [sysExEnd])]; rfl
  · rw [feed_status d (by decide), onStatus, if_neg (by simp [sysExEnd])]; rfl

theorem feed_closes_stray {d : Decoder} (outside : d.phase ≠ .inSysEx) :
    d.feed sysExEnd = (({ d.abort with repeatable := none } : Decoder).reject, none) := by
  rw [feed_status d (by decide), onStatus, if_neg (by simp [outside])]
  rfl

theorem feed_closes_run {d : Decoder} (inside : d.phase = .inSysEx) :
    d.feed sysExEnd = d.finishSysEx := by
  rw [feed_status d (by decide), onStatus, if_pos ⟨inside, rfl⟩]

/-! ### Data bytes -/

theorem feed_stray {d : Decoder} {b : UInt8} (data : b < 0x80) (idle : d.phase = .idle)
    (alone : d.repeatable = none ∨ d.options.runningStatus = false) :
    d.feed b = (d.reject, none) := by
  rw [feed_data d data, onData]
  rcases alone with none | off
  · simp [idle, none, extend]
  · cases d.repeatable <;> simp [idle, off, extend]

theorem reopen_phase (d : Decoder) (s : UInt8) : (d.reopen s).phase ≠ .idle := by
  simp only [reopen]
  split
  · exact nofun
  · exact nofun

theorem feed_repeat {d : Decoder} {s b : UInt8} (data : b < 0x80) (idle : d.phase = .idle)
    (cached : d.repeatable = some s) (running : d.options.runningStatus = true) :
    d.feed b = (d.reopen s).feed b := by
  have opened := reopen_phase d s
  rw [feed_data d data, feed_data _ data, onData, onData]
  simp only [idle, cached, running, if_true]
  cases phase : (d.reopen s).phase with
  | idle => exact absurd phase opened
  | _ => rfl

theorem feed_open {d : Decoder} {b : UInt8} (data : b < 0x80) (opened : d.phase ≠ .idle) :
    d.feed b = d.extend b := by
  rw [feed_data d data, onData]
  cases phase : d.phase with
  | idle => exact absurd phase opened
  | _ => rfl

theorem finish_of_read {d : Decoder} {bytes : List UInt8} {m : Message}
    (read : Message.ofBytes? bytes = some m) : d.finish bytes = d.close.complete m := by
  rw [finish, read]

theorem feed_secondOfTwo {d : Decoder} {s b : UInt8} {m : Message} (data : b < 0x80)
    (phase : d.phase = .secondOfTwo) (held : d.held = [s])
    (read : Message.ofBytes? [s, b] = some m) :
    d.feed b = d.close.complete m := by
  rw [feed_open data (by simp [phase]), extend]
  simp only [phase, held, List.cons_append, List.nil_append]
  exact finish_of_read read

theorem feed_secondOfThree {d : Decoder} {b : UInt8} (data : b < 0x80)
    (phase : d.phase = .secondOfThree) :
    d.feed b = ({ d with phase := .thirdOfThree, held := d.held ++ [b] }, none) := by
  rw [feed_open data (by simp [phase]), extend]
  simp only [phase]

theorem feed_thirdOfThree {d : Decoder} {s a b : UInt8} {m : Message} (data : b < 0x80)
    (phase : d.phase = .thirdOfThree) (held : d.held = [s, a])
    (read : Message.ofBytes? [s, a, b] = some m) : d.feed b = d.close.complete m := by
  rw [feed_open data (by simp [phase]), extend]
  simp only [phase, held, List.cons_append, List.nil_append]
  exact finish_of_read read

/-! ### Runs -/

/-- A decoder inside a run of which it was given `body`: it keeps what fits under the limit. -/
def capture (d : Decoder) (body : List UInt8) : Decoder :=
  { d with
    phase := .inSysEx
    held := sysExBegin :: body.take (d.options.maxSysEx - 2)
    cut := decide (d.options.maxSysEx - 2 < body.length)
    counters := { d.counters with
      truncated := d.counters.truncated + (decide (d.options.maxSysEx - 2 < body.length)).toNat } }

theorem feed_opens (d : Decoder) :
    d.feed sysExBegin = (({ d.abort with repeatable := none } : Decoder).capture [], none) := by
  rw [feed_status d (by decide), onStatus, if_neg (by simp [sysExBegin, sysExEnd]), abort_eq]
  simp [start, capture, close, show lengthOf sysExBegin = .undefined from rfl,
    show isChannelStatus sysExBegin = false from rfl]

theorem feed_capture {b : UInt8} (d : Decoder) (body : List UInt8) (data : b < 0x80) :
    (d.capture body).feed b = (d.capture (body ++ [b]), none) := by
  rw [feed_open data (by simp [capture]), extend]
  simp only [capture, List.length_cons, List.length_take, List.length_append, List.length_nil]
  by_cases room : body.length < d.options.maxSysEx - 2
  · rw [if_pos (by omega), List.take_of_length_le (by omega),
      List.take_of_length_le (by simp; omega),
      decide_eq_false (show ¬ d.options.maxSysEx - 2 < body.length by omega),
      decide_eq_false (show ¬ d.options.maxSysEx - 2 < body.length + (0 + 1) by omega)]
    rfl
  · rw [if_neg (by omega), List.take_append_of_le_length (by omega),
      decide_eq_true (show d.options.maxSysEx - 2 < body.length + (0 + 1) by omega)]
    by_cases full : d.options.maxSysEx - 2 < body.length <;> simp [full]

theorem feedAll_capture (d : Decoder) (start : List UInt8) {body : List UInt8}
    (data : ∀ b ∈ body, b < 0x80) :
    (d.capture start).feedAll body = (d.capture (start ++ body), []) := by
  induction body generalizing start with
  | nil => simp
  | cons b rest ih =>
    rw [feedAll_cons, feed_capture d start (data b (by simp)),
      ih (start ++ [b]) fun c member => data c (by simp [member])]
    simp

theorem feed_capture_closes (d : Decoder) (body : List UInt8) :
    (d.capture body).feed sysExEnd =
      ((d.capture body).close.complete
        (.sysEx
          { data := sysExBegin :: body.take (d.options.maxSysEx - 2) ++ [sysExEnd]
            truncated := decide (d.options.maxSysEx - 2 < body.length) })) := by
  rw [feed_closes_run rfl]; rfl

/-! ### Whole messages -/

/-- Between two messages: nothing is open. -/
structure Idle (d : Decoder) : Prop where
  phase : d.phase = .idle
  held : d.held = []
  cut : d.cut = false

theorem abort_of_idle {d : Decoder} (idle : d.Idle) : d.abort = d := by
  obtain ⟨phase, held, cut⟩ := idle
  cases d
  simp_all [abort, close]

theorem idle_abort (d : Decoder) : d.abort.Idle := ⟨abort_phase d, abort_held d, abort_cut d⟩

/-- Unless it closes a run, a status byte is read as if nothing were open. -/
theorem feed_abort {d : Decoder} {s : UInt8} (status : 0x80 ≤ s ∧ s < 0xF8)
    (cuts : ¬ (d.phase = .inSysEx ∧ s = sysExEnd)) : d.feed s = d.abort.feed s := by
  have free : ¬ (d.abort.phase = .inSysEx ∧ s = sysExEnd) := by simp
  rw [feed_status d status, feed_status _ status, onStatus, onStatus, if_neg cuts, if_neg free,
    abort_of_idle (idle_abort d)]

/-- The status left to repeat after a whole message; realtime messages do not touch it. -/
def repeatsAfterMessage (d : Decoder) (m : Message) : Option UInt8 :=
  if m.isRealtime then d.repeatable else repeatsAfter m.status

/-- A decoder that has given out what it keeps of `m`, wherever it stood. -/
def took (d : Decoder) (m : Message) : Decoder :=
  { d with
    repeatable := d.repeatsAfterMessage m
    counters := { d.counters with
      messages := d.counters.messages + 1
      realtime := d.counters.realtime + m.isRealtime.toNat
      truncated := d.counters.truncated + (m.clip d.options.maxSysEx).isTruncated.toNat } }

@[simp] theorem took_options (d : Decoder) (m : Message) : (d.took m).options = d.options := rfl

theorem took_repeatable {m : Message} (d : Decoder) (plain : m.isRealtime = false) :
    (d.took m).repeatable = repeatsAfter m.status := by
  rw [took, repeatsAfterMessage, plain]; rfl

theorem idle_took {d : Decoder} (idle : d.Idle) (m : Message) : (d.took m).Idle :=
  ⟨idle.phase, idle.held, idle.cut⟩

theorem feedAll_realtime (d : Decoder) (k : Realtime) :
    d.feedAll [k.byte] = (d.took (.realtime k), [.realtime k]) := by
  rw [feedAll_cons, feed_realtime]; rfl

theorem clip_of_fixed {m : Message} (limit : Nat) (fixed : lengthOf m.status ≠ .undefined) :
    m.clip limit = m ∧ m.isTruncated = false := by
  cases m with
  | sysEx x => exact absurd rfl fixed
  | _ => exact ⟨rfl, rfl⟩

theorem not_realtime_of_lt {m : Message} (low : m.status < 0xF8) : m.isRealtime = false := by
  cases m with
  | realtime k => cases k <;> exact absurd low (by decide)
  | _ => rfl

theorem not_realtime_of_data {m : Message}
    (data : lengthOf m.status = .two ∨ lengthOf m.status = .three) : m.isRealtime = false := by
  rcases data with two | three
  · exact not_realtime_of_lt (status_of_two _ two).2
  · exact not_realtime_of_lt (status_of_three _ three).2

theorem complete_eq_took {d : Decoder} {m : Message} {e : Decoder} (idle : d.Idle)
    (data : lengthOf m.status = .two ∨ lengthOf m.status = .three)
    (same : e = { d with
      phase := e.phase, held := e.held, repeatable := repeatsAfter m.status }) :
    e.close.complete m = (d.took m, some m) := by
  obtain ⟨phase, held, cut⟩ := idle
  have fixed : lengthOf m.status ≠ .undefined := by rcases data with h | h <;> simp [h]
  obtain ⟨clip, whole⟩ := clip_of_fixed d.options.maxSysEx fixed
  rw [same]
  simp [complete, close, took, repeatsAfterMessage, not_realtime_of_data data, clip, whole, phase,
    held, cut]

/-- A decoder between messages reads a well-formed message back, a run as far as it keeps it. -/
theorem feedAll_encode {d : Decoder} {m : Message} (idle : d.Idle) (wf : m.WellFormed) :
    d.feedAll m.encode = (d.took m, [m.clip d.options.maxSysEx]) := by
  have shape := wf.onWire
  generalize m.encode = bytes at shape
  cases shape with
  | realtime k => exact feedAll_realtime d k
  | tune =>
    rw [feedAll_cons, feed_tune, abort_of_idle idle]
    rfl
  | two status length data read =>
    subst status
    rw [feedAll_cons, feedAll_cons, feed_two d length, abort_of_idle idle,
      feed_secondOfTwo data rfl rfl read, complete_eq_took idle (.inl length) rfl,
      (clip_of_fixed _ (by simp [length])).1]
    rfl
  | three status length low high read =>
    subst status
    rw [feedAll_cons, feedAll_cons, feedAll_cons, feed_three d length, abort_of_idle idle,
      feed_secondOfThree low rfl, feed_thirdOfThree high rfl rfl read,
      complete_eq_took idle (.inr length) rfl, (clip_of_fixed _ (by simp [length])).1]
    rfl
  | run cut data =>
    obtain ⟨phase, held, clear⟩ := idle
    rw [List.cons_append, feedAll_cons, feedAll_append, feed_opens,
      abort_of_idle ⟨phase, held, clear⟩, feedAll_capture _ _ data, feedAll_cons, List.nil_append,
      feed_capture_closes]
    simp [capture, close, complete, took, repeatsAfterMessage, repeatsAfter, Message.clip,
      SysEx.payload, Message.isTruncated, Message.isRealtime, Message.status, phase, held, clear,
      show isChannelStatus sysExBegin = false from rfl]

/-- A channel message may leave out its status byte if that is the one to repeat. -/
theorem feedAll_repeated {d : Decoder} {m : Message} (idle : d.Idle) (wf : m.WellFormed)
    (running : d.options.runningStatus = true) (cached : d.repeatable = some m.status)
    (channel : isChannelStatus m.status = true) :
    d.feedAll (m.encode.drop 1) = (d.took m, [m]) := by
  have kept : repeatsAfter m.status = some m.status := if_pos channel
  have shape := wf.onWire
  generalize m.encode = bytes at shape
  cases shape with
  | realtime k => cases k <;> exact absurd channel (by decide)
  | tune => exact absurd channel (by decide)
  | run cut data => exact absurd (show isChannelStatus sysExBegin = true from channel) (by decide)
  | two status length data read =>
    subst status
    have phase : (d.reopen m.status).phase = .secondOfTwo := by simp [reopen, length]
    rw [List.drop_one, List.tail_cons, feedAll_cons, feed_repeat data idle.phase cached running,
      feed_secondOfTwo data phase rfl read,
      complete_eq_took idle (.inl length) (by simp [reopen, kept, cached])]
    rfl
  | three status length low high read =>
    subst status
    have phase : (d.reopen m.status).phase = .secondOfThree := by simp [reopen, length]
    rw [List.drop_one, List.tail_cons, feedAll_cons, feedAll_cons,
      feed_repeat low idle.phase cached running, feed_secondOfThree low phase,
      feed_thirdOfThree high rfl rfl read,
      complete_eq_took idle (.inr length) (by simp [reopen, kept, cached])]
    rfl

end Decoder

end MidiPatch
