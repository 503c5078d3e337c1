import MidiPatch.Outlet.Boundary
import MidiPatch.Proofs.OpenMessage

/-!
# The sender's view and the receiver's state

A `Boundary` follows the bytes that go out, a `Decoder` reads them at the other end. `Tracks` lists
the pairs of states the two can be in; every byte leads from one of them to another
(`Tracks.feed`), so whenever the sender sees a boundary the receiver has nothing open.
-/

namespace MidiPatch

open Wire

namespace Boundary

/-! ### One byte -/

@[simp] theorem next_realtime (t : Boundary) (k : Realtime) : t.next k.byte = t := by
  simp [next]

theorem next_data {b : UInt8} (t : Boundary) (data : b < 0x80) : t.next b = t.onData := by
  simp [next, isRealtime_of_lt (lt_realtime_of_data data), isStatus_of_lt data]

theorem next_status {s : UInt8} (t : Boundary) (status : 0x80 ≤ s ∧ s < 0xF8)
    (opens : s ≠ tuneRequest ∧ s ≠ sysExEnd) :
    t.next s = { status := some s, count := 0, safe := false } := by
  simp [next, isRealtime_of_lt status.2, isStatus_of_le status.1, opens.1, opens.2]

theorem next_two {s : UInt8} (t : Boundary) (length : lengthOf s = .two) :
    t.next s = { status := some s, count := 0, safe := false } :=
  next_status t (status_of_two s length) ⟨(open_of_two s length).1, (open_of_two s length).2.1⟩

theorem next_three {s : UInt8} (t : Boundary) (length : lengthOf s = .three) :
    t.next s = { status := some s, count := 0, safe := false } :=
  next_status t (status_of_three s length)
    ⟨(open_of_three s length).1, (open_of_three s length).2.1⟩

theorem next_opens (t : Boundary) :
    t.next sysExBegin = { status := some sysExBegin, count := 0, safe := false } :=
  next_status t (by decide) (by decide)

theorem next_unused {s : UInt8} (t : Boundary) (unused : s = 0xF4 ∨ s = 0xF5) :
    t.next s = { status := some s, count := 0, safe := false } := by
  rcases unused with rfl | rfl <;> exact next_status t (by decide) (by decide)

theorem next_tune (t : Boundary) :
    t.next tuneRequest = { t with status := none, safe := true } := rfl

theorem next_closes (t : Boundary) :
    t.next sysExEnd = { t with status := none, safe := true } := rfl

theorem onData_two {s : UInt8} {n : Nat} {safe : Bool} (length : lengthOf s = .two) :
    onData ⟨some s, n, safe⟩ = ⟨none, n, true⟩ := by
  simp [onData, length]

theorem onData_first {s : UInt8} {safe : Bool} (length : lengthOf s = .three) :
    onData ⟨some s, 0, safe⟩ = ⟨some s, 1, false⟩ := by
  simp [onData, length]

theorem onData_second {s : UInt8} {safe : Bool} (length : lengthOf s = .three) :
    onData ⟨some s, 1, safe⟩ = ⟨Decoder.repeatsAfter s, 0, true⟩ := by
  simp [onData, length, Decoder.repeatsAfter]

theorem onData_undefined {s : UInt8} {n : Nat} {safe : Bool} (length : lengthOf s = .undefined) :
    onData ⟨some s, n, safe⟩ = ⟨some s, n, false⟩ := by
  simp [onData, length]

theorem canRepeat_iff (t : Boundary) (s : UInt8) :
    t.canRepeat s = true ↔
      t.safe = true ∧ t.count = 0 ∧ t.status = some s ∧ isChannelStatus s = true := by
  simp [canRepeat, and_assoc]

/-! ### Runs of bytes -/

@[simp] theorem run_nil (t : Boundary) : t.run [] = t := rfl

@[simp] theorem run_cons (t : Boundary) (b : UInt8) (rest : List UInt8) :
    t.run (b :: rest) = (t.next b).run rest := rfl

theorem run_append (t : Boundary) (bytes more : List UInt8) :
    t.run (bytes ++ more) = (t.run bytes).run more := List.foldl_append ..

theorem run_snoc (t : Boundary) (bytes : List UInt8) (b : UInt8) :
    t.run (bytes ++ [b]) = (t.run bytes).next b := by
  rw [run_append, run_cons, run_nil]

/-- After a message the stream is at a boundary, and the status in effect is one to repeat. -/
structure Rests (t : Boundary) (m : Message) : Prop where
  safe : t.safe = true
  repeats : ∀ s, t.status = some s → Decoder.repeatsAfter m.status = some s

theorem run_encode_rests {m : Message} (t : Boundary) (wf : m.WellFormed)
    (plain : m.isRealtime = false) : (t.run m.encode).Rests m := by
  have shape := wf.onWire
  generalize m.encode = bytes at shape
  cases shape with
  | realtime k => exact nomatch plain
  | tune => exact ⟨rfl, nofun⟩
  | two status length data read =>
    rw [run_cons, run_cons, next_two t length, next_data _ data, onData_two length]
    exact ⟨rfl, nofun⟩
  | three status length low high read =>
    rw [run_cons, run_cons, run_cons, next_three t length, next_data _ low, onData_first length,
      next_data _ high, onData_second length, ← status]
    exact ⟨rfl, fun s h => h⟩
  | run cut data =>
    rw [List.cons_append, run_cons, run_append, run_cons, next_closes]
    exact ⟨rfl, nofun⟩

/-- Without its status byte a message that repeats one leaves the same behind. -/
theorem run_repeated_rests {m : Message} {t : Boundary} (wf : m.WellFormed)
    (free : t.canRepeat m.status = true) : (t.run (m.encode.drop 1)).Rests m := by
  obtain ⟨status, n, safe⟩ := t
  rw [canRepeat_iff] at free
  obtain ⟨rfl, rfl, rfl, channel⟩ := free
  have shape := wf.onWire
  generalize m.encode = bytes at shape
  cases shape with
  | realtime k => cases k <;> exact absurd channel (by decide)
  | tune => exact absurd channel (by decide)
  | run cut data => exact absurd (show isChannelStatus sysExBegin = true from channel) (by decide)
  | two status length data read =>
    subst status
    rw [List.drop_one, List.tail_cons, run_cons, next_data _ data, onData_two length]
    exact ⟨rfl, nofun⟩
  | three status length low high read =>
    subst status
    rw [List.drop_one, List.tail_cons, run_cons, run_cons, next_data _ low, onData_first length,
      next_data _ high, onData_second length]
    exact ⟨rfl, fun s h => h⟩

end Boundary

/-! ### Both ends together -/

/-- What the receiver may be doing for each state of the sender's view. -/
inductive Tracks : Boundary → Decoder → Prop
  /-- No status is in effect: data bytes mean nothing, or short messages at most. -/
  | clear {n : Nat} {safe : Bool} {d : Decoder} (phase : d.phase = .idle)
      (short : ∀ r, d.repeatable = some r → lengthOf r = .two) : Tracks ⟨none, n, safe⟩ d
  | two {s : UInt8} {d : Decoder} (length : lengthOf s = .two) (phase : d.phase = .secondOfTwo)
      (cached : d.repeatable = Decoder.repeatsAfter s) : Tracks ⟨some s, 0, false⟩ d
  | three {s : UInt8} {d : Decoder} (length : lengthOf s = .three)
      (phase : d.phase = .secondOfThree) (cached : d.repeatable = Decoder.repeatsAfter s) :
      Tracks ⟨some s, 0, false⟩ d
  | half {s : UInt8} {d : Decoder} (length : lengthOf s = .three) (phase : d.phase = .thirdOfThree)
      (cached : d.repeatable = Decoder.repeatsAfter s) : Tracks ⟨some s, 1, false⟩ d
  | done {s : UInt8} {d : Decoder} (length : lengthOf s = .three) (phase : d.phase = .idle)
      (cached : d.repeatable = some s) : Tracks ⟨some s, 0, true⟩ d
  /-- The sender counts the data of a repeated message that the receiver does not take up. -/
  | dropped {s : UInt8} {d : Decoder} (length : lengthOf s = .three) (phase : d.phase = .idle)
      (cached : d.repeatable = some s) (off : d.options.runningStatus = false) :
      Tracks ⟨some s, 1, false⟩ d
  | run {d : Decoder} (phase : d.phase = .inSysEx) (cached : d.repeatable = none) :
      Tracks ⟨some sysExBegin, 0, false⟩ d
  | unused {s : UInt8} {d : Decoder} (unused : s = 0xF4 ∨ s = 0xF5) (phase : d.phase = .idle)
      (cached : d.repeatable = none) : Tracks ⟨some s, 0, false⟩ d

namespace Tracks

variable {t : Boundary} {d : Decoder}

theorem start (options : Decoder.Options) : Tracks {} (.new options) := .clear rfl nofun

/-- Only the phase, the cached status and the options of the receiver matter. -/
theorem congr {d' : Decoder} (h : Tracks t d) (phase : d'.phase = d.phase)
    (cached : d'.repeatable = d.repeatable) (options : d'.options = d.options) : Tracks t d' := by
  cases h with
  | clear idle short => exact .clear (phase.trans idle) (cached ▸ short)
  | two length at_ kept => exact .two length (phase.trans at_) (cached.trans kept)
  | three length at_ kept => exact .three length (phase.trans at_) (cached.trans kept)
  | half length at_ kept => exact .half length (phase.trans at_) (cached.trans kept)
  | done length at_ kept => exact .done length (phase.trans at_) (cached.trans kept)
  | dropped length at_ kept off =>
    exact .dropped length (phase.trans at_) (cached.trans kept) (options ▸ off)
  | run at_ kept => exact .run (phase.trans at_) (cached.trans kept)
  | unused which at_ kept => exact .unused which (phase.trans at_) (cached.trans kept)

theorem idle_of_safe (h : Tracks t d) (safe : t.safe = true) : d.phase = .idle := by
  cases h with
  | clear phase => exact phase
  | done _ phase => exact phase
  | _ => exact nomatch safe

theorem cached_of_canRepeat {s : UInt8} (h : Tracks t d) (free : t.canRepeat s = true) :
    d.repeatable = some s := by
  obtain ⟨safe, -, status, -⟩ := (t.canRepeat_iff s).mp free
  cases h with
  | clear => exact nomatch status
  | done length phase cached => exact cached.trans status
  | _ => exact nomatch safe

theorem not_cached_in_run (h : Tracks t d) (inside : d.phase = .inSysEx) : d.repeatable = none := by
  cases h with
  | run _ cached => exact cached
  | _ => simp_all

theorem feed_data {b : UInt8} (h : Tracks t d) (valid : d.Valid) (data : b < 0x80) :
    Tracks (t.next b) (d.feed b).1 := by
  rw [Boundary.next_data t data]
  cases h with
  | clear phase short =>
    -- A repeated message of two bytes is whole at once, so the sender need not know of it.
    by_cases off : d.repeatable = none ∨ d.options.runningStatus = false
    · rw [Decoder.feed_stray data phase off]
      exact .clear phase short
    · rw [not_or, Bool.not_eq_false] at off
      obtain ⟨s, cached⟩ := Option.ne_none_iff_exists'.mp off.1
      obtain ⟨m, -, fed⟩ :=
        Decoder.feed_repeat_two data (valid.idle phase) cached off.2 (short s cached)
      rw [fed]
      exact .clear phase short
  | @two s _ length phase cached =>
    obtain ⟨_, m, -, -, -, fed⟩ := valid.feed_secondOfTwo data phase
    rw [Boundary.onData_two length, fed]
    refine .clear rfl ?_
    intro r kept
    rw [show ((d.close.complete m).1).repeatable = d.repeatable from rfl, cached] at kept
    rw [(Decoder.repeatsAfter_channel kept).1, length]
  | three length phase cached =>
    rw [Boundary.onData_first length, Decoder.feed_secondOfThree data phase]
    exact .half length rfl cached
  | @half s _ length phase cached =>
    obtain ⟨_, _, m, -, -, -, fed⟩ := valid.feed_thirdOfThree data phase
    rw [Boundary.onData_second length, fed]
    cases kept : Decoder.repeatsAfter s with
    | none =>
      exact .clear rfl fun r again => by
        rw [show ((d.close.complete m).1).repeatable = d.repeatable from rfl, cached, kept] at again
        exact nomatch again
    | some r =>
      obtain rfl := (Decoder.repeatsAfter_channel kept).1
      exact .done length rfl (cached.trans kept)
  | @done s _ length phase cached =>
    -- The sender counts a repeated message; whether the receiver does depends on its options.
    rw [Boundary.onData_first length]
    cases running : d.options.runningStatus with
    | false =>
      rw [Decoder.feed_stray data phase (.inr running)]
      exact .dropped length phase cached running
    | true =>
      rw [Decoder.feed_repeat_three data phase cached running length]
      have kept : Decoder.repeatsAfter s = some s := if_pos (valid.repeatable s cached)
      exact .half length rfl (cached.trans kept.symm)
  | @dropped s _ length phase cached off =>
    have kept : Decoder.repeatsAfter s = some s := if_pos (valid.repeatable s cached)
    rw [Boundary.onData_second length, Decoder.feed_stray data phase (.inr off), kept]
    exact .done length phase cached
  | run phase cached =>
    obtain ⟨-, inside, same⟩ := Decoder.feed_inSysEx data phase
    rw [Boundary.onData_undefined rfl]
    exact .run inside (same.trans cached)
  | unused which phase cached =>
    rw [Decoder.feed_stray data phase (.inl cached),
      Boundary.onData_undefined (by rcases which with rfl | rfl <;> rfl)]
    exact .unused which phase cached

/-- Every byte keeps the two ends together. -/
theorem feed (h : Tracks t d) (valid : d.Valid) (b : UInt8) : Tracks (t.next b) (d.feed b).1 := by
  cases byteClass b with
  | data low => exact feed_data h valid low
  | two length =>
    rw [Boundary.next_two t length, Decoder.feed_two d length]
    exact .two length rfl rfl
  | three length =>
    rw [Boundary.next_three t length, Decoder.feed_three d length]
    exact .three length rfl rfl
  | tune =>
    rw [Boundary.next_tune, Decoder.feed_tune]
    exact .clear (Decoder.abort_phase d) nofun
  | opens =>
    rw [Boundary.next_opens, Decoder.feed_opens]
    exact .run rfl rfl
  | closes =>
    rw [Boundary.next_closes]
    by_cases inside : d.phase = .inSysEx
    · rw [Decoder.feed_closes_run inside]
      refine .clear rfl ?_
      intro r kept
      have none : d.repeatable = none := h.not_cached_in_run inside
      rw [show (d.finishSysEx.1).repeatable = d.repeatable from rfl, none] at kept
      exact nomatch kept
    · rw [Decoder.feed_closes_stray inside]
      exact .clear (Decoder.abort_phase d) nofun
  | undefined unused =>
    rw [Boundary.next_unused t unused, Decoder.feed_unused d unused]
    exact .unused unused (Decoder.abort_phase d) rfl
  | realtime k =>
    rw [Boundary.next_realtime, Decoder.feed_realtime]
    exact h.congr rfl rfl rfl

theorem feedAll (h : Tracks t d) (valid : d.Valid) (bytes : List UInt8) :
    Tracks (t.run bytes) (d.feedAll bytes).1 := by
  induction bytes generalizing t d with
  | nil => exact h
  | cons b rest ih =>
    rw [Decoder.feedAll_cons]
    exact ih (h.feed valid b) (Decoder.feed_valid valid b).1

end Tracks

/-! ### Whole messages -/

/-- The bytes a message goes out as, its status byte left out if that is asked for and allowed. -/
def Boundary.bytesOf (t : Boundary) (compress : Bool) (m : Message) : List UInt8 :=
  m.encode.drop (compress && t.canRepeat m.status).toNat

theorem Boundary.bytesOf_realtime (t : Boundary) (compress : Bool) (k : Realtime) :
    t.bytesOf compress (.realtime k) = [k.byte] := by
  have other : isChannelStatus k.byte = false := by cases k <;> rfl
  simp [bytesOf, canRepeat, Message.status, Message.encode, other]

/-- What the sender has to know about the receiver to send a whole message. -/
structure InStep (t : Boundary) (d : Decoder) : Prop where
  idle : t.safe = true → d.Idle
  repeats : ∀ s, t.canRepeat s = true → d.repeatable = some s

namespace InStep

variable {t : Boundary} {d : Decoder} {m : Message} {compress : Bool}

theorem of_tracks (h : Tracks t d) (valid : d.Valid) : InStep t d :=
  ⟨fun safe => valid.idle (h.idle_of_safe safe), fun _ free => h.cached_of_canRepeat free⟩

theorem fresh (idle : d.Idle) : InStep {} d :=
  ⟨fun _ => idle, fun s free => nomatch (Boundary.canRepeat_iff {} s).mp free⟩

theorem took (idle : d.Idle) (plain : m.isRealtime = false) (rests : t.Rests m) :
    InStep t (d.took m) := by
  refine ⟨fun _ => Decoder.idle_took idle m, fun s free => ?_⟩
  obtain ⟨-, -, status, -⟩ := (t.canRepeat_iff s).mp free
  have kept := rests.repeats s status
  simpa [Decoder.took, Decoder.repeatsAfterMessage, plain] using kept

theorem realtime (h : InStep t d) (k : Realtime) : InStep t (d.took (.realtime k)) :=
  ⟨fun safe => Decoder.idle_took (h.idle safe) _, h.repeats⟩

/-- At a boundary, the bytes of a message are read back as that message, in full or repeated. -/
theorem receives (h : InStep t d) (safe : t.safe = true)
    (running : compress = true → d.options.runningStatus = true) (wf : m.WellFormed) :
    d.feedAll (t.bytesOf compress m) = (d.took m, [m.clip d.options.maxSysEx]) := by
  unfold Boundary.bytesOf
  cases skip : compress && t.canRepeat m.status with
  | false => exact Decoder.feedAll_encode (h.idle safe) wf
  | true =>
    obtain ⟨asked, free⟩ := Bool.and_eq_true_iff.mp skip
    obtain ⟨-, -, -, channel⟩ := (t.canRepeat_iff m.status).mp free
    have whole : m.clip d.options.maxSysEx = m := by
      refine (Decoder.clip_of_fixed _ ?_).1
      rcases length_of_channel m.status channel with length | length <;> simp [length]
    rw [whole]
    exact Decoder.feedAll_repeated (h.idle safe) wf (running asked) (h.repeats _ free) channel

theorem rests (wf : m.WellFormed) (plain : m.isRealtime = false) :
    (t.run (t.bytesOf compress m)).Rests m := by
  unfold Boundary.bytesOf
  cases skip : compress && t.canRepeat m.status with
  | false => exact Boundary.run_encode_rests t wf plain
  | true => exact Boundary.run_repeated_rests wf (Bool.and_eq_true_iff.mp skip).2

end InStep

end MidiPatch
