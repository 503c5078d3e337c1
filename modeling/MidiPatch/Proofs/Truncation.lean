import MidiPatch.Proofs.Boundaries
import MidiPatch.Proofs.Transparency

/-!
# The capture limit and the framing

Two decoders with different capture limits read the same stream. They stand at the same place after
each byte and give the same messages on the same bytes, but for what they keep of a run.
-/

namespace MidiPatch

open Wire

namespace Decoder

/-- Two decoders at the same place in a stream. Inside a run they may hold different parts of it. -/
structure SameFraming (d e : Decoder) : Prop where
  running : d.options.runningStatus = e.options.runningStatus
  phase : d.phase = e.phase
  repeatable : d.repeatable = e.repeatable
  held : d.phase ≠ .inSysEx → d.held = e.held
  counters : d.counters = { e.counters with truncated := d.counters.truncated }

/-- The same message or none, or a run each. -/
inductive SameOrRuns : Option Message → Option Message → Prop
  | same (m : Option Message) : SameOrRuns m m
  | runs (x y : SysEx) : SameOrRuns (some (.sysEx x)) (some (.sysEx y))

namespace SameFraming

variable {d e : Decoder}

theorem counters_eq (h : SameFraming d e) :
    d.counters.messages = e.counters.messages ∧ d.counters.realtime = e.counters.realtime ∧
      d.counters.framingErrors = e.counters.framingErrors ∧
      d.counters.aborted = e.counters.aborted := by
  rw [h.counters]
  simp

theorem of_new {small large : Options} (running : small.runningStatus = large.runningStatus) :
    SameFraming (new small) (new large) :=
  ⟨running, rfl, rfl, fun _ => rfl, rfl⟩

theorem reject (h : SameFraming d e) : SameFraming d.reject e.reject := by
  refine ⟨h.running, h.phase, h.repeatable, h.held, ?_⟩
  simp [Decoder.reject, h.counters_eq]

theorem close (h : SameFraming d e) : SameFraming d.close e.close :=
  ⟨h.running, rfl, h.repeatable, fun _ => rfl, h.counters⟩

theorem complete (h : SameFraming d e) (m m' : Message) :
    SameFraming (d.complete m).1 (e.complete m').1 := by
  refine ⟨h.running, h.phase, h.repeatable, h.held, ?_⟩
  simp [Decoder.complete, h.counters_eq]

theorem abort (h : SameFraming d e) : SameFraming d.abort e.abort := by
  unfold Decoder.abort
  rw [h.phase]
  split
  · exact h.close
  · refine ⟨h.running, rfl, h.repeatable, fun _ => rfl, ?_⟩
    simp [Decoder.close, h.counters_eq]

theorem opening (h : SameFraming d e) (phase : Phase) (held : List UInt8) {r r' : Option UInt8}
    (cached : r = r') :
    SameFraming { d with phase := phase, held := held, repeatable := r }
      { e with phase := phase, held := held, repeatable := r' } :=
  ⟨h.running, rfl, cached, fun _ => rfl, h.counters⟩

theorem forget (h : SameFraming d e) :
    SameFraming { d with repeatable := none } { e with repeatable := none } :=
  ⟨h.running, h.phase, rfl, h.held, h.counters⟩

theorem finish (h : SameFraming d e) (bytes : List UInt8) :
    SameFraming (d.finish bytes).1 (e.finish bytes).1 ∧
      (d.finish bytes).2 = (e.finish bytes).2 := by
  unfold Decoder.finish
  split
  · exact ⟨h.close.complete _ _, rfl⟩
  · exact ⟨h.close.reject, rfl⟩

theorem extend_run {d : Decoder} (inside : d.phase = .inSysEx) (b : UInt8) :
    ∃ held cut n, d.extend b =
      ({ d with held := held, cut := cut, counters := { d.counters with truncated := n } },
        none) := by
  unfold Decoder.extend
  simp only [inside]
  split
  · exact ⟨d.held ++ [b], d.cut, d.counters.truncated, by rw [← inside]⟩
  · split
    · exact ⟨d.held, d.cut, d.counters.truncated, by rw [← inside]⟩
    · exact ⟨d.held, true, d.counters.truncated + 1, by rw [← inside]⟩

theorem extend (h : SameFraming d e) (b : UInt8) :
    SameFraming (d.extend b).1 (e.extend b).1 ∧ (d.extend b).2 = (e.extend b).2 := by
  by_cases inside : d.phase = .inSysEx
  -- Each keeps the byte or drops it, as it has room; nothing else tells them apart.
  · obtain ⟨held, cut, n, kept⟩ := extend_run inside b
    obtain ⟨held', cut', n', kept'⟩ := extend_run (h.phase.symm.trans inside) b
    rw [kept, kept']
    refine ⟨⟨h.running, h.phase, h.repeatable, fun outside => absurd inside outside, ?_⟩, rfl⟩
    simp [h.counters_eq]
  · have held := h.held inside
    unfold Decoder.extend
    rw [← h.phase, ← held]
    cases phase : d.phase with
    | idle => exact ⟨h.reject, rfl⟩
    | secondOfTwo | thirdOfThree => exact h.finish (d.held ++ [b])
    | secondOfThree => exact ⟨h.opening .thirdOfThree (d.held ++ [b]) h.repeatable, rfl⟩
    | inSysEx => exact absurd phase inside

theorem feed_data (h : SameFraming d e) {b : UInt8} (data : b < 0x80) :
    SameFraming (d.feed b).1 (e.feed b).1 ∧ (d.feed b).2 = (e.feed b).2 := by
  by_cases idle : d.phase = .idle
  · have idle' : e.phase = .idle := h.phase.symm.trans idle
    by_cases alone : d.repeatable = none ∨ d.options.runningStatus = false
    · rw [feed_stray data idle alone, feed_stray data idle' (by rwa [← h.repeatable, ← h.running])]
      exact ⟨h.reject, rfl⟩
    · rw [not_or, Bool.not_eq_false] at alone
      obtain ⟨s, cached⟩ := Option.ne_none_iff_exists'.mp alone.1
      rw [feed_repeat data idle cached alone.2,
        feed_repeat data idle' (h.repeatable.symm.trans cached) (h.running.symm.trans alone.2),
        feed_open data (reopen_phase d s), feed_open data (reopen_phase e s)]
      exact (h.opening _ [s] h.repeatable).extend b
  · rw [feed_open data idle, feed_open data (by rwa [← h.phase])]
    exact h.extend b

/-- One byte leaves both at the same place. What they give differs at the end of a run only. -/
theorem feed (h : SameFraming d e) (b : UInt8) :
    SameFraming (d.feed b).1 (e.feed b).1 ∧ SameOrRuns (d.feed b).2 (e.feed b).2 := by
  have aborted := h.abort
  cases byteClass b with
  | data low =>
    obtain ⟨after, same⟩ := h.feed_data low
    rw [same]
    exact ⟨after, .same _⟩
  | two length =>
    rw [feed_two d length, feed_two e length]
    exact ⟨aborted.opening .secondOfTwo [b] rfl, .same _⟩
  | three length =>
    rw [feed_three d length, feed_three e length]
    exact ⟨aborted.opening .secondOfThree [b] rfl, .same _⟩
  | tune =>
    rw [feed_tune, feed_tune]
    exact ⟨aborted.forget.complete _ _, .same _⟩
  | opens =>
    rw [feed_opens, feed_opens]
    refine ⟨⟨aborted.running, rfl, rfl, fun outside => absurd rfl outside, ?_⟩, .same _⟩
    simp [capture, aborted.counters_eq]
  | closes =>
    by_cases inside : d.phase = .inSysEx
    · rw [feed_closes_run inside, feed_closes_run (h.phase.symm.trans inside)]
      exact ⟨h.close.complete _ _, .runs _ _⟩
    · rw [feed_closes_stray inside, feed_closes_stray (by rwa [← h.phase])]
      exact ⟨aborted.forget.reject, .same _⟩
  | undefined unused =>
    rw [feed_unused d unused, feed_unused e unused]
    exact ⟨aborted.forget.reject, .same _⟩
  | realtime k =>
    rw [feed_realtime, feed_realtime]
    refine ⟨⟨h.running, h.phase, h.repeatable, h.held, ?_⟩, .same _⟩
    simp [h.counters_eq]

theorem feedAll (h : SameFraming d e) (bytes : List UInt8) :
    SameFraming (d.feedAll bytes).1 (e.feedAll bytes).1 := by
  induction bytes generalizing d e with
  | nil => exact h
  | cons b rest ih => exact ih (h.feed b).1

end SameFraming

/-! ### Runs in a stream -/

theorem finish_phase (d : Decoder) (bytes : List UInt8) : (d.finish bytes).1.phase = .idle := by
  unfold finish
  split <;> rfl

theorem extend_outside {d : Decoder} (b : UInt8) (outside : d.phase ≠ .inSysEx) :
    (d.extend b).1.phase ≠ .inSysEx := by
  unfold extend
  cases phase : d.phase with
  | idle => exact outside
  | secondOfTwo | thirdOfThree =>
    rw [finish_phase]
    decide
  | secondOfThree => exact nofun
  | inSysEx => exact absurd phase outside

theorem feed_data_outside {d : Decoder} {b : UInt8} (data : b < 0x80)
    (outside : d.phase ≠ .inSysEx) : (d.feed b).1.phase ≠ .inSysEx := by
  rw [feed_data d data]
  unfold onData
  split
  · rename_i s idle cached
    split
    · apply extend_outside
      unfold reopen
      dsimp only
      split <;> decide
    · exact outside
  · exact extend_outside b outside

theorem feed_inside {d : Decoder} {b : UInt8} (inside : (d.feed b).1.phase = .inSysEx) :
    b = sysExBegin ∨ isPlainStatus b = false ∧ d.phase = .inSysEx := by
  cases byteClass b with
  | data low =>
    refine .inr ⟨by simp [isPlainStatus, isStatus_of_lt low], ?_⟩
    by_contra outside
    exact feed_data_outside low outside inside
  | two length =>
    rw [feed_two d length] at inside
    cases inside
  | three length =>
    rw [feed_three d length] at inside
    cases inside
  | tune =>
    rw [feed_tune] at inside
    cases d.abort_phase.symm.trans inside
  | opens => exact .inl rfl
  | closes =>
    by_cases open_ : d.phase = .inSysEx
    · rw [feed_closes_run open_] at inside
      cases inside
    · rw [feed_closes_stray open_] at inside
      cases d.abort_phase.symm.trans inside
  | undefined unused =>
    rw [feed_unused d unused] at inside
    cases d.abort_phase.symm.trans inside
  | realtime k =>
    rw [feed_realtime] at inside
    exact .inr ⟨by simp [isPlainStatus], inside⟩

theorem exists_run_of_inside (options : Options) (w : List UInt8)
    (inside : ((new options).feedAll w).1.phase = .inSysEx) :
    ∃ start run, w = start ++ sysExBegin :: run ∧ ∀ c ∈ run, isPlainStatus c = false := by
  induction w using List.reverseRecOn with
  | nil => cases inside
  | append_singleton w b ih =>
    rw [feedAll_append, feedAll_cons] at inside
    rcases feed_inside inside with rfl | ⟨plain, before⟩
    · exact ⟨w, [], rfl, nofun⟩
    · obtain ⟨start, run, rfl, others⟩ := ih before
      refine ⟨start, run ++ [b], by simp, ?_⟩
      intro c member
      rcases List.mem_append.mp member with old | new
      · exact others c old
      · rw [List.mem_singleton.mp new]
        exact plain

theorem plainBytes_run {run : List UInt8} (others : ∀ c ∈ run, isPlainStatus c = false) :
    plainBytes run = run.filter (!isStatus ·) := by
  apply List.filter_congr
  intro c member
  rcases byte_cases c with data | status | high
  · rw [isRealtime_of_lt (lt_realtime_of_data data), isStatus_of_lt data]
  · have plain := others c member
    simp [isPlainStatus, isStatus_of_le status.1, isRealtime_of_lt status.2] at plain
  · obtain ⟨k, rfl⟩ := Realtime.exists_of_le c high
    rw [Realtime.isRealtime_byte]
    cases k <;> rfl

theorem feedAll_run (d : Decoder) {run : List UInt8}
    (others : ∀ c ∈ run, isPlainStatus c = false) :
    ((d.capture []).feedAll run).1 =
      (d.capture (run.filter (!isStatus ·))).tallied (run.countP isRealtime) := by
  have data : ∀ c ∈ run.filter (!isStatus ·), c < 0x80 := by
    intro c member
    simpa [isStatus] using (List.mem_filter.mp member).2
  rw [feedAll_plainBytes, plainBytes_run others, feedAll_capture d [] data, List.nil_append]

theorem not_run_of_spells {m : Message} {s : UInt8} {data : List UInt8} (spells : m.Spells s data)
    (fixed : lengthOf s ≠ .undefined) (x : SysEx) : m ≠ .sysEx x := by
  rintro rfl
  rw [← spells.2.2.1] at fixed
  exact fixed rfl

/-- Only the end byte of a run gives a run. -/
theorem ends_of_given_run {d : Decoder} {b : UInt8} {x : SysEx} (valid : d.Valid)
    (given : (d.feed b).2 = some (.sysEx x)) : b = sysExEnd ∧ d.phase = .inSysEx := by
  cases byteClass b with
  | data low =>
    have fed := valid.takesData low
    generalize d.feed b = step at fed given
    cases fed with
    | repeatsTwo idle cached length spells | two held length spells | three held length spells =>
      exact absurd (Option.some.inj given) (not_run_of_spells spells (by simp [length]) x)
    | _ => cases given
  | two length =>
    rw [feed_two d length] at given
    cases given
  | three length =>
    rw [feed_three d length] at given
    cases given
  | tune =>
    rw [feed_tune] at given
    cases given
  | opens =>
    rw [feed_opens] at given
    cases given
  | closes =>
    by_cases inside : d.phase = .inSysEx
    · exact ⟨rfl, inside⟩
    · rw [feed_closes_stray inside] at given
      cases given
  | undefined unused =>
    rw [feed_unused d unused] at given
    cases given
  | realtime k =>
    rw [feed_realtime] at given
    cases given

end Decoder

/-- What is kept of a run with these data bytes under a capture limit. -/
def SysEx.captured (limit : Nat) (body : List UInt8) : SysEx :=
  { data := sysExBegin :: body.take (limit - 2) ++ [sysExEnd]
    truncated := decide (limit - 2 < body.length) }

theorem SysEx.length_captured_le {limit : Nat} (room : 2 ≤ limit) (body : List UInt8) :
    (captured limit body).data.length ≤ limit := by
  have kept : (body.take (limit - 2)).length ≤ limit - 2 := List.length_take_le ..
  simp only [captured, List.length_append, List.length_cons, List.length_nil]
  omega

theorem SysEx.payload_captured (limit : Nat) (body : List UInt8) :
    (captured limit body).payload = body.take (limit - 2) := payload_delimited ..

/-- A run with these data bytes is open after the stream; realtime bytes may stand among them. -/
def OpenRun (stream body : List UInt8) : Prop :=
  ∃ start run, stream = start ++ sysExBegin :: run ∧ (∀ c ∈ run, isPlainStatus c = false) ∧
    body = run.filter (!isStatus ·)

theorem given_of_openRun (options : Decoder.Options) {stream body : List UInt8}
    (run : OpenRun stream body) :
    (((Decoder.new options).feedAll stream).1.feed sysExEnd).2 =
      some (.sysEx (.captured (max 2 options.maxSysEx) body)) := by
  obtain ⟨start, run, rfl, others, rfl⟩ := run
  rw [Decoder.feedAll_append, Decoder.feedAll_cons, Decoder.feed_opens,
    Decoder.feedAll_run _ others, Decoder.feed_tallied, Decoder.feed_capture_closes]
  simp [Decoder.complete, SysEx.captured, Decoder.new]

/--
A capture limit changes nothing but what is kept of a run: two decoders with different limits stand
at the same place after each byte and give the same messages on the same bytes. A run is cut to the
limit at its end, and the smaller limit keeps a beginning of what the larger one keeps.
-/
theorem limit_keeps_framing {small large : Decoder.Options}
    (running : small.runningStatus = large.runningStatus)
    (limits : max 2 small.maxSysEx ≤ max 2 large.maxSysEx) (stream : List UInt8) (b : UInt8) :
    let d := ((Decoder.new small).feedAll stream).1
    let e := ((Decoder.new large).feedAll stream).1
    (d.phase = e.phase ∧ d.counters = { e.counters with truncated := d.counters.truncated }) ∧
    Decoder.SameOrRuns (d.feed b).2 (e.feed b).2 ∧
    ((∃ x, (d.feed b).2 = some (.sysEx x)) ↔ b = sysExEnd ∧ ∃ body, OpenRun stream body) ∧
    ∀ body, OpenRun stream body →
      let x := SysEx.captured (max 2 small.maxSysEx) body
      let y := SysEx.captured (max 2 large.maxSysEx) body
      ((d.feed sysExEnd).2 = some (.sysEx x) ∧ (e.feed sysExEnd).2 = some (.sysEx y)) ∧
      (x.data.length ≤ max 2 small.maxSysEx ∧ y.data.length ≤ max 2 large.maxSysEx) ∧
      x.payload <+: y.payload := by
  intro d e
  have framing : d.SameFraming e := (Decoder.SameFraming.of_new running).feedAll stream
  have valid : d.Valid := (Decoder.feedAll_valid (Decoder.valid_new small) stream).1
  refine ⟨⟨framing.phase, framing.counters⟩, (framing.feed b).2, ⟨?_, ?_⟩, ?_⟩
  · rintro ⟨x, given⟩
    obtain ⟨rfl, inside⟩ := Decoder.ends_of_given_run valid given
    obtain ⟨start, run, parts, others⟩ := Decoder.exists_run_of_inside small stream inside
    exact ⟨rfl, _, start, run, parts, others, rfl⟩
  · rintro ⟨rfl, body, run⟩
    exact ⟨_, given_of_openRun small run⟩
  · intro body run x y
    refine ⟨⟨given_of_openRun small run, given_of_openRun large run⟩,
      ⟨SysEx.length_captured_le (Nat.le_max_left ..) body,
        SysEx.length_captured_le (Nat.le_max_left ..) body⟩, ?_⟩
    rw [SysEx.payload_captured, SysEx.payload_captured]
    exact List.take_prefix_take_left (Nat.sub_le_sub_right limits 2)

/-- Four data bytes and a clock among them, where there is room for one and for three. -/
theorem limit_keeps_framing_of_two_cuts :
    let stream : List UInt8 := [0xF0, 1, 0xF8, 2, 3, 4]
    let small : Decoder.Options := { maxSysEx := 3 }
    let large : Decoder.Options := { maxSysEx := 5 }
    small.runningStatus = large.runningStatus ∧ max 2 small.maxSysEx ≤ max 2 large.maxSysEx ∧
      OpenRun stream [1, 2, 3, 4] ∧
      (((Decoder.new small).feedAll stream).1.feed sysExEnd).2 =
        some (.sysEx { data := [0xF0, 1, 0xF7], truncated := true }) ∧
      (((Decoder.new large).feedAll stream).1.feed sysExEnd).2 =
        some (.sysEx { data := [0xF0, 1, 2, 3, 0xF7], truncated := true }) := by
  intro stream small large
  have limits : max 2 small.maxSysEx ≤ max 2 large.maxSysEx := by decide
  have run : OpenRun stream [1, 2, 3, 4] :=
    ⟨[], [1, 0xF8, 2, 3, 4], rfl, by simp [isPlainStatus, isStatus, isRealtime], rfl⟩
  obtain ⟨-, -, -, ends⟩ := @limit_keeps_framing small large rfl limits stream 0
  exact ⟨rfl, limits, run, (ends _ run).1⟩

end MidiPatch
