import MidiPatch.Proofs.Segments

/-!
# The grammar of a stream

A new decoder finds the messages of each segment of a stream, in order, and counts what goes wrong
in it. The proof follows the decoder from one status byte to the next: `Stands` is what a segment
leaves open, and `follows` is the step.
-/

namespace MidiPatch

open Wire

namespace Decoder

/-! ### Data bytes between messages -/

theorem feedAll_strays {d : Decoder} {data : List UInt8} (plain : ∀ b ∈ data, b < 0x80)
    (idle : d.phase = .idle) (alone : d.repeatable = none ∨ d.options.runningStatus = false) :
    d.feedAll data =
      ({ d with counters.framingErrors := d.counters.framingErrors + data.length }, []) := by
  induction data generalizing d with
  | nil => rfl
  | cons b rest ih =>
    have ⟨now, later⟩ := List.forall_mem_cons.mp plain
    rw [feedAll_cons, feed_stray now idle alone, ih (d := d.reject) later idle alone]
    simp [reject, Nat.add_comm, Nat.add_left_comm]

def faults (d : Decoder) : Nat × Nat × Nat :=
  (d.counters.framingErrors, d.counters.aborted, d.counters.truncated)

theorem took_faults {m : Message} (d : Decoder) (fixed : lengthOf m.status ≠ .undefined) :
    (d.took m).faults = d.faults := by
  obtain ⟨same, whole⟩ := clip_of_fixed d.options.maxSysEx fixed
  simp [faults, took, same, whole]

theorem feedAll_few {d : Decoder} {s : UInt8} {n : Nat} {data : List UInt8} (idle : d.Idle)
    (running : d.options.runningStatus = true) (cached : d.repeatable = some s)
    (fixed : (lengthOf s).bytes? = some n) (channel : isChannelStatus s = true)
    (plain : ∀ b ∈ data, b < 0x80) (few : data.length < n - 1) :
    (d.feedAll data).2 = [] ∧ (d.feedAll data).1.faults = d.faults ∧
      (d.feedAll data).1.phase = if data = [] then .idle else .thirdOfThree := by
  match data, few, plain with
  | [], _, _ => exact ⟨rfl, rfl, idle.phase⟩
  | a :: rest, few, plain =>
    have length : lengthOf s = .three ∧ rest = [] := by
      rcases length_of_channel s channel with two | three
      · rw [two] at fixed
        obtain rfl := Option.some.inj fixed
        exact absurd few (by simp)
      · rw [three] at fixed
        obtain rfl := Option.some.inj fixed
        have count : rest.length + 1 < 2 := few
        exact ⟨three, List.length_eq_zero_iff.mp (by omega)⟩
    obtain ⟨three, rfl⟩ := length
    have data := plain a (by simp)
    have phase : (d.reopen s).phase = .secondOfThree := by simp [reopen, three]
    rw [feedAll_cons, feed_repeat data idle.phase cached running, feed_secondOfThree data phase]
    exact ⟨rfl, rfl, rfl⟩

theorem group_pos {s : UInt8} {n : Nat} (fixed : (lengthOf s).bytes? = some n)
    (channel : isChannelStatus s = true) : 0 < n - 1 := by
  rcases length_of_channel s channel with two | three
  · rw [two] at fixed; obtain rfl := Option.some.inj fixed; decide
  · rw [three] at fixed; obtain rfl := Option.some.inj fixed; decide

/-- Each full group of data bytes repeats the status. -/
theorem feedAll_groups {d : Decoder} {s : UInt8} {n : Nat} {data : List UInt8} (idle : d.Idle)
    (running : d.options.runningStatus = true) (cached : d.repeatable = some s)
    (fixed : (lengthOf s).bytes? = some n) (channel : isChannelStatus s = true)
    (plain : ∀ b ∈ data, b < 0x80) :
    (d.feedAll data).2 =
        ((Segment.groups (n - 1) data).map (s :: ·)).filterMap Message.ofBytes? ∧
      (d.feedAll data).1.faults = d.faults ∧
      (d.feedAll data).1.phase = if data.length % (n - 1) = 0 then .idle else .thirdOfThree := by
  have known := length_of_channel s channel
  have low := (status_of_channel s channel).2
  have pos := group_pos fixed channel
  -- By the number of bytes left: a full group at the front is one repeated message.
  induction size : data.length using Nat.strongRecOn generalizing d data with
  | ind size' ih =>
    subst size
    rcases Nat.lt_or_ge data.length (n - 1) with short | long
    · obtain ⟨none, faults, phase⟩ := feedAll_few idle running cached fixed channel plain short
      rw [Segment.groups_of_short short, Nat.mod_eq_of_lt short]
      refine ⟨none, faults, ?_⟩
      rw [phase]
      simp only [List.length_eq_zero_iff]
    · have plain' : ∀ b ∈ data.take (n - 1), b < 0x80 := fun b member =>
        plain b (List.mem_of_mem_take member)
      obtain ⟨m, read, wf, status, encoded⟩ := Message.exists_of_fixed fixed low
        (List.length_take_of_le long) plain'
      subst status
      have first := feedAll_repeated idle wf running cached channel
      rw [encoded, List.drop_one, List.tail_cons] at first
      have again : (d.took m).repeatable = some m.status :=
        (took_repeatable d (not_realtime_of_data known)).trans (if_pos channel)
      obtain ⟨messages, faults, phase⟩ := ih (data.drop (n - 1)).length
        (by rw [List.length_drop]; omega) (idle_took idle m) running again
        (fun b member => plain b (List.mem_of_mem_drop member)) rfl
      have whole : d.feedAll data = (((d.took m).feedAll (data.drop (n - 1))).1,
          m :: ((d.took m).feedAll (data.drop (n - 1))).2) := by
        calc d.feedAll data = d.feedAll (data.take (n - 1) ++ data.drop (n - 1)) := by
              rw [List.take_append_drop]
          _ = _ := by rw [feedAll_append, first]; rfl
      rw [Segment.groups_of_le pos long, List.map_cons, List.filterMap_cons_some read, whole]
      refine ⟨congrArg _ messages, faults.trans (took_faults d ?_), ?_⟩
      · rcases known with two | three
        · simp [two]
        · simp [three]
      · rw [phase, List.length_drop, Nat.mod_eq_sub_mod long]

/-! ### Segments -/

/-- Where a decoder stands after a segment, or before the first one. -/
structure Stands (d : Decoder) (last : Option Segment) : Prop where
  phase : d.phase = .idle ↔ last.any (Segment.unfinished d.options.runningStatus) = false
  inside : d.phase = .inSysEx ↔ last.map Segment.status = some sysExBegin
  kept : ∀ g ∈ last, g.status = sysExBegin → d.repeatable = none ∧
    d.finishSysEx = d.close.complete (.sysEx (g.run d.options.maxSysEx))

/-- What a decoder between messages makes of a segment. -/
structure Segmented (d : Decoder) (g : Segment) (e : Decoder) (ms : List Message) : Prop where
  stands : e.Stands (some g)
  messages : ms = (g.packets d.options.runningStatus).filterMap Message.ofBytes?
  faults : e.faults = (d.counters.framingErrors + g.strays d.options.runningStatus none,
    d.counters.aborted, d.counters.truncated + (g.overlong d.options.maxSysEx).toNat)

variable {d : Decoder} {g : Segment}

theorem segmented_unused (idle : d.Idle) (proper : g.Proper)
    (unused : g.status = sysExEnd ∨ g.status = 0xF4 ∨ g.status = 0xF5) :
    Segmented d g (d.feedAll g.bytes).1 (d.feedAll g.bytes).2 := by
  have fed : d.feed g.status = (({ d with repeatable := none } : Decoder).reject, none) := by
    rcases unused with closes | other
    · rw [closes, feed_closes_stray (by simp [idle.phase]), abort_of_idle idle]
    · rw [feed_unused d other, abort_of_idle idle]
  have away : (lengthOf g.status).bytes? = none ∧ g.status ≠ sysExBegin := by
    rcases unused with h | h | h <;> rw [h] <;> decide
  obtain ⟨shapeless, away⟩ := away
  have rest := feedAll_strays (d := ({ d with repeatable := none } : Decoder).reject) proper.data
    idle.phase (.inl rfl)
  rw [Segment.bytes, feedAll_cons, fed, rest]
  refine ⟨⟨?_, ?_, ?_⟩, ?_, ?_⟩
  · simp [Segment.unfinished, shapeless, away, reject, idle.phase]
  · simp [away, reject, idle.phase]
  · simp [away]
  · simp [Segment.packets, shapeless]
  · simp [faults, reject, Segment.strays, Segment.overlong, shapeless, away, Nat.add_assoc,
      Nat.add_comm 1]

theorem segmented_run (idle : d.Idle) (proper : g.Proper) (opens : g.status = sysExBegin) :
    Segmented d g (d.feedAll g.bytes).1 (d.feedAll g.bytes).2 := by
  have shapeless : lengthOf sysExBegin = .undefined := rfl
  rw [Segment.bytes, feedAll_cons, opens, feed_opens, abort_of_idle idle,
    feedAll_capture _ _ proper.data, List.nil_append]
  refine ⟨⟨?_, ?_, ?_⟩, ?_, ?_⟩
  · simp [Segment.unfinished, shapeless, opens, capture, Length.bytes?]
  · simp [opens, capture]
  · intro g' same _
    obtain rfl := Option.some.inj same
    exact ⟨rfl, rfl⟩
  · simp [Segment.packets, shapeless, opens, Length.bytes?]
  · simp [faults, capture, Segment.strays, Segment.overlong, shapeless, opens, Length.bytes?]

theorem begin_shapeless {n : Nat} {s : UInt8} (fixed : (lengthOf s).bytes? = some n) :
    s ≠ sysExBegin := by
  rintro rfl
  exact nomatch fixed

theorem segmented_short {n : Nat} (idle : d.Idle) (proper : g.Proper)
    (fixed : (lengthOf g.status).bytes? = some n) (short : g.data.length < n - 1) :
    Segmented d g (d.feedAll g.bytes).1 (d.feedAll g.bytes).2 := by
  obtain ⟨s, data⟩ := g
  dsimp only at fixed short
  have opened : ∃ phase held, phase ≠ .idle ∧ phase ≠ .inSysEx ∧ d.feedAll (s :: data) =
      ({ d with phase := phase, held := held, repeatable := repeatsAfter s }, []) := by
    cases length : lengthOf s with
    | one =>
      rw [length] at fixed
      obtain rfl := Option.some.inj fixed
      exact absurd short (Nat.not_lt_zero _)
    | two =>
      rw [length] at fixed
      obtain rfl := Option.some.inj fixed
      obtain rfl := List.length_eq_zero_iff.mp (Nat.lt_one_iff.mp short)
      rw [feedAll_cons, feed_two d length, abort_of_idle idle]
      exact ⟨.secondOfTwo, [s], by simp, by simp, rfl⟩
    | three =>
      rw [length] at fixed
      obtain rfl := Option.some.inj fixed
      rw [feedAll_cons, feed_three d length, abort_of_idle idle]
      match data, short, proper.data with
      | [], _, _ => exact ⟨.secondOfThree, [s], by simp, by simp, rfl⟩
      | [a], _, plain =>
        rw [feedAll_cons, feed_secondOfThree (plain a (by simp)) rfl]
        exact ⟨.thirdOfThree, [s, a], by simp, by simp, rfl⟩
    | undefined =>
      rw [length] at fixed
      exact nomatch fixed
  obtain ⟨phase, held, busy, outside, fed⟩ := opened
  have away := begin_shapeless fixed
  rw [Segment.bytes, fed]
  refine ⟨⟨?_, ?_, ?_⟩, ?_, ?_⟩
  · simp [Segment.unfinished, fixed, busy, short]
  · simp [outside, away]
  · simp [away]
  · simp [Segment.packets, fixed, Segment.groups_of_short short, Nat.not_le_of_lt short]
  · simp [faults, Segment.strays, fixed, Segment.overlong, away]
    omega

theorem segmented_long {n : Nat} (idle : d.Idle) (proper : g.Proper)
    (fixed : (lengthOf g.status).bytes? = some n) (long : n - 1 ≤ g.data.length) :
    Segmented d g (d.feedAll g.bytes).1 (d.feedAll g.bytes).2 := by
  obtain ⟨s, data⟩ := g
  dsimp only at fixed long
  obtain ⟨m, read, wf, status, encoded⟩ := Message.exists_of_fixed fixed proper.status.2
    (List.length_take_of_le long) fun b member => proper.data b (List.mem_of_mem_take member)
  have away := begin_shapeless fixed
  have shaped : lengthOf m.status ≠ .undefined := by
    rw [status]; intro none; rw [none] at fixed; exact nomatch fixed
  have whole : d.feedAll (s :: data) = (((d.took m).feedAll (data.drop (n - 1))).1,
      m :: ((d.took m).feedAll (data.drop (n - 1))).2) := by
    calc d.feedAll (s :: data)
        = d.feedAll ((s :: data.take (n - 1)) ++ data.drop (n - 1)) := by
          rw [List.cons_append, List.take_append_drop]
      _ = _ := by
          rw [← encoded, feedAll_append, feedAll_encode idle wf, (clip_of_fixed _ shaped).1]; rfl
  have left : (d.took m).repeatable = repeatsAfter s := by
    rw [← status]
    exact took_repeatable d (not_realtime_of_lt (status ▸ proper.status.2))
  have plain : ∀ b ∈ data.drop (n - 1), b < 0x80 :=
    fun b member => proper.data b (List.mem_of_mem_drop member)
  have unfaulted := took_faults d shaped
  rw [Segment.bytes, whole]
  cases repeats : ({ status := s, data := data } : Segment).repeats d.options.runningStatus with
  | true =>
    obtain ⟨running, channel⟩ := Bool.and_eq_true_iff.mp repeats
    obtain ⟨messages, faults, phase⟩ := feedAll_groups (idle_took idle m) running
      (left.trans (if_pos channel)) fixed channel plain
    rw [List.length_drop, ← Nat.mod_eq_sub_mod long] at phase
    refine ⟨⟨?_, ?_, ?_⟩, ?_, ?_⟩
    · rw [phase]
      simp [Segment.unfinished, fixed, repeats, Nat.not_lt_of_le long]
    · rw [phase]
      split <;> simp [away]
    · simp [away]
    · rw [messages, Segment.packets, fixed]
      simp only [repeats, if_true, Segment.groups_of_le (group_pos fixed channel) long,
        List.map_cons, List.filterMap_cons_some read]
    · rw [faults, unfaulted]
      simp [Decoder.faults, Segment.strays, fixed, repeats, Segment.overlong, away]
  | false =>
    have alone : (d.took m).repeatable = none ∨ (d.took m).options.runningStatus = false := by
      rw [left, repeatsAfter]
      cases channel : isChannelStatus s with
      | true => exact .inr (by simpa [Segment.repeats, channel] using repeats)
      | false => exact .inl rfl
    rw [feedAll_strays plain (idle_took idle m).phase alone]
    refine ⟨⟨?_, ?_, ?_⟩, ?_, ?_⟩
    · simp [Segment.unfinished, fixed, repeats, Nat.not_lt_of_le long, (idle_took idle m).phase]
    · simp [away, (idle_took idle m).phase]
    · simp [away]
    · simp [Segment.packets, fixed, repeats, long, read]
    · simp only [Decoder.faults, Prod.mk.injEq] at unfaulted
      simp [Decoder.faults, unfaulted, Segment.strays, fixed, repeats, Segment.overlong, away]

theorem segmented (idle : d.Idle) (proper : g.Proper) :
    Segmented d g (d.feedAll g.bytes).1 (d.feedAll g.bytes).2 := by
  cases fixed : (lengthOf g.status).bytes? with
  | some n =>
    rcases Nat.lt_or_ge g.data.length (n - 1) with short | long
    · exact segmented_short idle proper fixed short
    · exact segmented_long idle proper fixed long
  | none =>
    rcases status_cases g.status proper.status.1 proper.status.2 with
      two | three | tune | opens | unused
    · rw [two] at fixed; exact nomatch fixed
    · rw [three] at fixed; exact nomatch fixed
    · rw [tune] at fixed; exact nomatch fixed
    · exact segmented_run idle proper opens
    · exact segmented_unused idle proper unused

/-- What a decoder makes of a segment, and of the run that the segment before may have left open. -/
structure Follows (d : Decoder) (last : Option Segment) (g : Segment) (e : Decoder)
    (ms : List Message) : Prop where
  stands : e.Stands (some g)
  messages : ms = last.toList.flatMap (Segment.closing d.options.maxSysEx (some g.status)) ++
    (g.packets d.options.runningStatus).filterMap Message.ofBytes?
  framing : e.counters.framingErrors =
    d.counters.framingErrors + g.strays d.options.runningStatus (last.map Segment.status)
  aborted : e.counters.aborted = d.counters.aborted +
    (last.any (Segment.abortedBy d.options.runningStatus (some g.status))).toNat
  truncated : e.counters.truncated =
    d.counters.truncated + (g.overlong d.options.maxSysEx).toNat

variable {last : Option Segment}

theorem follows_closing (stands : d.Stands last) (proper : g.Proper)
    (inside : d.phase = .inSysEx) (closes : g.status = sysExEnd) :
    Follows d last g (d.feedAll g.bytes).1 (d.feedAll g.bytes).2 := by
  obtain ⟨h, rfl, opens⟩ : ∃ h, last = some h ∧ h.status = sysExBegin := by
    simpa using stands.inside.mp inside
  obtain ⟨alone, finished⟩ := stands.kept h rfl opens
  have closed : h.closedBy (some sysExEnd) = true := by simp [Segment.closedBy, opens]
  have shapeless : lengthOf sysExEnd = .undefined := rfl
  have away : sysExEnd ≠ sysExBegin := by decide
  have rest := feedAll_strays (d := (d.close.complete (.sysEx (h.run d.options.maxSysEx))).1)
    proper.data rfl (.inl alone)
  rw [Segment.bytes, feedAll_cons, closes, feed_closes_run inside, finished, rest]
  refine ⟨⟨?_, ?_, ?_⟩, ?_, ?_, ?_, ?_⟩
  · simp [complete, close, Segment.unfinished, closes, shapeless, Length.bytes?, away]
  · simp [complete, close, closes, away]
  · simp [closes, away]
  · simp [complete, Segment.closing, closed, Segment.packets, closes, shapeless, Length.bytes?]
  · simp [complete, close, Segment.strays, closes, shapeless, Length.bytes?, opens, away]
  · simp [complete, close, Segment.abortedBy, closes, closed]
  · simp [complete, close, Segment.overlong, closes, away]

theorem follows (stands : d.Stands last) (proper : g.Proper) :
    Follows d last g (d.feedAll g.bytes).1 (d.feedAll g.bytes).2 := by
  -- Only the end of a run looks back; any other segment is read by a decoder with nothing open.
  by_cases closing : d.phase = .inSysEx ∧ g.status = sysExEnd
  · exact follows_closing stands proper closing.1 closing.2
  have same : d.feedAll g.bytes = d.abort.feedAll g.bytes := by
    rw [Segment.bytes, feedAll_cons, feed_abort proper.status closing, ← feedAll_cons]
  obtain ⟨ended, messages, faults⟩ := segmented (idle_abort d) proper
  rw [← same] at ended messages faults
  rw [abort_options] at messages faults
  have apart : ¬ (g.status = sysExEnd ∧ last.map Segment.status = some sysExBegin) := by
    rintro ⟨closes, opens⟩
    exact closing ⟨stands.inside.mpr opens, closes⟩
  have unclosed : ∀ h ∈ last, h.closedBy (some g.status) = false := by
    intro h member
    rw [Option.mem_def] at member
    cases closed : h.closedBy (some g.status) with
    | false => rfl
    | true =>
      simp only [Segment.closedBy, Bool.and_eq_true, beq_iff_eq, Option.some.injEq] at closed
      exact absurd ⟨closed.2, by rw [member, Option.map_some, closed.1]⟩ apart
  simp only [Decoder.faults, Prod.mk.injEq] at faults
  obtain ⟨framing, aborted, truncated⟩ := faults
  have counted : d.abort.counters = { d.counters with
      aborted := d.counters.aborted + if d.phase = .idle then 0 else 1 } := by rw [abort_eq]
  rw [counted] at framing aborted truncated
  refine ⟨ended, ?_, ?_, ?_, truncated⟩
  · cases last with
    | none => exact messages
    | some h => simpa [Segment.closing, unclosed h rfl] using messages
  · rw [framing, Segment.strays_apart apart]
  · rw [aborted]
    have busy : last.any (Segment.abortedBy d.options.runningStatus (some g.status)) =
        last.any (Segment.unfinished d.options.runningStatus) := by
      cases last with
      | none => rfl
      | some h => simp [Segment.abortedBy, unclosed h rfl]
    rw [busy]
    by_cases open_ : d.phase = .idle
    · rw [if_pos open_, stands.phase.mp open_]; rfl
    · rw [if_neg open_, (Bool.not_eq_false _).mp (mt stands.phase.mpr open_)]; rfl

/-! ### Counting messages -/

/-- A step counts the message it gives out, and no realtime message. -/
def Counts (d : Decoder) (result : Decoder × Option Message) : Prop :=
  result.1.counters.messages = d.counters.messages + result.2.toList.length ∧
    result.1.counters.realtime = d.counters.realtime

theorem finish_counts (d : Decoder) (bytes : List UInt8) : Counts d (d.finish bytes) := by
  unfold finish
  split
  · exact ⟨rfl, rfl⟩
  · exact ⟨rfl, rfl⟩

theorem start_counts (d : Decoder) (s : UInt8) : Counts d (d.start s) := by
  unfold start
  split
  · exact finish_counts d [s]
  · exact ⟨rfl, rfl⟩
  · exact ⟨rfl, rfl⟩
  · split
    · exact ⟨rfl, rfl⟩
    · exact ⟨rfl, rfl⟩

theorem extend_counts (d : Decoder) (b : UInt8) : Counts d (d.extend b) := by
  unfold extend
  split
  · exact ⟨rfl, rfl⟩
  · exact finish_counts d _
  · exact ⟨rfl, rfl⟩
  · exact finish_counts d _
  · split
    · exact ⟨rfl, rfl⟩
    · split
      · exact ⟨rfl, rfl⟩
      · exact ⟨rfl, rfl⟩

theorem feed_counts {b : UInt8} (d : Decoder) (plain : b < 0xF8) : Counts d (d.feed b) := by
  rcases UInt8.lt_or_le b 0x80 with data | status
  · rw [feed_data d data, onData]
    split
    · split
      · exact extend_counts (d.reopen _) b
      · exact ⟨rfl, rfl⟩
    · exact extend_counts d b
  · rw [feed_status d ⟨status, plain⟩, onStatus]
    split
    · exact ⟨rfl, rfl⟩
    · have started := start_counts
        { d.abort with repeatable := if isChannelStatus b then some b else none } b
      rw [abort_eq] at started ⊢
      exact started

theorem feedAll_counts {w : List UInt8} (d : Decoder) (plain : ∀ b ∈ w, b < 0xF8) :
    (d.feedAll w).1.counters.messages = d.counters.messages + (d.feedAll w).2.length ∧
      (d.feedAll w).1.counters.realtime = d.counters.realtime := by
  induction w generalizing d with
  | nil => exact ⟨rfl, rfl⟩
  | cons b rest ih =>
    obtain ⟨now, later⟩ := List.forall_mem_cons.mp plain
    obtain ⟨messages, realtime⟩ := feed_counts d now
    obtain ⟨messages', realtime'⟩ := ih (d.feed b).1 later
    rw [feedAll_cons, List.length_append]
    exact ⟨by rw [messages', messages, Nat.add_assoc], realtime'.trans realtime⟩

/-- What a decoder makes of segments, after one that may have left a message open. -/
theorem feedAll_segments {d : Decoder} {last : Option Segment} {segments : List Segment}
    (stands : d.Stands last) (proper : ∀ g ∈ segments, g.Proper) :
    let e := (d.feedAll (segments.flatMap Segment.bytes)).1
    let next := segments.head?.map Segment.status
    let parts := Segment.place (last.map Segment.status) segments
    (d.feedAll (segments.flatMap Segment.bytes)).2 =
        last.toList.flatMap (Segment.closing d.options.maxSysEx next) ++
          parts.flatMap (fun p => p.segment.messages d.options p.after) ∧
      e.counters.framingErrors = d.counters.framingErrors +
        (parts.map fun p => p.segment.strays d.options.runningStatus p.before).sum ∧
      e.counters.aborted = d.counters.aborted +
        (last.any (Segment.abortedBy d.options.runningStatus next)).toNat +
        parts.countP (fun p => p.segment.abortedBy d.options.runningStatus p.after) ∧
      e.counters.truncated = d.counters.truncated +
        parts.countP (fun p => p.segment.overlong d.options.maxSysEx) := by
  induction segments generalizing d last with
  | nil =>
    cases last with
    | none => exact ⟨rfl, rfl, rfl, rfl⟩
    | some h => simp [Segment.place, Segment.closing, Segment.closedBy, Segment.abortedBy]
  | cons g rest ih =>
    obtain ⟨now, later⟩ := List.forall_mem_cons.mp proper
    obtain ⟨ended, messages, framing, aborted, truncated⟩ := follows stands now
    obtain ⟨messages', framing', aborted', truncated'⟩ := ih ended later
    rw [feedAll_options] at messages' framing' aborted' truncated'
    simp only [List.flatMap_cons, feedAll_append, Segment.place, List.map_cons, List.sum_cons,
      List.countP_cons]
    have one : ∀ b : Bool, b.toNat = if b = true then 1 else 0 := by decide
    refine ⟨?_, ?_, ?_, ?_⟩
    · rw [messages, messages']
      simp [Segment.messages]
    · rw [framing', framing, Nat.add_assoc]; rfl
    · rw [aborted', aborted, ← one, Nat.add_assoc _ (Bool.toNat _), Nat.add_comm (Bool.toNat _)]
      rfl
    · rw [truncated', truncated, ← one, Nat.add_assoc, Nat.add_comm (Bool.toNat _)]
      rfl

end Decoder

/--
A new decoder finds the messages of the grammar, in order, and counts them, the bytes outside of
messages, the messages cut short, and the runs that were too long.
-/
theorem feedAll_grammar (options : Decoder.Options) (w : List UInt8) (plain : ∀ b ∈ w, b < 0xF8) :
    let limit := max 2 options.maxSysEx
    let running := options.runningStatus
    let lead := (Segment.cut w).1
    let parts := Segment.place none (Segment.cut w).2
    let messages :=
      parts.flatMap fun p => p.segment.messages { options with maxSysEx := limit } p.after
    lead ++ parts.flatMap (fun p => p.segment.bytes) = w ∧
      (∀ b ∈ lead, b < 0x80) ∧ (∀ p ∈ parts, p.segment.Proper) ∧
      (∀ p ∈ parts, ∀ bytes ∈ p.segment.packets running, ∃ m,
        Message.ofBytes? bytes = some m ∧ m.WellFormed ∧ m.encode = bytes) ∧
      ((Decoder.new options).feedAll w).2 = messages ∧
      ((Decoder.new options).feedAll w).1.counters =
        { messages := messages.length
          realtime := 0
          framingErrors := lead.length + (parts.map fun p => p.segment.strays running p.before).sum
          aborted := parts.countP fun p => p.segment.abortedBy running p.after
          truncated := parts.countP fun p => p.segment.overlong limit } := by
  intro limit running lead parts messages
  obtain ⟨data, proper⟩ := Segment.cut_proper plain
  have segments : parts.map Placed.segment = (Segment.cut w).2 := Segment.place_segments ..
  have proper' : ∀ p ∈ parts, p.segment.Proper := fun p member =>
    proper p.segment (segments ▸ List.mem_map_of_mem member)
  have led := Decoder.feedAll_strays (d := .new options) data rfl (.inl rfl)
  have start : Decoder.Stands ({ Decoder.new options with
      counters.framingErrors := 0 + lead.length } : Decoder) none :=
    ⟨by simp [Decoder.new], by simp [Decoder.new], nofun⟩
  obtain ⟨given, framing, aborted, truncated⟩ := Decoder.feedAll_segments start proper
  have whole : (Decoder.new options).feedAll w =
      ({ Decoder.new options with counters.framingErrors := 0 + lead.length } : Decoder).feedAll
        ((Segment.cut w).2.flatMap Segment.bytes) := by
    calc (Decoder.new options).feedAll w
        = (Decoder.new options).feedAll (lead ++ (Segment.cut w).2.flatMap Segment.bytes) := by
          rw [Segment.cut_bytes]
      _ = _ := by rw [Decoder.feedAll_append, led]; rfl
  rw [← whole] at given framing aborted truncated
  obtain ⟨counted, none_⟩ := Decoder.feedAll_counts (.new options) plain
  have found : ((Decoder.new options).feedAll w).2 = messages := given
  refine ⟨?_, data, proper', fun p member => Segment.packets_read (proper' p member), found, ?_⟩
  · rw [← List.flatMap_map, segments, Segment.cut_bytes]
  · rw [found] at counted
    have fields : ∀ c : Decoder.Counters,
        c = ⟨c.messages, c.realtime, c.framingErrors, c.aborted, c.truncated⟩ := fun _ => rfl
    rw [fields ((Decoder.new options).feedAll w).1.counters, counted, none_, framing, aborted,
      truncated]
    simp only [Decoder.new, Option.any_none, Bool.toNat_false, Nat.zero_add]
    rfl

/-- Two notes and part of a third, a long run, a tune request, and a run that is cut short. -/
theorem feedAll_grammar_mixed :
    let options : Decoder.Options := { runningStatus := true, maxSysEx := 4 }
    let w : List UInt8 :=
      [7, 0x90, 60, 100, 61, 0, 62, 0xF0, 1, 2, 3, 0xF7, 5, 0xF6, 0xC3, 8, 0xF0, 9, 0xF4, 0xE0, 1]
    (∀ b ∈ w, b < 0xF8) ∧
      ((Decoder.new options).feedAll w).2 =
        [.noteOn 0 60 100, .noteOn 0 61 0, .sysEx { data := [0xF0, 1, 2, 0xF7], truncated := true },
          .tuneRequest, .programChange 3 8] ∧
      ((Decoder.new options).feedAll w).1.counters =
        { messages := 5, framingErrors := 3, aborted := 2, truncated := 1 } := by
  intro options w
  have plain : ∀ b ∈ w, b < 0xF8 := by simp [w]
  obtain ⟨-, -, -, -, messages, counters⟩ := feedAll_grammar options w plain
  exact ⟨plain, messages.trans (by decide), counters.trans (by decide)⟩

end MidiPatch
