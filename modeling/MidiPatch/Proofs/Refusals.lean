import MidiPatch.Proofs.Boundaries
import MidiPatch.Proofs.Carrying
import MidiPatch.Proofs.RunningSource

/-!
# An output that refuses bytes

The boundary of an outlet follows every byte that is sent, the refused ones too, but the receiver
gets the accepted bytes only. `accepted_message_heard_iff` says when the receiver reads a message of
which every byte was accepted: its status byte was sent, or the accepted bytes before it end in that
status and whole pairs of data bytes.
-/

namespace MidiPatch

open Wire

/-! ### Sending to an output that may refuse -/

namespace Outlet

variable {ο : Type} [ByteOutput ο] [Recording ο] {o o' o'' : Outlet ο}

/-- `o'` follows `o` by sending `sent`, of which the output accepted `kept`. -/
structure Tries (o o' : Outlet ο) (sent kept : List UInt8) : Prop where
  part : kept.Sublist sent
  written : o'.written = o.written ++ kept
  errors : o'.counters.sendErrors + kept.length = o.counters.sendErrors + sent.length
  boundary : o'.boundary = o.boundary.run sent

theorem Tries.refl (o : Outlet ο) : Tries o o [] [] :=
  ⟨.slnil, (List.append_nil _).symm, rfl, rfl⟩

theorem Tries.trans {sent kept sent' kept' : List UInt8} (first : Tries o o' sent kept)
    (second : Tries o' o'' sent' kept') : Tries o o'' (sent ++ sent') (kept ++ kept') := by
  refine ⟨first.part.append second.part, ?_, ?_, ?_⟩
  · rw [second.written, first.written, List.append_assoc]
  · have errors := first.errors
    have errors' := second.errors
    rw [List.length_append, List.length_append]
    omega
  · rw [second.boundary, first.boundary, Boundary.run_append]

theorem Tries.kept_all {sent kept : List UInt8} (tries : Tries o o' sent kept)
    (accepted : o'.counters.sendErrors = o.counters.sendErrors) : kept = sent := by
  have errors := tries.errors
  rw [accepted] at errors
  exact tries.part.eq_of_length (Nat.add_left_cancel errors)

theorem tries_byte (o : Outlet ο) (b : UInt8) : ∃ kept, Tries o (o.sendByte b) [b] kept := by
  have written := Recording.written_send o.output [b]
  have errors := sendByte_errors o b
  cases answer : (ByteOutput.send o.output [b]).2 with
  | ok =>
    rw [answer] at written errors
    exact ⟨[b], .refl _, written, by rw [errors]; rfl, rfl⟩
  | error e =>
    rw [answer] at written errors
    exact ⟨[], List.nil_sublist _, written.trans (List.append_nil _).symm, by rw [errors]; rfl,
      rfl⟩

theorem tries_all (o : Outlet ο) (bytes : List UInt8) :
    ∃ kept, Tries o (bytes.foldl sendByte o) bytes kept := by
  induction bytes generalizing o with
  | nil => exact ⟨[], .refl o⟩
  | cons b rest ih =>
    obtain ⟨first, now⟩ := tries_byte o b
    obtain ⟨more, later⟩ := ih (o.sendByte b)
    exact ⟨first ++ more, now.trans later⟩

theorem AtRest.tries_emit {m : Message} (rest : o.AtRest) (wf : m.WellFormed) :
    (o.emitMessage m).1.AtRest ∧
      ∃ kept, Tries o (o.emitMessage m).1 (m.encode.drop (o.leavesOutStatus m).toNat) kept := by
  obtain ⟨kept, tries⟩ := tries_all o (m.encode.drop (o.leavesOutStatus m).toNat)
  rw [rest.emit_eq m]
  exact ⟨rest.write wf, kept, tries.part, tries.written, tries.errors, tries.boundary⟩

theorem AtRest.tries_emitAll {ms : List Message} (rest : o.AtRest)
    (wf : ∀ m ∈ ms, m.WellFormed) :
    (o.emitAll ms).AtRest ∧ ∃ sent kept, Tries o (o.emitAll ms) sent kept := by
  induction ms generalizing o with
  | nil => exact ⟨rest, [], [], .refl o⟩
  | cons m ms ih =>
    obtain ⟨now, later⟩ := List.forall_mem_cons.mp wf
    obtain ⟨next, kept, first⟩ := rest.tries_emit now
    obtain ⟨last, sent, more, second⟩ := ih next later
    exact ⟨last, _, _, first.trans second⟩

end Outlet

/-! ### The last status among bytes -/

/-- The last status byte among the bytes is `s`, and `n` data bytes follow it. -/
inductive Behind (s : UInt8) : Nat → List UInt8 → Prop
  | status (bytes : List UInt8) : Behind s 0 (bytes ++ [s])
  | data {n : Nat} {bytes : List UInt8} {b : UInt8} (low : b < 0x80) (before : Behind s n bytes) :
      Behind s (n + 1) (bytes ++ [b])
  | realtime {n : Nat} {bytes : List UInt8} (k : Realtime) (before : Behind s n bytes) :
      Behind s n (bytes ++ [k.byte])

theorem Behind.counts {s : UInt8} {n : Nat} {bytes : List UInt8} (status : 0x80 ≤ s ∧ s < 0xF8)
    (behind : Behind s n bytes) : lastStatus? bytes = some s ∧ dataAfter bytes = n := by
  induction behind with
  | status bytes => exact snoc_status bytes status
  | data low before ih =>
    obtain ⟨last, count⟩ := snoc_data _ low
    rw [last, count, ih.1, ih.2]
    exact ⟨rfl, rfl⟩
  | realtime k before ih =>
    obtain ⟨last, count⟩ := snoc_realtime _ k
    rw [last, count]
    exact ih

theorem behind_last {s : UInt8} {bytes : List UInt8} (found : lastStatus? bytes = some s) :
    Behind s (dataAfter bytes) bytes := by
  induction bytes using List.reverseRecOn with
  | nil => exact nomatch found
  | append_singleton bytes b ih =>
    rcases byte_cases b with data | status | high
    · obtain ⟨last, count⟩ := snoc_data bytes data
      rw [count]
      exact .data data (ih (last.symm.trans found))
    · obtain ⟨last, count⟩ := snoc_status bytes status
      obtain rfl := Option.some.inj (last.symm.trans found)
      rw [count]
      exact .status bytes
    · obtain ⟨k, rfl⟩ := Realtime.exists_of_le b high
      obtain ⟨last, count⟩ := snoc_realtime bytes k
      rw [count]
      exact .realtime k (ih (last.symm.trans found))

namespace Boundary

/-- A channel status of three bytes stays in effect, and the data after it is counted in pairs. -/
theorem run_channel {s : UInt8} {bytes : List UInt8} (found : lastStatus? bytes = some s)
    (channel : isChannelStatus s = true) (length : lengthOf s = .three) :
    (({} : Boundary).run bytes).status = some s ∧
      (({} : Boundary).run bytes).count = dataAfter bytes % 2 := by
  obtain ⟨n, known⟩ := run_eq_iterate bytes
  have opened : opening n (some s) = ⟨some s, 0, false⟩ := next_three _ length
  rw [known, found, opened, iterate_channel length channel]
  exact ⟨rfl, rfl⟩

theorem last_of_run {s : UInt8} {bytes : List UInt8}
    (known : (({} : Boundary).run bytes).status = some s) : lastStatus? bytes = some s := by
  cases found : lastStatus? bytes with
  | none =>
    obtain ⟨n, state⟩ := run_unstarted found
    rw [state] at known
    exact nomatch known
  | some r =>
    obtain ⟨rfl, -⟩ := ((run_since found).status_iff s).mp known
    rfl

theorem run_status_iff {s : UInt8} (bytes : List UInt8) (channel : isChannelStatus s = true)
    (length : lengthOf s = .three) :
    ((({} : Boundary).run bytes).status = some s ∧ (({} : Boundary).run bytes).count = 0) ↔
      ∃ n, Behind s n bytes ∧ n % 2 = 0 := by
  constructor
  · rintro ⟨known, even⟩
    -- The count tells an even number of data bytes from an odd one only.
    have found := last_of_run known
    have count := (run_channel found channel length).2
    exact ⟨_, behind_last found, count.symm.trans even⟩
  · rintro ⟨n, behind, even⟩
    obtain ⟨found, counted⟩ := behind.counts (status_of_channel s channel)
    obtain ⟨known, count⟩ := run_channel found channel length
    rw [counted] at count
    exact ⟨known, count.trans even⟩

end Boundary

/-! ### What the receiver makes of it -/

/-- The decoder reads the bytes as just that message and leaves nothing open behind it. -/
def Decoder.Hears (d : Decoder) (bytes : List UInt8) (m : Message) : Prop :=
  (d.feedAll bytes).2 = [m] ∧ (m.isRealtime = false → (d.feedAll bytes).1.phase = .idle)

theorem Decoder.hears_encode {m : Message} (d : Decoder) (clean : m.Clean d.options.maxSysEx) :
    d.Hears m.encode m := by
  cases plain : m.isRealtime with
  | true =>
    cases m with
    | realtime k => exact ⟨congrArg Prod.snd (feedAll_realtime d k), nofun⟩
    | _ => exact nomatch plain
  | false =>
    have read := d.feedAll_encode_afresh clean.wellFormed plain
    rw [clean.clip] at read
    rw [Hears, read]
    exact ⟨rfl, fun _ => d.abort_phase⟩

theorem Decoder.not_hears {d e : Decoder} {s a : UInt8} {data rest : List UInt8} {m m' : Message}
    (fed : d.feed a = (e, some m')) (spells : m'.Spells s data) (other : s ≠ m.status) :
    ¬ d.Hears (a :: rest) m := by
  rintro ⟨heard, -⟩
  rw [feedAll_cons, fed] at heard
  obtain ⟨rfl, -⟩ := List.cons.inj heard
  exact other spells.2.2.1.symm

theorem Decoder.not_hears_stray {d : Decoder} {a b : UInt8} {m : Message} (low : a < 0x80)
    (high : b < 0x80) (idle : d.phase = .idle) (none : d.repeatable = none) :
    ¬ d.Hears [a, b] m := by
  have again : d.reject.phase = .idle := idle
  rintro ⟨heard, -⟩
  rw [feedAll_cons, feed_stray low idle (.inl none), feedAll_cons,
    feed_stray high again (.inl none)] at heard
  exact List.cons_ne_nil _ _ heard.symm

/-- Halfway through another message, the data bytes complete that one and open a next. -/
theorem Decoder.not_hears_half {d : Decoder} {a b : UInt8} {m : Message} (valid : d.Valid)
    (current : d.Current) (running : d.options.runningStatus = true) (three : ThreeByte m)
    (low : a < 0x80) (high : b < 0x80) (phase : d.phase = .thirdOfThree) : ¬ d.Hears [a, b] m := by
  obtain ⟨s, a', m', held, length, spells, fed⟩ := valid.feed_thirdOfThree low phase
  by_cases own : s = m.status
  · have plain : m.isRealtime = false := not_realtime_of_data (.inr three.length)
    have kept : repeatsAfter s = some s := if_pos (own ▸ three.channel)
    have again : d.repeatable = some s := (current s [a'] held).trans kept
    have next : (d.close.complete m').1.feed b = _ :=
      feed_repeat_three high rfl again running length
    rintro ⟨-, idle⟩
    have closed := idle plain
    rw [feedAll_cons, fed, feedAll_cons, next] at closed
    exact nomatch closed
  · exact not_hears fed spells own

/-- Two data bytes after the status `s` are the message `m` just if `s` is the status of `m`. -/
theorem Decoder.hears_pair {d : Decoder} {s a b : UInt8} {m : Message}
    (length : lengthOf s = .three) (low : a < 0x80) (high : b < 0x80)
    (read : Message.ofBytes? [m.status, a, b] = some m)
    (fed : d.feed a = ({ d with phase := .thirdOfThree, held := [s, a] }, none)) :
    d.Hears [a, b] m ↔ s = m.status := by
  obtain ⟨m', spells⟩ := Message.exists_of_three length low high
  have last : ({ d with phase := .thirdOfThree, held := [s, a] } : Decoder).feed b = _ :=
    feed_thirdOfThree high rfl rfl spells.1
  rw [Hears, feedAll_cons, fed, feedAll_cons, last]
  constructor
  · rintro ⟨heard, -⟩
    obtain ⟨rfl, -⟩ := List.cons.inj heard
    exact spells.2.2.1.symm
  · rintro rfl
    obtain rfl := Option.some.inj (spells.1.symm.trans read)
    exact ⟨rfl, fun _ => rfl⟩

namespace Tracks

variable {t : Boundary} {d : Decoder} {m : Message}

/-- Without its status, a message is heard just if the receiver's view is that it repeats one. -/
theorem hears_iff (h : Tracks t d) (valid : d.Valid) (current : d.Current)
    (running : d.options.runningStatus = true) (three : ThreeByte m) :
    d.Hears (m.encode.drop 1) m ↔ t.status = some m.status ∧ t.count = 0 := by
  obtain ⟨a, b, low, high, encoded, read⟩ := three.spelled
  have kept : Decoder.repeatsAfter m.status = some m.status := if_pos three.channel
  have of_two : ∀ {s : UInt8}, lengthOf s = .two → s ≠ m.status := by
    rintro s two rfl
    rw [three.length] at two
    exact nomatch two
  rw [encoded, List.drop_one, List.tail_cons]
  cases h with
  | clear phase short =>
    refine iff_of_false ?_ fun same => nomatch same.1
    cases cached : d.repeatable with
    | none => exact Decoder.not_hears_stray low high phase cached
    | some s =>
      obtain ⟨m', spells, fed⟩ :=
        Decoder.feed_repeat_two low (valid.idle phase) cached running (short s cached)
      exact Decoder.not_hears fed spells (of_two (short s cached))
  | two length phase cached =>
    obtain ⟨s', m', -, length', spells, fed⟩ := valid.feed_secondOfTwo low phase
    refine iff_of_false ?_ fun same => of_two length (Option.some.inj same.1)
    exact Decoder.not_hears fed spells (of_two length')
  | @three s _ length phase cached =>
    obtain ⟨s', held, length'⟩ := valid.held_secondOfThree phase
    have fed := Decoder.feed_secondOfThree low phase
    rw [held] at fed
    rw [Decoder.hears_pair length' low high read fed]
    -- Both statuses leave the same one to repeat, so one is that of `m` just if the other is.
    have same : Decoder.repeatsAfter s' = Decoder.repeatsAfter s :=
      (current s' [] held).symm.trans cached
    constructor
    · rintro rfl
      rw [kept] at same
      exact ⟨congrArg some (Decoder.repeatsAfter_channel same.symm).1.symm, rfl⟩
    · rintro ⟨own, -⟩
      rw [Option.some.inj own, kept] at same
      exact (Decoder.repeatsAfter_channel same).1.symm
  | half length phase cached =>
    refine iff_of_false ?_ fun same => nomatch same.2
    exact Decoder.not_hears_half valid current running three low high phase
  | @done s _ length phase cached =>
    have fed := Decoder.feed_repeat_three low phase cached running length
    rw [Decoder.hears_pair length low high read fed]
    exact ⟨fun own => ⟨congrArg some own, rfl⟩, fun same => Option.some.inj same.1⟩
  | dropped _ _ _ off => exact nomatch running.symm.trans off
  | run phase cached =>
    refine iff_of_false ?_ ?_
    · obtain ⟨nothing, inside, -⟩ := Decoder.feed_inSysEx low phase
      obtain ⟨nothing', -, -⟩ := Decoder.feed_inSysEx high inside
      rintro ⟨heard, -⟩
      rw [Decoder.feedAll_cons, Decoder.feedAll_cons, nothing, nothing'] at heard
      exact List.cons_ne_nil _ _ heard.symm
    · rintro ⟨own, -⟩
      have length := three.length
      rw [← Option.some.inj own] at length
      exact nomatch length
  | unused which phase cached =>
    refine iff_of_false (Decoder.not_hears_stray low high phase cached) ?_
    rintro ⟨own, -⟩
    have length := three.length
    rw [← Option.some.inj own] at length
    rcases which with rfl | rfl
    · exact nomatch length
    · exact nomatch length

end Tracks

theorem hears_iff_behind {m : Message} {options : Decoder.Options} (before : List UInt8)
    (running : options.runningStatus = true) (three : ThreeByte m) :
    ((Decoder.new options).feedAll before).1.Hears (m.encode.drop 1) m ↔
      ∃ n, Behind m.status n before ∧ n % 2 = 0 := by
  have fresh := Decoder.valid_new options
  have valid := (Decoder.feedAll_valid fresh before).1
  have current : ((Decoder.new options).feedAll before).1.Current :=
    Decoder.feedAll_current fresh (Decoder.current_of_none rfl) before
  have tracks := (Tracks.start options).feedAll fresh before
  rw [tracks.hears_iff valid current (by rw [Decoder.feedAll_options]; exact running) three]
  exact Boundary.run_status_iff before three.channel three.length

theorem Outlet.three_of_leavesOut {ο : Type} {o : Outlet ο} {m : Message} {sent : List UInt8}
    (boundary : o.boundary = ({} : Boundary).run sent) (left_out : o.leavesOutStatus m = true)
    (wf : m.WellFormed) : ThreeByte m := by
  have free : o.boundary.canRepeat m.status = true := (Bool.and_eq_true_iff.mp left_out).2
  -- Some receiver of the bytes sent, refused ones included, is what the boundary keeps track of.
  have tracks := (Tracks.start {}).feedAll (Decoder.valid_new {}) sent
  rw [← boundary] at tracks
  obtain ⟨-, -, channel, length⟩ := tracks.repeats_of_canRepeat free
  exact ⟨wf, channel, length⟩

/--
What becomes of a message of which an output that may refuse bytes accepts every one. The receiver
of the accepted bytes reads the message from its own bytes just if its status was sent, or is the
last one accepted before with whole pairs of data bytes after it.
-/
theorem accepted_message_heard_iff {ο : Type} [ByteOutput ο] [Recording ο] (output : ο)
    (compress : Bool) (limit : Nat) (earlier : List Message) (m : Message) (later : List Message)
    (clean : ∀ m' ∈ earlier ++ m :: later, m'.Clean (max 2 limit)) :
    let o := ({ output := output, compress := compress } : Outlet ο).emitAll earlier
    let o' := (o.emitMessage m).1
    let d := Decoder.new { runningStatus := true, maxSysEx := limit }
    ∃ before own after,
      o.written = Recording.written output ++ before ∧ o'.written = o.written ++ own ∧
      (o'.emitAll later).written = o'.written ++ after ∧
      (o'.counters.sendErrors = o.counters.sendErrors →
        own = m.encode.drop (o.leavesOutStatus m).toNat ∧
        ((d.feedAll before).1.Hears own m ↔
          o.leavesOutStatus m = false ∨ ∃ n, Behind m.status n before ∧ n % 2 = 0) ∧
        ((d.feedAll before).1.Hears own m → ∃ others,
          (d.feedAll (before ++ own ++ after)).2 = (d.feedAll before).2 ++ m :: others)) := by
  intro o o' d
  have now : m.Clean (max 2 limit) := clean m (by simp)
  have start : ({ output := output, compress := compress } : Outlet ο).AtRest := ⟨rfl, rfl⟩
  have wf : ∀ m' ∈ earlier, m'.WellFormed :=
    fun m' member => (clean m' (List.mem_append_left _ member)).wellFormed
  have wf' : ∀ m' ∈ later, m'.WellFormed :=
    fun m' member => (clean m' (by simp [member])).wellFormed
  obtain ⟨rest, sent, before, tries⟩ := start.tries_emitAll wf
  obtain ⟨rest', own, tries'⟩ := rest.tries_emit now.wellFormed
  obtain ⟨-, _, after, tries''⟩ := rest'.tries_emitAll wf'
  refine ⟨before, own, after, tries.written, tries'.written, tries''.written, ?_⟩
  intro accepted
  have whole := tries'.kept_all accepted
  refine ⟨whole, ?_, ?_⟩
  · rw [whole]
    cases left_out : o.leavesOutStatus m with
    | false =>
      have room : (d.feedAll before).1.options.maxSysEx = max 2 limit := by
        rw [Decoder.feedAll_options]; rfl
      have heard : (d.feedAll before).1.Hears m.encode m := Decoder.hears_encode _ (room ▸ now)
      exact iff_of_true heard (.inl rfl)
    | true =>
      -- The boundary saw the bytes as they were sent, the receiver as they were accepted.
      have three := Outlet.three_of_leavesOut tries.boundary left_out now.wellFormed
      have heard : (d.feedAll before).1.Hears (m.encode.drop 1) m ↔ _ :=
        hears_iff_behind before rfl three
      exact heard.trans (by simp)
  · rintro ⟨heard, -⟩
    refine ⟨((d.feedAll (before ++ own)).1.feedAll after).2, ?_⟩
    rw [Decoder.feedAll_append, Decoder.feedAll_append d, heard, List.append_assoc]
    rfl

/-- An output that accepts or refuses each of the coming sends as told, and accepts all after. -/
structure Flaky where
  bytes : List UInt8 := []
  verdicts : List Bool := []
  deriving DecidableEq, Repr

instance : ByteOutput Flaky where
  send f bytes :=
    if f.verdicts.headD true then
      ({ bytes := f.bytes ++ bytes, verdicts := f.verdicts.tail }, .ok ())
    else ({ f with verdicts := f.verdicts.tail }, .error .closed)

instance : Recording Flaky where
  written := Flaky.bytes
  written_send f bytes := by
    obtain ⟨old, verdicts⟩ := f
    cases verdicts with
    | nil => rfl
    | cons verdict rest => cases verdict <;> rfl

/-- The second note repeats an accepted status, so it is read, and the refused bytes come later. -/
theorem accepted_message_heard_when_repeated :
    let start : Outlet Flaky :=
      { output := { verdicts := [true, true, true, true, true, false] }, compress := true }
    let o := start.emitAll [.noteOn 0 60 100]
    let o' := (o.emitMessage (.noteOn 0 62 100)).1
    (∀ m ∈ ([.noteOn 0 60 100, .noteOn 0 62 100, .programChange 0 5] : List Message),
      m.WellFormed ∧ m.isTruncated = false ∧ m.runLength ≤ 256) ∧
      o'.counters.sendErrors = o.counters.sendErrors ∧
      o.leavesOutStatus (.noteOn 0 62 100) = true ∧
      (o'.emitAll [.programChange 0 5]).written = [0x90, 60, 100, 62, 100, 5] ∧
      ∃ others,
        ((Decoder.new { runningStatus := true }).feedAll ([0x90, 60, 100] ++ [62, 100] ++ [5])).2 =
          ((Decoder.new { runningStatus := true }).feedAll [0x90, 60, 100]).2 ++
            .noteOn 0 62 100 :: others := by
  intro start o o'
  have clean : ∀ m ∈ ([.noteOn 0 60 100, .noteOn 0 62 100, .programChange 0 5] : List Message),
      m.WellFormed ∧ m.isTruncated = false ∧ m.runLength ≤ 256 := by decide
  have accepted : o'.counters.sendErrors = o.counters.sendErrors := by decide
  obtain ⟨before, own, after, written, written', written'', heard⟩ :=
    accepted_message_heard_iff start.output true 256 [.noteOn 0 60 100] (.noteOn 0 62 100)
      [.programChange 0 5] fun m member => ⟨(clean m member).1, (clean m member).2.1,
        (clean m member).2.2⟩
  have first : o.written = [0x90, 60, 100] := by decide
  have second : o'.written = o.written ++ [62, 100] := by decide
  have third : (o'.emitAll [.programChange 0 5]).written = o'.written ++ [5] := by decide
  obtain rfl : [0x90, 60, 100] = before := first.symm.trans written
  obtain rfl : [62, 100] = own := List.append_cancel_left (second.symm.trans written')
  obtain rfl : [5] = after := List.append_cancel_left (third.symm.trans written'')
  obtain ⟨-, iff, among⟩ := heard accepted
  have behind : Behind 0x90 2 [0x90, 60, 100] := .data (by decide) (.data (by decide) (.status []))
  exact ⟨clean, accepted, by decide, by decide, among (iff.mpr (.inr ⟨2, behind, rfl⟩))⟩

/-- The first note is refused; the second leaves out a status that the receiver never got. -/
theorem refused_status_loses_message :
    let start : Outlet Flaky :=
      { output := { verdicts := [false, false, false] }, compress := true }
    let o := start.emitAll [.noteOn 0 60 100]
    let o' := (o.emitMessage (.noteOn 0 62 100)).1
    (∀ m ∈ ([.noteOn 0 60 100, .noteOn 0 62 100] : List Message),
      m.WellFormed ∧ m.isTruncated = false ∧ m.runLength ≤ 256) ∧
      o.written = [] ∧ o.leavesOutStatus (.noteOn 0 62 100) = true ∧
      o'.counters.sendErrors = o.counters.sendErrors ∧ o'.written = [62, 100] ∧
      ((Decoder.new { runningStatus := true }).feedAll o'.written).2 = [] := by
  decide

end MidiPatch
