import MidiPatch.Proofs.Recovery

/-!
# Messages without their status byte

A sender may leave out the status byte of a channel message that has the status of the last message
before it, realtime messages apart. Whichever of these status bytes it leaves out, a decoder with
running status reads the messages back (`abbreviated_read_back`).
-/

namespace MidiPatch

open Wire

/-- A message on its way out. -/
structure Shortened where
  message : Message
  /-- The status byte is left out. -/
  bare : Bool := false
  deriving DecidableEq, Repr

/-- The status of the last message, realtime messages apart. -/
def statusInEffect (ms : List Message) : Option UInt8 :=
  (withoutRealtime ms).getLast?.map Message.status

namespace Shortened

def bytes (x : Shortened) : List UInt8 := x.message.encode.drop x.bare.toNat

/-- Status bytes are left out of channel messages only, and only where they are in effect. -/
def Legal (xs : List Shortened) : Prop :=
  ∀ (i : Nat) (inside : i < xs.length), xs[i].bare = true →
    xs[i].message.isChannel = true ∧
      statusInEffect ((xs.take i).map message) = some xs[i].message.status

instance : DecidablePred Legal := fun xs =>
  inferInstanceAs (Decidable (∀ (i : Nat) (inside : i < xs.length), xs[i].bare = true →
    xs[i].message.isChannel = true ∧
      statusInEffect ((xs.take i).map message) = some xs[i].message.status))

theorem Legal.append_left {xs ys : List Shortened} (legal : Legal (xs ++ ys)) : Legal xs := by
  intro i inside bare
  have within : i < (xs ++ ys).length := by
    rw [List.length_append]
    omega
  have same : (xs ++ ys)[i] = xs[i] := List.getElem_append_left inside
  have allowed := legal i within
  rw [same, List.take_append_of_le_length (by omega)] at allowed
  exact allowed bare

theorem Legal.last {xs : List Shortened} {x : Shortened} (legal : Legal (xs ++ [x]))
    (bare : x.bare = true) :
    x.message.isChannel = true ∧ statusInEffect (xs.map message) = some x.message.status := by
  have allowed := legal xs.length (by simp)
  simp only [List.getElem_concat_length, List.take_left'] at allowed
  exact allowed bare

end Shortened

theorem Message.status_of_isChannel {m : Message} (channel : m.isChannel = true) :
    isChannelStatus m.status = true := by
  have masked : ∀ c, ∀ base ∈ [0x80, 0x90, 0xA0, 0xB0, 0xC0, 0xD0, 0xE0],
      isChannelStatus (base ||| channelBits c) = true := by
    intro c base known
    obtain ⟨above, below, -⟩ := channel_bits (channelBits c) (channelBits_lt c) base known
    have bounds : 0x80 ≤ base ∧ base + 16 ≤ 0xF0 := by
      simp only [List.mem_cons, List.not_mem_nil, or_false] at known
      rcases known with rfl | rfl | rfl | rfl | rfl | rfl | rfl <;> decide
    rw [isChannelStatus, Bool.and_eq_true, decide_eq_true_iff, decide_eq_true_iff]
    exact ⟨UInt8.le_trans bounds.1 above, UInt8.lt_of_lt_of_le below bounds.2⟩
  cases m with
  | noteOff c | noteOn c | aftertouch c | controlChange c | programChange c | channelPressure c
  | pitchBend c => exact masked c _ (by decide)
  | _ => cases channel

theorem statusInEffect_snoc (ms : List Message) (m : Message) :
    statusInEffect (ms ++ [m]) = if m.isRealtime then statusInEffect ms else some m.status := by
  unfold statusInEffect withoutRealtime
  rw [List.filter_append]
  cases plain : m.isRealtime <;> simp [plain]

namespace Decoder

/-- One more message: a status byte that is left out must be the one to repeat. -/
theorem feedAll_shortened {d : Decoder} {x : Shortened} (idle : d.Idle)
    (running : d.options.runningStatus = true) (clean : x.message.Clean d.options.maxSysEx)
    (kept : x.bare = true →
      isChannelStatus x.message.status = true ∧ d.repeatable = some x.message.status) :
    d.feedAll x.bytes = (d.took x.message, [x.message]) := by
  unfold Shortened.bytes
  cases bare : x.bare with
  | false =>
    have read := feedAll_encode idle clean.wellFormed
    rw [clean.clip] at read
    exact read
  | true =>
    obtain ⟨channel, cached⟩ := kept bare
    exact feedAll_repeated idle clean.wellFormed running cached channel

/-- A decoder after whole messages: it is between two, and may repeat the status in effect. -/
structure Between (d : Decoder) (ms : List Message) : Prop where
  idle : d.Idle
  cached : d.repeatable = (statusInEffect ms).bind repeatsAfter
  unbroken : d.counters.framingErrors = 0 ∧ d.counters.aborted = 0

theorem between_new (options : Options) : (new options).Between [] :=
  ⟨⟨rfl, rfl, rfl⟩, rfl, rfl, rfl⟩

theorem Between.took {d : Decoder} {ms : List Message} (between : d.Between ms) (m : Message) :
    (d.took m).Between (ms ++ [m]) := by
  refine ⟨idle_took between.idle m, ?_, between.unbroken⟩
  rw [statusInEffect_snoc]
  cases plain : m.isRealtime with
  | true =>
    have stays : (d.took m).repeatable = d.repeatable := by
      rw [Decoder.took, repeatsAfterMessage, plain]
      rfl
    exact stays.trans between.cached
  | false => exact took_repeatable d plain

theorem feedAll_legal (options : Options) {xs : List Shortened}
    (running : options.runningStatus = true)
    (clean : ∀ x ∈ xs, x.message.Clean (max 2 options.maxSysEx)) (legal : Shortened.Legal xs) :
    ((new options).feedAll (xs.flatMap Shortened.bytes)).1.Between (xs.map Shortened.message) ∧
      ((new options).feedAll (xs.flatMap Shortened.bytes)).2 = xs.map Shortened.message := by
  induction xs using List.reverseRecOn with
  | nil => exact ⟨between_new options, rfl⟩
  | append_singleton xs x ih =>
    obtain ⟨earlier, now⟩ := List.forall_mem_append.mp clean
    obtain ⟨between, read⟩ := ih earlier legal.append_left
    have same := feedAll_options (new options) (xs.flatMap Shortened.bytes)
    rw [List.flatMap_append, List.flatMap_singleton, feedAll_append, List.map_append,
      List.map_singleton]
    generalize (new options).feedAll (xs.flatMap Shortened.bytes) = state at between read same
    -- What the decoder may repeat is the status in effect, if it is one of a channel.
    have next : state.1.feedAll x.bytes = (state.1.took x.message, [x.message]) := by
      apply feedAll_shortened between.idle
      · rw [same]
        exact running
      · rw [same]
        exact now x (List.mem_singleton_self x)
      · intro bare
        obtain ⟨channel, effect⟩ := legal.last bare
        have status := Message.status_of_isChannel channel
        refine ⟨status, ?_⟩
        rw [between.cached, effect]
        exact if_pos status
    rw [next, read]
    exact ⟨between.took x.message, rfl⟩

end Decoder

/--
A new decoder with running status reads messages back, whichever of their status bytes were left
out. It makes no error and is between messages after each of them.
-/
theorem abbreviated_read_back (limit : Nat) (xs : List Shortened)
    (clean : ∀ x ∈ xs, x.message.Clean (max 2 limit)) (legal : Shortened.Legal xs) :
    let d := Decoder.new { runningStatus := true, maxSysEx := limit }
    let e := (d.feedAll (xs.flatMap Shortened.bytes)).1
    (d.feedAll (xs.flatMap Shortened.bytes)).2 = xs.map Shortened.message ∧
      e.counters.framingErrors = 0 ∧ e.counters.aborted = 0 ∧
      ∀ before after, before ++ after = xs →
        (d.feedAll (before.flatMap Shortened.bytes)).2 = before.map Shortened.message ∧
        (d.feedAll (before.flatMap Shortened.bytes)).1.Idle := by
  intro d e
  let options : Decoder.Options := { runningStatus := true, maxSysEx := limit }
  obtain ⟨between, read⟩ := Decoder.feedAll_legal options rfl clean legal
  refine ⟨read, between.unbroken.1, between.unbroken.2, ?_⟩
  rintro before after rfl
  obtain ⟨earlier, -⟩ := List.forall_mem_append.mp clean
  obtain ⟨between', read'⟩ := Decoder.feedAll_legal options rfl earlier legal.append_left
  exact ⟨read', between'.idle⟩

/-- Notes around a clock, programs under one status, and a run that puts an end to it. -/
theorem abbreviated_read_back_around_run :
    let xs : List Shortened :=
      [⟨.noteOn 0 60 100, false⟩, ⟨.realtime .clock, false⟩, ⟨.noteOn 0 62 100, true⟩,
        ⟨.programChange 0 5, false⟩, ⟨.programChange 0 6, true⟩,
        ⟨.sysEx { data := [0xF0, 1, 0xF7] }, false⟩, ⟨.programChange 0 7, false⟩]
    (∀ x ∈ xs, x.message.Clean (max 2 3)) ∧ Shortened.Legal xs ∧
      xs.flatMap Shortened.bytes =
        [0x90, 60, 100, 0xF8, 62, 100, 0xC0, 5, 6, 0xF0, 1, 0xF7, 0xC0, 7] ∧
      ((Decoder.new { runningStatus := true, maxSysEx := 3 }).feedAll
        (xs.flatMap Shortened.bytes)).2 = xs.map Shortened.message := by
  intro xs
  have clean : ∀ x ∈ xs, x.message.Clean (max 2 3) := by
    simp only [xs, List.forall_mem_cons]
    exact ⟨⟨by decide, rfl, by decide⟩, ⟨trivial, rfl, by decide⟩, ⟨by decide, rfl, by decide⟩,
      ⟨by decide, rfl, by decide⟩, ⟨by decide, rfl, by decide⟩, ⟨by decide, rfl, by decide⟩,
      ⟨by decide, rfl, by decide⟩, nofun⟩
  have legal : Shortened.Legal xs := by decide
  exact ⟨clean, legal, by decide, (abbreviated_read_back 3 xs clean legal).1⟩

end MidiPatch
