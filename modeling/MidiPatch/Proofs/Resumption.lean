import MidiPatch.Proofs.Merging

/-!
# What a decoder goes on from

The messages that a decoder will give depend on the part of a message that it goes on from, and on
nothing else. A status that would be repeated counts as the beginning of a message. So there is such
a part for every decoder, its `standing`, and three short streams are enough to read it back.
-/

namespace MidiPatch

open Wire

namespace Decoder

variable {d d' : Decoder} {b : UInt8}

/-! ### Repeating as going on -/

/-- The decoder that has the status open which a data byte would repeat. -/
def resumed (d : Decoder) : Decoder :=
  match d.phase, d.repeatable with
  | .idle, some s => if d.options.runningStatus then d.reopen s else d
  | _, _ => d

/-- The bytes that the next data byte is added to, and whether some of them were lost. -/
def standing (d : Decoder) : List UInt8 × Bool := (d.resumed.held, d.resumed.cut)

theorem resumed_of_stray (idle : d.phase = .idle)
    (alone : d.repeatable = none ∨ d.options.runningStatus = false) : d.resumed = d := by
  unfold resumed
  rw [idle]
  rcases alone with none | off
  · rw [none]
  · cases d.repeatable with
    | none => rfl
    | some s => exact if_neg (ne_true_of_eq_false off)

theorem resumed_of_repeat {s : UInt8} (idle : d.phase = .idle) (cached : d.repeatable = some s)
    (running : d.options.runningStatus = true) : d.resumed = d.reopen s := by
  unfold resumed
  rw [idle, cached]
  exact if_pos running

theorem resumed_of_open (opened : d.phase ≠ .idle) : d.resumed = d := by
  unfold resumed
  cases phase : d.phase with
  | idle => exact absurd phase opened
  | _ => rfl

/-- Nothing is open and nothing would be repeated, or a status would be, or a message is open. -/
theorem resumed_cases (d : Decoder) :
    (d.phase = .idle ∧ (d.repeatable = none ∨ d.options.runningStatus = false) ∧ d.resumed = d) ∨
      (∃ s, d.phase = .idle ∧ d.repeatable = some s ∧ d.options.runningStatus = true ∧
        d.resumed = d.reopen s) ∨
      (d.phase ≠ .idle ∧ d.resumed = d) := by
  by_cases idle : d.phase = .idle
  · by_cases alone : d.repeatable = none ∨ d.options.runningStatus = false
    · exact .inl ⟨idle, alone, resumed_of_stray idle alone⟩
    · rw [not_or, Bool.not_eq_false] at alone
      obtain ⟨s, cached⟩ := Option.ne_none_iff_exists'.mp alone.1
      exact .inr (.inl ⟨s, idle, cached, alone.2, resumed_of_repeat idle cached alone.2⟩)
  · exact .inr (.inr ⟨idle, resumed_of_open idle⟩)

theorem resumed_options (d : Decoder) : d.resumed.options = d.options := by
  rcases d.resumed_cases with ⟨-, -, same⟩ | ⟨s, -, -, -, same⟩ | ⟨-, same⟩
  · rw [same]
  · rw [same]; rfl
  · rw [same]

theorem resumed_repeatable (d : Decoder) : d.resumed.repeatable = d.repeatable := by
  rcases d.resumed_cases with ⟨-, -, same⟩ | ⟨s, -, -, -, same⟩ | ⟨-, same⟩
  · rw [same]
  · rw [same]; rfl
  · rw [same]

theorem resumed_resumed (d : Decoder) : d.resumed.resumed = d.resumed := by
  rcases d.resumed_cases with ⟨-, -, same⟩ | ⟨s, -, -, -, same⟩ | ⟨-, same⟩
  · rw [same, same]
  · rw [same]
    exact resumed_of_open (reopen_phase d s)
  · rw [same, same]

theorem resumed_inSysEx : d.resumed.phase = .inSysEx ↔ d.phase = .inSysEx := by
  rcases d.resumed_cases with ⟨-, -, same⟩ | ⟨s, idle, -, -, same⟩ | ⟨-, same⟩
  · rw [same]
  · rw [same, idle, reopen]
    dsimp only
    split <;> simp
  · rw [same]

theorem feed_resumed (low : b < 0x80) : d.feed b = d.resumed.extend b := by
  rcases d.resumed_cases with ⟨idle, alone, same⟩ | ⟨s, idle, again, on, same⟩ | ⟨opened, same⟩
  · rw [same, feed_stray low idle alone, extend]
    simp only [idle]
  · rw [same, feed_repeat low idle again on, feed_open low (reopen_phase d s)]
  · rw [same, feed_open low opened]

theorem feed_eq_resumed (low : b < 0x80) : d.feed b = d.resumed.feed b := by
  rw [feed_resumed low, feed_resumed low, resumed_resumed]

theorem resumed_alone (idle : d.resumed.phase = .idle) :
    d.resumed.repeatable = none ∨ d.resumed.options.runningStatus = false := by
  rcases d.resumed_cases with ⟨-, alone, same⟩ | ⟨s, -, -, -, same⟩ | ⟨opened, same⟩
  · rwa [same]
  · exact absurd (same ▸ idle) (reopen_phase d s)
  · exact absurd (same ▸ idle) opened

theorem extend_repeatable (d : Decoder) (b : UInt8) : (d.extend b).1.repeatable = d.repeatable := by
  have finished : ∀ bytes, (d.finish bytes).1.repeatable = d.repeatable := by
    intro bytes
    unfold finish
    split <;> rfl
  unfold extend
  split
  · rfl
  · exact finished _
  · rfl
  · exact finished _
  · split
    · rfl
    · split <;> rfl

theorem Alike.resumed (alike : Alike d d')
    (running : d'.options.runningStatus = d.options.runningStatus)
    (cached : d.options.runningStatus = true → d'.repeatable = d.repeatable) :
    Alike d.resumed d'.resumed := by
  rcases d.resumed_cases with ⟨idle, alone, same⟩ | ⟨s, idle, again, on, same⟩ | ⟨opened, same⟩
  · have alone' : d'.repeatable = none ∨ d'.options.runningStatus = false := by
      cases on : d.options.runningStatus with
      | false => exact .inr (running.trans on)
      | true => exact .inl ((cached on).trans (alone.resolve_right (ne_false_of_eq_true on)))
    rw [same, resumed_of_stray (alike.phase.trans idle) alone']
    exact alike
  · have again' : d'.repeatable = some s := (cached on).trans again
    rw [same, resumed_of_repeat (alike.phase.trans idle) again' (running.trans on)]
    exact ⟨alike.limit, rfl, rfl, alike.cut⟩
  · rw [same, resumed_of_open (alike.phase ▸ opened)]
    exact alike

/-! ### Decoders that go on from the same part -/

structure Twin (d d' : Decoder) : Prop where
  alike : Alike d.resumed d'.resumed
  running : d'.options.runningStatus = d.options.runningStatus
  cached : d.options.runningStatus = true → d'.repeatable = d.repeatable

theorem Twin.abort (twin : Twin d d') : Alike d.abort d'.abort := by
  have limit := twin.alike.limit
  rw [resumed_options, resumed_options] at limit
  rw [abort_eq, abort_eq]
  exact ⟨limit, rfl, rfl, rfl⟩

theorem resumed_counters (d : Decoder) (counters : Counters) :
    ({ d with counters } : Decoder).resumed = { d.resumed with counters } := by
  rcases d.resumed_cases with ⟨idle, alone, same⟩ | ⟨s, idle, again, on, same⟩ | ⟨opened, same⟩
  · rw [same]
    exact resumed_of_stray idle alone
  · rw [same]
    exact resumed_of_repeat idle again on
  · rw [same]
    exact resumed_of_open opened

theorem Twin.counting (twin : Twin d d') (counters counters' : Counters) :
    Twin { d with counters } { d' with counters := counters' } := by
  refine ⟨?_, twin.running, twin.cached⟩
  rw [resumed_counters d counters, resumed_counters d' counters']
  exact ⟨twin.alike.limit, twin.alike.phase, twin.alike.held, twin.alike.cut⟩

theorem Twin.feed (twin : Twin d d') (b : UInt8) :
    Twin (d.feed b).1 (d'.feed b).1 ∧ (d'.feed b).2 = (d.feed b).2 := by
  have running : (d'.feed b).1.options.runningStatus = (d.feed b).1.options.runningStatus := by
    rw [feed_options, feed_options]
    exact twin.running
  -- Decoders that come out alike, with the same status to repeat, are twins again.
  have alike_twins : Alike (d.feed b).1 (d'.feed b).1 →
      (d.options.runningStatus = true → (d'.feed b).1.repeatable = (d.feed b).1.repeatable) →
      Twin (d.feed b).1 (d'.feed b).1 := by
    intro alike cached
    rw [← feed_options d b] at cached
    exact ⟨alike.resumed running cached, running, cached⟩
  have aborted := twin.abort
  cases byteClass b with
  | data low =>
    obtain ⟨alike, same⟩ := twin.alike.extend b
    rw [feed_resumed low, feed_resumed low] at alike_twins ⊢
    refine ⟨alike_twins alike fun on => ?_, same⟩
    rw [extend_repeatable, extend_repeatable, resumed_repeatable, resumed_repeatable]
    exact twin.cached on
  | two length =>
    rw [feed_two d length, feed_two d' length] at alike_twins ⊢
    exact ⟨alike_twins ⟨aborted.limit, rfl, rfl, aborted.cut⟩ fun _ => rfl, rfl⟩
  | three length =>
    rw [feed_three d length, feed_three d' length] at alike_twins ⊢
    exact ⟨alike_twins ⟨aborted.limit, rfl, rfl, aborted.cut⟩ fun _ => rfl, rfl⟩
  | tune =>
    rw [feed_tune, feed_tune] at alike_twins ⊢
    exact ⟨alike_twins ⟨aborted.limit, aborted.phase, aborted.held, aborted.cut⟩ fun _ => rfl, rfl⟩
  | opens =>
    rw [feed_opens, feed_opens] at alike_twins ⊢
    refine ⟨alike_twins ⟨aborted.limit, rfl, ?_, ?_⟩ fun _ => rfl, rfl⟩
    · simp [capture]
    · simp [capture]
  | closes =>
    by_cases inside : d.phase = .inSysEx
    · have inside' := resumed_inSysEx.mp (twin.alike.phase.trans (resumed_inSysEx.mpr inside))
      have alike := twin.alike
      rw [resumed_of_open (by simp [inside]), resumed_of_open (by simp [inside'])] at alike
      rw [feed_closes_run inside, feed_closes_run inside'] at alike_twins ⊢
      refine ⟨alike_twins ⟨alike.limit, rfl, rfl, rfl⟩ twin.cached, ?_⟩
      simp only [finishSysEx, complete, alike.held, alike.cut]
    · have outside' : d'.phase ≠ .inSysEx := by
        intro inside'
        apply inside
        exact resumed_inSysEx.mp (twin.alike.phase.symm.trans (resumed_inSysEx.mpr inside'))
      rw [feed_closes_stray inside, feed_closes_stray outside'] at alike_twins ⊢
      exact ⟨alike_twins ⟨aborted.limit, aborted.phase, aborted.held, aborted.cut⟩
        fun _ => rfl, rfl⟩
  | undefined unused =>
    rw [feed_unused d unused, feed_unused d' unused] at alike_twins ⊢
    exact ⟨alike_twins ⟨aborted.limit, aborted.phase, aborted.held, aborted.cut⟩ fun _ => rfl, rfl⟩
  | realtime k =>
    rw [feed_realtime, feed_realtime]
    exact ⟨twin.counting _ _, rfl⟩

theorem Twin.feedAll (twin : Twin d d') (bytes : List UInt8) :
    Twin (d.feedAll bytes).1 (d'.feedAll bytes).1 ∧ (d'.feedAll bytes).2 = (d.feedAll bytes).2 := by
  induction bytes generalizing d d' with
  | nil => exact ⟨twin, rfl⟩
  | cons b rest ih =>
    obtain ⟨next, now⟩ := twin.feed b
    obtain ⟨last, later⟩ := ih next
    rw [feedAll_cons, feedAll_cons]
    exact ⟨last, by rw [now, later]⟩

/-! ### The part is all there is to know -/

/-- A decoder that has read bytes since it was made with some options. -/
structure Reached (options : Options) (d : Decoder) : Prop where
  valid : d.Valid
  current : d.Current
  options : d.options = (new options).options

variable {options : Options}

theorem reached_new (options : Options) : Reached options (new options) :=
  ⟨valid_new options, current_of_none rfl, rfl⟩

theorem Reached.feedAll (reached : Reached options d) (bytes : List UInt8) :
    Reached options (d.feedAll bytes).1 :=
  ⟨(feedAll_valid reached.valid bytes).1, feedAll_current reached.valid reached.current bytes,
    (feedAll_options d bytes).trans reached.options⟩

theorem Valid.resumed (valid : d.Valid) : d.resumed.Valid := by
  rcases d.resumed_cases with ⟨-, -, same⟩ | ⟨s, idle, cached, -, same⟩ | ⟨-, same⟩
  · rwa [same]
  · rw [same]
    exact reopen_valid valid idle (valid.repeatable s cached)
  · rwa [same]

/-- The phase in which bytes are held. -/
def phaseOf : List UInt8 → Phase
  | [] => .idle
  | s :: data =>
    match lengthOf s with
    | .two => .secondOfTwo
    | .three => if data.isEmpty then .secondOfThree else .thirdOfThree
    | _ => .inSysEx

theorem Opened.phase_eq {limit : Nat} {phase : Phase} {held : List UInt8} {cut : Bool}
    (opened : Opened limit phase held cut) : phase = phaseOf held := by
  cases opened with
  | idle => rfl
  | secondOfTwo length => simp [phaseOf, length]
  | secondOfThree length => simp [phaseOf, length]
  | thirdOfThree length => simp [phaseOf, length]
  | run => rfl

/-- With running status on, the part that is held says what would be repeated. -/
theorem Reached.repeatable_eq (reached : Reached options d)
    (running : d.options.runningStatus = true) :
    d.repeatable = d.resumed.held.head?.bind repeatsAfter := by
  rcases d.resumed_cases with ⟨idle, alone, same⟩ | ⟨s, idle, cached, -, same⟩ | ⟨opened, same⟩
  · rw [same, (reached.valid.idle idle).held]
    exact alone.resolve_right (ne_false_of_eq_true running)
  · rw [same, cached]
    exact (if_pos (reached.valid.repeatable s cached)).symm
  · rw [same]
    cases held : d.held with
    | nil =>
      have phase := reached.valid.opened.phase_eq
      rw [held] at phase
      exact absurd phase opened
    | cons s data => exact reached.current s data held

theorem twin_of_standing (reached : Reached options d) (reached' : Reached options d')
    (same : d'.standing = d.standing) : Twin d d' := by
  obtain ⟨held, cut⟩ := Prod.mk.inj same
  have options : d'.options = d.options := reached'.options.trans reached.options.symm
  have running := congrArg Options.runningStatus options
  refine ⟨⟨?_, ?_, held, cut⟩, running, fun on => ?_⟩
  · rw [resumed_options, resumed_options, options]
  · rw [reached.valid.resumed.opened.phase_eq, reached'.valid.resumed.opened.phase_eq, held]
  · rw [reached.repeatable_eq on, reached'.repeatable_eq (running.trans on), held]

theorem Twin.standing (twin : Twin d d') : d'.standing = d.standing :=
  Prod.ext twin.alike.held twin.alike.cut

/-- What a decoder goes on from, by what it gives for the end of a run and for data bytes. -/
def readBack (messages : List UInt8 → List Message) : List UInt8 × Bool :=
  match messages [sysExEnd], messages [0], messages [0, 0] with
  | [.sysEx x], _, _ => (x.data.dropLast, x.truncated)
  | _, [m], _ => (m.encode.dropLast, false)
  | _, _, [m] => (m.encode.take 1, false)
  | _, _, _ => ([], false)

theorem feed_sysExEnd (d : Decoder) :
    (d.feed sysExEnd).2 =
      if d.resumed.phase = .inSysEx then
        some (.sysEx { data := d.resumed.held ++ [sysExEnd], truncated := d.resumed.cut })
      else none := by
  by_cases inside : d.phase = .inSysEx
  · rw [if_pos (resumed_inSysEx.mpr inside), feed_closes_run inside,
      resumed_of_open (by simp [inside])]
    rfl
  · rw [if_neg (mt resumed_inSysEx.mp inside), feed_closes_stray inside]

theorem Opened.whole {limit : Nat} {phase : Phase} {held : List UInt8} {cut : Bool}
    (opened : Opened limit phase held cut) (outside : phase ≠ .inSysEx) : cut = false := by
  cases opened with
  | run => exact absurd rfl outside
  | _ => rfl

theorem readBack_standing (valid : d.Valid) :
    readBack (fun more => (d.feedAll more).2) = d.standing := by
  have low : (0 : UInt8) < 0x80 := by decide
  have first : d.feed 0 = d.resumed.feed 0 := feed_eq_resumed low
  have ends : (d.feedAll [sysExEnd]).2 = (d.feed sysExEnd).2.toList := List.append_nil _
  have one : (d.feedAll [0]).2 = (d.resumed.feed 0).2.toList := by
    rw [← first]
    exact List.append_nil _
  have two : (d.feedAll [0, 0]).2 =
      (d.resumed.feed 0).2.toList ++ (((d.resumed.feed 0).1.feed 0).2.toList ++ []) := by
    rw [← first]
    rfl
  rw [feed_sysExEnd] at ends
  unfold readBack standing
  dsimp only
  rw [ends, one, two]
  cases phase : d.resumed.phase with
  | inSysEx =>
    rw [if_pos rfl]
    change ((d.resumed.held ++ [sysExEnd]).dropLast, d.resumed.cut) = _
    rw [List.dropLast_concat]
  | idle =>
    have idle := valid.resumed.idle phase
    have alone := resumed_alone phase
    rw [feed_stray low phase alone]
    dsimp only
    rw [feed_stray (d := d.resumed.reject) low phase alone, idle.held, idle.cut]
    rfl
  | secondOfTwo =>
    obtain ⟨s, m, held, -, spells, fed⟩ := valid.resumed.feed_secondOfTwo low phase
    rw [fed, held, valid.resumed.opened.whole (by simp [phase])]
    change (m.encode.dropLast, false) = _
    rw [spells.2.2.2]
    rfl
  | thirdOfThree =>
    obtain ⟨s, a, m, held, -, spells, fed⟩ := valid.resumed.feed_thirdOfThree low phase
    rw [fed, held, valid.resumed.opened.whole (by simp [phase])]
    change (m.encode.dropLast, false) = _
    rw [spells.2.2.2]
    rfl
  | secondOfThree =>
    obtain ⟨s, held, length⟩ := valid.resumed.held_secondOfThree phase
    obtain ⟨m, spells⟩ := Message.exists_of_three length low low
    have fed := feed_secondOfThree low phase
    rw [held] at fed
    rw [fed, held, valid.resumed.opened.whole (by simp [phase])]
    dsimp only
    rw [feed_thirdOfThree low rfl rfl spells.1]
    change (m.encode.take 1, false) = _
    rw [spells.2.2.2]
    rfl

/-- Two decoders give the same messages for ever exactly if they go on from the same part. -/
theorem reads_alike_iff (reached : Reached options d) (reached' : Reached options d') :
    (∀ more, (d'.feedAll more).2 = (d.feedAll more).2) ↔ d'.standing = d.standing := by
  refine ⟨fun alike => ?_, fun same more => ?_⟩
  · rw [← readBack_standing reached.valid, ← readBack_standing reached'.valid]
    exact congrArg readBack (funext alike)
  · exact ((twin_of_standing reached reached' same).feedAll more).2

end Decoder

end MidiPatch
