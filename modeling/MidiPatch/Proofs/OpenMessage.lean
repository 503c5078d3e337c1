import MidiPatch.Proofs.Decoding

/-!
# What a decoder holds

The bytes a decoder holds are the beginning of a message of the right length, and a run it holds
leaves room for its end. So every message a decoder gives out is well-formed and within its limit.
-/

namespace MidiPatch

open Wire

namespace Decoder

/-- The bytes and the mark that a decoder may hold in each phase. -/
inductive Opened (limit : Nat) : Phase → List UInt8 → Bool → Prop
  | idle : Opened limit .idle [] false
  | secondOfTwo {s : UInt8} (length : lengthOf s = .two) : Opened limit .secondOfTwo [s] false
  | secondOfThree {s : UInt8} (length : lengthOf s = .three) : Opened limit .secondOfThree [s] false
  | thirdOfThree {s a : UInt8} (length : lengthOf s = .three) (low : a < 0x80) :
      Opened limit .thirdOfThree [s, a] false
  | run {body : List UInt8} {cut : Bool} (data : ∀ b ∈ body, b < 0x80)
      (fits : body.length ≤ limit - 2) (full : cut = true → body.length = limit - 2) :
      Opened limit .inSysEx (sysExBegin :: body) cut

structure Valid (d : Decoder) : Prop where
  room : 2 ≤ d.options.maxSysEx
  opened : Opened d.options.maxSysEx d.phase d.held d.cut
  repeatable : ∀ s, d.repeatable = some s → isChannelStatus s = true

theorem valid_new (options : Options) : (new options).Valid :=
  ⟨Nat.le_max_left .., .idle, nofun⟩

theorem Valid.idle {d : Decoder} (valid : d.Valid) (phase : d.phase = .idle) : d.Idle := by
  obtain ⟨options, phase, held, cut, repeatable, counters⟩ := d
  obtain ⟨-, opened, -⟩ := valid
  subst phase
  cases opened
  exact ⟨rfl, rfl, rfl⟩

theorem repeatsAfter_channel {s t : UInt8} (h : repeatsAfter s = some t) :
    t = s ∧ isChannelStatus t = true := by
  unfold repeatsAfter at h
  split at h
  · rename_i channel
    obtain rfl := Option.some.inj h
    exact ⟨rfl, channel⟩
  · exact nomatch h

/-! ### Data bytes of an open message -/

theorem Valid.feed_secondOfTwo {d : Decoder} {b : UInt8} (valid : d.Valid) (data : b < 0x80)
    (phase : d.phase = .secondOfTwo) :
    ∃ s m, d.held = [s] ∧ lengthOf s = .two ∧ m.Spells s [b] ∧ d.feed b = d.close.complete m := by
  have same : ∃ s, d.held = [s] ∧ lengthOf s = .two := by
    obtain ⟨options, _, held, cut, repeatable, counters⟩ := d
    obtain ⟨-, opened, -⟩ := valid
    subst phase
    cases opened with
    | @secondOfTwo s length => exact ⟨s, rfl, length⟩
  obtain ⟨s, held, length⟩ := same
  obtain ⟨m, spells⟩ := Message.exists_of_two length data
  exact ⟨s, m, held, length, spells, Decoder.feed_secondOfTwo data phase held spells.1⟩

theorem Valid.feed_thirdOfThree {d : Decoder} {b : UInt8} (valid : d.Valid) (data : b < 0x80)
    (phase : d.phase = .thirdOfThree) :
    ∃ s a m, d.held = [s, a] ∧ lengthOf s = .three ∧ m.Spells s [a, b] ∧
      d.feed b = d.close.complete m := by
  have same : ∃ s a, d.held = [s, a] ∧ lengthOf s = .three ∧ a < 0x80 := by
    obtain ⟨options, _, held, cut, repeatable, counters⟩ := d
    obtain ⟨-, opened, -⟩ := valid
    subst phase
    cases opened with
    | @thirdOfThree s a length low => exact ⟨s, a, rfl, length, low⟩
  obtain ⟨s, a, held, length, low⟩ := same
  obtain ⟨m, spells⟩ := Message.exists_of_three length low data
  exact ⟨s, a, m, held, length, spells, Decoder.feed_thirdOfThree data phase held spells.1⟩

/-- A run only grows, or loses what it has no room for. -/
theorem feed_inSysEx {d : Decoder} {b : UInt8} (data : b < 0x80) (phase : d.phase = .inSysEx) :
    (d.feed b).2 = none ∧ (d.feed b).1.phase = .inSysEx ∧
      (d.feed b).1.repeatable = d.repeatable := by
  rw [feed_open data (by simp [phase]), extend]
  simp only [phase]
  split
  · exact ⟨rfl, rfl, rfl⟩
  · split
    · exact ⟨rfl, phase, rfl⟩
    · exact ⟨rfl, rfl, rfl⟩

theorem feed_repeat_two {d : Decoder} {s b : UInt8} (data : b < 0x80) (idle : d.Idle)
    (cached : d.repeatable = some s) (running : d.options.runningStatus = true)
    (length : lengthOf s = .two) : ∃ m, m.Spells s [b] ∧ d.feed b = d.complete m := by
  obtain ⟨m, spells⟩ := Message.exists_of_two length data
  refine ⟨m, spells, ?_⟩
  rw [feed_repeat data idle.phase cached running,
    Decoder.feed_secondOfTwo data (by simp [reopen, length]) rfl spells.1]
  simp [reopen, close, complete, idle.phase, idle.held, idle.cut]

theorem feed_repeat_three {d : Decoder} {s b : UInt8} (data : b < 0x80) (idle : d.phase = .idle)
    (cached : d.repeatable = some s) (running : d.options.runningStatus = true)
    (length : lengthOf s = .three) :
    d.feed b = ({ d with phase := .thirdOfThree, held := [s, b] }, none) := by
  rw [feed_repeat data idle cached running, feed_secondOfThree data (by simp [reopen, length])]
  rfl

/-! ### What is given out -/

/-- A message within the limit of the decoder that gives it out. -/
def Sound (limit : Nat) (m : Message) : Prop := m.WellFormed ∧ m.runLength ≤ limit

theorem sound_of_spells {m : Message} {s : UInt8} {data : List UInt8} (limit : Nat)
    (spells : m.Spells s data) (fixed : lengthOf s ≠ .undefined) : Sound limit m := by
  refine ⟨spells.2.1, ?_⟩
  cases m with
  | sysEx x => exact absurd (by rw [← spells.2.2.1]; rfl) fixed
  | _ => exact Nat.zero_le _

theorem sound_none (limit : Nat) (m : Message) : none = some m → Sound limit m := nofun

theorem reopen_valid {d : Decoder} {s : UInt8} (valid : d.Valid) (phase : d.phase = .idle)
    (channel : isChannelStatus s = true) : (d.reopen s).Valid := by
  have clear := (valid.idle phase).cut
  rcases length_of_channel s channel with two | three
  · have opened : Opened d.options.maxSysEx .secondOfTwo [s] false := .secondOfTwo two
    rw [← clear] at opened
    simp only [reopen, two, if_true]
    exact ⟨valid.room, opened, valid.repeatable⟩
  · have opened : Opened d.options.maxSysEx .secondOfThree [s] false := .secondOfThree three
    rw [← clear] at opened
    simp only [reopen, three, reduceCtorEq, if_false]
    exact ⟨valid.room, opened, valid.repeatable⟩

theorem extend_valid {d : Decoder} {b : UInt8} (valid : d.Valid) (data : b < 0x80) :
    (d.extend b).1.Valid ∧ ∀ m, (d.extend b).2 = some m → Sound d.options.maxSysEx m := by
  obtain ⟨options, phase, held, cut, repeatable, counters⟩ := d
  obtain ⟨(room : 2 ≤ options.maxSysEx), (opened : Opened options.maxSysEx phase held cut),
    cached⟩ := valid
  cases opened with
  | idle => exact ⟨⟨room, .idle, cached⟩, sound_none _⟩
  | @secondOfTwo s length =>
    obtain ⟨m, spells⟩ := Message.exists_of_two length data
    simp only [extend, List.cons_append, List.nil_append, finish_of_read spells.1]
    refine ⟨⟨room, .idle, cached⟩, ?_⟩
    rintro _ ⟨⟩
    exact sound_of_spells _ spells (by simp [length])
  | secondOfThree length => exact ⟨⟨room, .thirdOfThree length data, cached⟩, sound_none _⟩
  | @thirdOfThree s a length low =>
    obtain ⟨m, spells⟩ := Message.exists_of_three length low data
    simp only [extend, List.cons_append, List.nil_append, finish_of_read spells.1]
    refine ⟨⟨room, .idle, cached⟩, ?_⟩
    rintro _ ⟨⟩
    exact sound_of_spells _ spells (by simp [length])
  | @run body _ body_data fits full =>
    have more : ∀ c ∈ body ++ [b], c < 0x80 := by
      intro c member
      rcases List.mem_append.mp member with old | new
      · exact body_data c old
      · rw [List.mem_singleton.mp new]; exact data
    simp only [extend, List.length_cons, List.cons_append]
    split
    · rename_i space
      -- A run that was cut is full, so one with space left was not.
      have open_cut : cut = false := by
        cases cut with
        | false => rfl
        | true => have := full rfl; omega
      refine ⟨⟨room, .run more ?_ (by simp [open_cut]), cached⟩, sound_none _⟩
      rw [List.length_append, List.length_singleton]
      change body.length + 1 ≤ options.maxSysEx - 2
      omega
    · split
      · exact ⟨⟨room, .run body_data fits full, cached⟩, sound_none _⟩
      · refine ⟨⟨room, .run body_data fits ?_, cached⟩, sound_none _⟩
        intro _
        change body.length = options.maxSysEx - 2
        omega

theorem capture_valid {d : Decoder} {body : List UInt8} (valid : d.Valid)
    (data : ∀ b ∈ body, b < 0x80) : (d.capture body).Valid := by
  refine ⟨valid.room, .run (fun b member => data b (List.mem_of_mem_take member)) ?_ ?_,
    valid.repeatable⟩
  · exact List.length_take_le ..
  · intro cut
    have long : d.options.maxSysEx - 2 < body.length := of_decide_eq_true cut
    rw [List.length_take]
    exact Nat.min_eq_left (Nat.le_of_lt long)

theorem finishSysEx_sound {d : Decoder} (valid : d.Valid) (inside : d.phase = .inSysEx) :
    Sound d.options.maxSysEx (.sysEx { data := d.held ++ [sysExEnd], truncated := d.cut }) := by
  obtain ⟨options, phase, held, cut, repeatable, counters⟩ := d
  obtain ⟨(room : 2 ≤ options.maxSysEx), (opened : Opened options.maxSysEx phase held cut), -⟩ :=
    valid
  subst inside
  cases opened with
  | @run body _ data fits full =>
    refine ⟨SysEx.wellFormed_delimited cut data, ?_⟩
    change (sysExBegin :: body ++ [sysExEnd]).length ≤ options.maxSysEx
    rw [List.length_append, List.length_cons, List.length_singleton]
    omega

/-- One byte keeps the decoder valid, and a message it completes is well-formed. -/
theorem feed_valid {d : Decoder} (valid : d.Valid) (b : UInt8) :
    (d.feed b).1.Valid ∧ ∀ m, (d.feed b).2 = some m → Sound d.options.maxSysEx m := by
  cases byteClass b with
  | data low =>
    by_cases phase : d.phase = .idle
    · by_cases off : d.repeatable = none ∨ d.options.runningStatus = false
      · rw [feed_stray low phase off]
        exact ⟨⟨valid.room, valid.opened, valid.repeatable⟩, nofun⟩
      · rw [not_or, Bool.not_eq_false] at off
        obtain ⟨s, cached⟩ := Option.ne_none_iff_exists'.mp off.1
        have again := reopen_valid valid phase (valid.repeatable s cached)
        rw [feed_repeat low phase cached off.2, feed_open low (reopen_phase d s)]
        exact extend_valid again low
    · rw [feed_open low phase]
      exact extend_valid valid low
  | two length =>
    rw [feed_two d length, abort_eq]
    exact ⟨⟨valid.room, .secondOfTwo length, fun _ h => (repeatsAfter_channel h).2⟩, nofun⟩
  | three length =>
    rw [feed_three d length, abort_eq]
    exact ⟨⟨valid.room, .secondOfThree length, fun _ h => (repeatsAfter_channel h).2⟩, nofun⟩
  | tune =>
    rw [feed_tune, abort_eq]
    refine ⟨⟨valid.room, .idle, nofun⟩, ?_⟩
    rintro _ ⟨⟩
    exact ⟨trivial, Nat.zero_le _⟩
  | opens =>
    rw [feed_opens, abort_eq]
    exact ⟨capture_valid ⟨valid.room, .idle, nofun⟩ nofun, nofun⟩
  | closes =>
    by_cases inside : d.phase = .inSysEx
    · rw [feed_closes_run inside]
      refine ⟨⟨valid.room, .idle, valid.repeatable⟩, ?_⟩
      rintro _ ⟨⟩
      exact finishSysEx_sound valid inside
    · rw [feed_closes_stray inside, abort_eq]
      exact ⟨⟨valid.room, .idle, nofun⟩, nofun⟩
  | undefined unused =>
    rw [feed_unused d unused, abort_eq]
    exact ⟨⟨valid.room, .idle, nofun⟩, nofun⟩
  | realtime k =>
    rw [feed_realtime]
    refine ⟨⟨valid.room, valid.opened, valid.repeatable⟩, ?_⟩
    rintro _ ⟨⟩
    exact ⟨trivial, Nat.zero_le _⟩

theorem feedAll_valid {d : Decoder} (valid : d.Valid) (bytes : List UInt8) :
    (d.feedAll bytes).1.Valid ∧ ∀ m ∈ (d.feedAll bytes).2, Sound d.options.maxSysEx m := by
  induction bytes generalizing d with
  | nil => exact ⟨valid, nofun⟩
  | cons b rest ih =>
    obtain ⟨first, sound⟩ := feed_valid valid b
    obtain ⟨last, later⟩ := ih first
    rw [feedAll_cons]
    refine ⟨last, ?_⟩
    intro m member
    rcases List.mem_append.mp member with now | after
    · exact sound m (Option.mem_toList.mp now)
    · have bound := later m after
      rwa [feed_options] at bound

/-! ### What a data byte does -/

theorem Valid.held_secondOfThree {d : Decoder} (valid : d.Valid)
    (phase : d.phase = .secondOfThree) : ∃ s, d.held = [s] ∧ lengthOf s = .three := by
  have held := valid.opened
  rw [phase] at held
  generalize d.held = bytes, d.cut = cut at held
  cases held with
  | @secondOfThree s length => exact ⟨s, rfl, length⟩

theorem Valid.held_inSysEx {d : Decoder} (valid : d.Valid) (phase : d.phase = .inSysEx) :
    ∃ body, d.held = sysExBegin :: body := by
  have held := valid.opened
  rw [phase] at held
  generalize d.held = bytes, d.cut = cut at held
  cases held with
  | @run body => exact ⟨body, rfl⟩

/-- What a data byte makes of a decoder, by the message that was open. -/
inductive TakesData (d : Decoder) (b : UInt8) : Decoder × Option Message → Prop
  | stray (idle : d.phase = .idle) (alone : d.repeatable = none ∨ d.options.runningStatus = false) :
      TakesData d b (d.reject, none)
  | repeatsTwo {s : UInt8} {m : Message} (idle : d.phase = .idle) (cached : d.repeatable = some s)
      (length : lengthOf s = .two) (spells : m.Spells s [b]) : TakesData d b (d.complete m)
  | repeatsThree {s : UInt8} (idle : d.phase = .idle) (cached : d.repeatable = some s)
      (length : lengthOf s = .three) :
      TakesData d b ({ d with phase := .thirdOfThree, held := [s, b] }, none)
  | two {s : UInt8} {m : Message} (held : d.held = [s]) (length : lengthOf s = .two)
      (spells : m.Spells s [b]) : TakesData d b (d.close.complete m)
  | half {s : UInt8} (held : d.held = [s]) (length : lengthOf s = .three) :
      TakesData d b ({ d with phase := .thirdOfThree, held := [s, b] }, none)
  | three {s a : UInt8} {m : Message} (held : d.held = [s, a]) (length : lengthOf s = .three)
      (spells : m.Spells s [a, b]) : TakesData d b (d.close.complete m)
  | run {e : Decoder} {body body' : List UInt8} (held : d.held = sysExBegin :: body)
      (next : e.held = sysExBegin :: body') (cached : e.repeatable = d.repeatable) :
      TakesData d b (e, none)

theorem Valid.takesData {d : Decoder} {b : UInt8} (valid : d.Valid) (low : b < 0x80) :
    TakesData d b (d.feed b) := by
  cases phase : d.phase with
  | idle =>
    by_cases alone : d.repeatable = none ∨ d.options.runningStatus = false
    · rw [feed_stray low phase alone]
      exact .stray phase alone
    · rw [not_or, Bool.not_eq_false] at alone
      obtain ⟨s, cached⟩ := Option.ne_none_iff_exists'.mp alone.1
      rcases length_of_channel s (valid.repeatable s cached) with two | three
      · obtain ⟨m, spells, fed⟩ := feed_repeat_two low (valid.idle phase) cached alone.2 two
        rw [fed]
        exact .repeatsTwo phase cached two spells
      · rw [feed_repeat_three low phase cached alone.2 three]
        exact .repeatsThree phase cached three
  | secondOfTwo =>
    obtain ⟨s, m, held, length, spells, fed⟩ := valid.feed_secondOfTwo low phase
    rw [fed]
    exact .two held length spells
  | secondOfThree =>
    obtain ⟨s, held, length⟩ := valid.held_secondOfThree phase
    rw [feed_secondOfThree low phase, held]
    exact .half held length
  | thirdOfThree =>
    obtain ⟨s, a, m, held, length, spells, fed⟩ := valid.feed_thirdOfThree low phase
    rw [fed]
    exact .three held length spells
  | inSysEx =>
    obtain ⟨body, held⟩ := valid.held_inSysEx phase
    rw [feed_open low (by simp [phase]), extend]
    simp only [phase]
    split
    · exact .run held (by rw [held]; rfl) rfl
    · split
      · exact .run held held rfl
      · exact .run held held rfl

/-! ### The status of the open message -/

/-- A data byte would repeat the status of the message that is open. -/
def Current (d : Decoder) : Prop :=
  ∀ s rest, d.held = s :: rest → d.repeatable = repeatsAfter s

theorem current_of_none {d : Decoder} (held : d.held = []) : d.Current := by
  intro s rest some
  rw [held] at some
  exact nomatch some

theorem current_of_status {d : Decoder} {s : UInt8} {data : List UInt8} (held : d.held = s :: data)
    (cached : d.repeatable = repeatsAfter s) : d.Current := by
  intro s' rest same
  rw [held] at same
  obtain ⟨rfl, -⟩ := List.cons.inj same
  exact cached

theorem feed_data_current {d : Decoder} {b : UInt8} (valid : d.Valid) (current : d.Current)
    (low : b < 0x80) : (d.feed b).1.Current := by
  have fed := valid.takesData low
  generalize d.feed b = step at fed
  cases fed with
  | stray => exact current
  | repeatsTwo => exact current
  | repeatsThree idle cached length =>
    exact current_of_status rfl (cached.trans (if_pos (valid.repeatable _ cached)).symm)
  | two => exact current_of_none rfl
  | half held length => exact current_of_status rfl (current _ _ held)
  | three => exact current_of_none rfl
  | run held next cached => exact current_of_status next (cached.trans (current _ _ held))

theorem feed_current {d : Decoder} (valid : d.Valid) (current : d.Current) (b : UInt8) :
    (d.feed b).1.Current := by
  cases byteClass b with
  | data low => exact feed_data_current valid current low
  | two length =>
    rw [feed_two d length]
    exact current_of_status rfl rfl
  | three length =>
    rw [feed_three d length]
    exact current_of_status rfl rfl
  | tune =>
    rw [feed_tune]
    exact current_of_none (abort_held d)
  | opens =>
    rw [feed_opens]
    exact current_of_status rfl rfl
  | closes =>
    by_cases inside : d.phase = .inSysEx
    · rw [feed_closes_run inside]
      exact current_of_none rfl
    · rw [feed_closes_stray inside]
      exact current_of_none (abort_held d)
  | undefined unused =>
    rw [feed_unused d unused]
    exact current_of_none (abort_held d)
  | realtime k =>
    rw [feed_realtime]
    exact current

theorem feedAll_current {d : Decoder} (valid : d.Valid) (current : d.Current)
    (bytes : List UInt8) : (d.feedAll bytes).1.Current := by
  induction bytes generalizing d with
  | nil => exact current
  | cons b rest ih => exact ih (feed_valid valid b).1 (feed_current valid current b)

end Decoder

end MidiPatch
