import MidiPatch.Proofs.Hearing

/-!
# A raw source that leaves out status bytes

A raw source may leave out the status byte of a message that has the same one as the message before.
`running_source_heard_iff` says when a decoder behind a shared outlet still reads the source's
messages from the source's bytes: whenever the source leaves a status byte out, the last status that
anyone put on the wire must be the source's own.
-/

namespace MidiPatch

open Wire

/-- The bytes of messages, each status byte left out that repeats the one before. -/
def abbreviate (last : Option UInt8) : List Message → List UInt8
  | [] => []
  | m :: rest =>
    (if last = some m.status then m.encode.drop 1 else m.encode) ++ abbreviate (some m.status) rest

/-- Where a source of three-byte messages stands. -/
inductive Place
  | between
  | opened
  | half
  deriving DecidableEq, Repr

/--
Whenever the source leaves out a status byte, the last status of any message offered, `recent`, is
the source's `own`. Realtime messages leave no status behind.
-/
def Keeps : Place → Option UInt8 → Option UInt8 → List Offer → Prop
  | _, _, _, [] => True
  | place, own, recent, .whole m :: rest =>
    Keeps place own (if m.isRealtime then recent else some m.status) rest
  | place, own, recent, .raw b :: rest =>
    if isStatus b then Keeps .opened (some b) (some b) rest
    else
      match place with
      | .between => recent = own ∧ Keeps .half own recent rest
      | .opened => Keeps .half own recent rest
      | .half => Keeps .between own recent rest

instance decidableKeeps : (place : Place) → (own recent : Option UInt8) → (offers : List Offer) →
    Decidable (Keeps place own recent offers)
  | _, _, _, [] => isTrue trivial
  | place, own, recent, .whole m :: rest =>
    decidableKeeps place own (if m.isRealtime then recent else some m.status) rest
  | .between, own, recent, .raw b :: rest =>
    have := decidableKeeps .opened (some b) (some b) rest
    have := decidableKeeps .half own recent rest
    inferInstanceAs (Decidable (if isStatus b then Keeps .opened (some b) (some b) rest
      else recent = own ∧ Keeps .half own recent rest))
  | .opened, own, recent, .raw b :: rest =>
    have := decidableKeeps .opened (some b) (some b) rest
    have := decidableKeeps .half own recent rest
    inferInstanceAs (Decidable (if isStatus b then Keeps .opened (some b) (some b) rest
      else Keeps .half own recent rest))
  | .half, own, recent, .raw b :: rest =>
    have := decidableKeeps .opened (some b) (some b) rest
    have := decidableKeeps .between own recent rest
    inferInstanceAs (Decidable (if isStatus b then Keeps .opened (some b) (some b) rest
      else Keeps .between own recent rest))

/-! ### The source -/

structure ThreeByte (m : Message) : Prop where
  wellFormed : m.WellFormed
  channel : isChannelStatus m.status = true
  length : lengthOf m.status = .three

theorem ThreeByte.spelled {m : Message} (three : ThreeByte m) :
    ∃ a b, a < 0x80 ∧ b < 0x80 ∧ m.encode = [m.status, a, b] ∧
      Message.ofBytes? [m.status, a, b] = some m := by
  obtain ⟨wf, channel, length⟩ := three
  have shape := wf.onWire
  generalize m.encode = bytes at shape
  cases shape with
  | realtime k => cases k <;> exact absurd channel (by decide)
  | tune => exact absurd channel (by decide)
  | run cut data => exact absurd (show isChannelStatus sysExBegin = true from channel) (by decide)
  | two status two data read => rw [status, two] at length; exact nomatch length
  | three status length low high read =>
    subst status
    exact ⟨_, _, low, high, rfl, read⟩

theorem abbreviate_weighs {source : List Message} (last : Option UInt8)
    (three : ∀ m ∈ source, ThreeByte m) :
    (abbreviate last source).countP isData = 2 * source.length := by
  induction source generalizing last with
  | nil => rfl
  | cons m rest ih =>
    obtain ⟨now, later⟩ := List.forall_mem_cons.mp three
    obtain ⟨a, b, low, high, encoded, -⟩ := now.spelled
    have status := isStatus_of_le (status_of_channel m.status now.channel).1
    have own : (if last = some m.status then m.encode.drop 1 else m.encode).countP isData = 2 := by
      rw [encoded]
      split <;> simp [isData, status, isStatus_of_lt low, isStatus_of_lt high]
    rw [abbreviate, List.countP_append, own, ih (some m.status) later, List.length_cons]
    omega

/-- The status that a decoder is left with after messages that follow a given one. -/
def lastStatus (s : UInt8) (ms : List Message) : UInt8 := ms.foldl (fun _ m => m.status) s

theorem foldl_took_repeatable {d : Decoder} {s : UInt8} {ms : List Message}
    (cached : d.repeatable = Decoder.repeatsAfter s) (plain : ∀ m ∈ ms, m.isRealtime = false) :
    (ms.foldl Decoder.took d).repeatable = Decoder.repeatsAfter (lastStatus s ms) := by
  induction ms generalizing d s with
  | nil => exact cached
  | cons m rest ih =>
    obtain ⟨now, later⟩ := List.forall_mem_cons.mp plain
    exact ih (Decoder.took_repeatable d now) later

/--
A decoder that has followed the source so far: the bytes it will yet get from the source, and the
messages they are.
-/
inductive Reading {ο : Type} (o : Outlet ο) (d : Decoder) :
    Place → Option UInt8 → Option UInt8 → List UInt8 → List Message → Prop
  | between {own recent : Option UInt8} {source : List Message} (safe : o.isSafe = true)
      (cached : d.repeatable = recent.bind Decoder.repeatsAfter) :
      Reading o d .between own recent (abbreviate own source) source
  | opened {recent : Option UInt8} {m : Message} {a b : UInt8} {source : List Message}
      (low : a < 0x80) (high : b < 0x80) (read : Message.ofBytes? [m.status, a, b] = some m)
      (phase : d.phase = .secondOfThree) (held : d.held = [m.status])
      (cached : d.repeatable = Decoder.repeatsAfter m.status)
      (last : recent = some (lastStatus m.status o.pending)) :
      Reading o d .opened (some m.status) recent (a :: b :: abbreviate (some m.status) source)
        (m :: source)
  | half {recent : Option UInt8} {m : Message} {a b : UInt8} {source : List Message}
      (high : b < 0x80) (read : Message.ofBytes? [m.status, a, b] = some m)
      (phase : d.phase = .thirdOfThree) (held : d.held = [m.status, a])
      (cached : d.repeatable = Decoder.repeatsAfter m.status)
      (last : recent = some (lastStatus m.status o.pending)) :
      Reading o d .half (some m.status) recent (b :: abbreviate (some m.status) source)
        (m :: source)

section Following

variable {ο : Type} [ByteOutput ο] [Recording ο] [Accepting ο] {o : Outlet ο} {d : Decoder}
  {place : Place} {own recent : Option UInt8} {raw : List UInt8} {source : List Message}

/-- A whole message changes what is left to repeat, now or when it gets its turn. -/
theorem Reading.whole {m : Message} (reading : Reading o d place own recent raw source)
    (live : Live o d) (wf : m.WellFormed) (rest : List Offer) :
    ∃ (o' : Outlet ο) (d' : Decoder), Live o' d' ∧
      heardRaw o d (.whole m :: rest) = heardRaw o' d' rest ∧
      Reading o' d' place own (if m.isRealtime then recent else some m.status) raw source := by
  cases plain : m.isRealtime with
  | true =>
    cases m with
    | realtime k =>
      obtain ⟨live', same, pending, heard⟩ := live.realtime k rest
      refine ⟨_, _, live', heard, ?_⟩
      cases reading with
      | between safe cached => exact .between (same.trans safe) cached
      | opened low high read phase held cached last =>
        exact .opened low high read phase held cached (pending ▸ last)
      | half high read phase held cached last =>
        exact .half high read phase held cached (pending ▸ last)
    | _ => exact nomatch plain
  | false =>
    have turn : ∀ s, lastStatus s (o.pending ++ [m]) = m.status := fun s => by
      rw [lastStatus, List.foldl_append]; rfl
    cases reading with
    | between safe cached =>
      obtain ⟨live', safe', heard⟩ := live.goes safe wf plain rest
      exact ⟨_, _, live', heard, .between safe' (Decoder.took_repeatable d plain)⟩
    | opened low high read phase held cached last =>
      have inside := live.mid_message (by rw [phase]; exact nofun)
      obtain ⟨live', pending, heard⟩ := live.waits inside wf plain rest
      refine ⟨_, d, live', heard, .opened low high read phase held cached ?_⟩
      rw [pending, turn]; rfl
    | half high read phase held cached last =>
      have inside := live.mid_message (by rw [phase]; exact nofun)
      obtain ⟨live', pending, heard⟩ := live.waits inside wf plain rest
      refine ⟨_, d, live', heard, .half high read phase held cached ?_⟩
      rw [pending, turn]; rfl

/-- The first byte of a message that is read with another status costs the source that message. -/
theorem not_heard {m : Message} {a b : UInt8} {offers : List Offer} (live : Live o d)
    (wf : ∀ m ∈ Offer.messages offers, m.WellFormed) (safe : o.isSafe = true)
    (cached : d.repeatable = recent.bind Decoder.repeatsAfter) (other : recent ≠ some m.status)
    (three : ∀ m' ∈ m :: source, ThreeByte m') (low : a < 0x80) (high : b < 0x80)
    (raw : Offer.rawBytes offers = b :: abbreviate (some m.status) source) :
    heardRaw o d (.raw a :: offers) ≠ m :: source := by
  intro heard
  have idle := (live.idle safe).phase
  obtain ⟨now, later⟩ := List.forall_mem_cons.mp three
  cases repeatable : d.repeatable with
  | none =>
    -- The byte is lost, and too few are left for all the messages.
    obtain ⟨o', d', live', no_further, next⟩ := live.raw a offers
    rw [Decoder.feed_stray low idle (.inl repeatable)] at next no_further
    have none_held : halfway (d.reject, (none : Option Message)).1 = 0 := halfway_of_idle idle
    rw [none_held] at no_further
    have enough := heardRaw_weighs live' wf
    have all : (heardRaw o' d' offers).countP isThree = source.length + 1 := by
      have same : heardRaw o' d' offers = m :: source := next.symm.trans heard
      rw [same, ← List.length_cons, List.countP_eq_length]
      exact fun m' member => beq_iff_eq.mpr (three m' member).length
    rw [all, raw, List.countP_cons, abbreviate_weighs _ later] at enough
    have one : (if isData b = true then 1 else 0) ≤ 1 := by split <;> decide
    omega
  | some s =>
    rw [repeatable] at cached
    obtain ⟨r, rfl, kept⟩ := Option.bind_eq_some_iff.mp cached.symm
    obtain ⟨rfl, channel⟩ := Decoder.repeatsAfter_channel kept
    rcases length_of_channel s channel with two | length
    · -- The byte completes a message of two bytes.
      obtain ⟨m', spells, fed⟩ :=
        Decoder.feed_repeat_two low (live.idle safe) repeatable live.running two
      obtain ⟨o', d', -, -, next⟩ := live.raw a offers
      rw [fed, heard] at next
      obtain ⟨rfl, -⟩ := List.cons.inj next
      have length := now.length
      rw [spells.2.2.1, two] at length
      exact nomatch length
    · -- The byte goes into a message with the wrong status.
      have fed := Decoder.feed_repeat_three low idle repeatable live.running length
      have inside := live.opens (by rw [fed]; exact nofun)
      obtain ⟨live', -, next⟩ := live.raw_open inside offers
      rw [fed] at live' next
      obtain ⟨m', tail, status, first⟩ := next_heard live' wf rfl rfl raw high
      rw [heard, first] at next
      obtain ⟨rfl, -⟩ := List.cons.inj next
      exact other (congrArg some status.symm)

theorem Reading.begin {m : Message} {a b : UInt8} {offers : List Offer} (live : Live o d)
    (safe : o.isSafe = true) (three : ThreeByte m) (low : a < 0x80) (high : b < 0x80)
    (read : Message.ofBytes? [m.status, a, b] = some m) :
    ∃ (o' : Outlet ο) (d' : Decoder), Live o' d' ∧
      heardRaw o d (.raw m.status :: offers) = heardRaw o' d' offers ∧
      Reading o' d' .opened (some m.status) (some m.status)
        (a :: b :: abbreviate (some m.status) source) (m :: source) := by
  have fed := Decoder.feed_three d three.length
  have inside := live.opens (b := m.status) (by rw [fed]; exact nofun)
  obtain ⟨live', pending, heard⟩ := live.raw_open inside offers
  rw [fed] at live' heard
  refine ⟨_, _, live', heard, .opened low high read rfl rfl rfl ?_⟩
  rw [pending, live.quiet safe]; rfl

theorem Reading.again {m : Message} {a b : UInt8} {offers : List Offer} (live : Live o d)
    (safe : o.isSafe = true) (cached : d.repeatable = some m.status) (three : ThreeByte m)
    (low : a < 0x80) (high : b < 0x80) (read : Message.ofBytes? [m.status, a, b] = some m) :
    ∃ (o' : Outlet ο) (d' : Decoder), Live o' d' ∧
      heardRaw o d (.raw a :: offers) = heardRaw o' d' offers ∧
      Reading o' d' .half (some m.status) (some m.status)
        (b :: abbreviate (some m.status) source) (m :: source) := by
  have kept : Decoder.repeatsAfter m.status = some m.status := if_pos three.channel
  have fed := Decoder.feed_repeat_three low (live.idle safe).phase cached live.running three.length
  have inside := live.opens (by rw [fed]; exact nofun)
  obtain ⟨live', pending, heard⟩ := live.raw_open inside offers
  rw [fed] at live' heard
  refine ⟨_, _, live', heard, .half high read rfl rfl (cached.trans kept.symm) ?_⟩
  rw [pending, live.quiet safe]; rfl

theorem Reading.second {m : Message} {a b : UInt8} {offers : List Offer} (live : Live o d)
    (low : a < 0x80) (high : b < 0x80) (read : Message.ofBytes? [m.status, a, b] = some m)
    (phase : d.phase = .secondOfThree) (held : d.held = [m.status])
    (cached : d.repeatable = Decoder.repeatsAfter m.status)
    (last : recent = some (lastStatus m.status o.pending)) :
    ∃ (o' : Outlet ο) (d' : Decoder), Live o' d' ∧
      heardRaw o d (.raw a :: offers) = heardRaw o' d' offers ∧
      Reading o' d' .half (some m.status) recent
        (b :: abbreviate (some m.status) source) (m :: source) := by
  have fed := Decoder.feed_secondOfThree low phase
  have inside := live.opens (by rw [fed]; exact nofun)
  obtain ⟨live', pending, heard⟩ := live.raw_open inside offers
  rw [fed] at live' heard
  refine ⟨_, _, live', heard, .half high read rfl (by rw [held]; rfl) cached ?_⟩
  rw [pending]; exact last

theorem Reading.third {m : Message} {a b : UInt8} {offers : List Offer} (live : Live o d)
    (high : b < 0x80) (read : Message.ofBytes? [m.status, a, b] = some m)
    (phase : d.phase = .thirdOfThree) (held : d.held = [m.status, a])
    (cached : d.repeatable = Decoder.repeatsAfter m.status)
    (last : recent = some (lastStatus m.status o.pending)) :
    ∃ (o' : Outlet ο) (d' : Decoder), Live o' d' ∧
      heardRaw o d (.raw b :: offers) = m :: heardRaw o' d' offers ∧
      Reading o' d' .between (some m.status) recent (abbreviate (some m.status) source) source := by
  have fed := Decoder.feed_thirdOfThree high phase held read
  obtain ⟨live', safe, heard⟩ := live.raw_done (live.completes phase high) offers
  rw [fed] at live' heard
  refine ⟨_, _, live', heard, .between safe ?_⟩
  rw [last]
  exact foldl_took_repeatable cached fun m' member => (live.waiting m' member).2

/-- A raw byte takes the reading further, or a status left out is not the last one offered. -/
theorem Reading.raw_byte {b : UInt8} {offers : List Offer} (live : Live o d)
    (reading : Reading o d place own recent (b :: Offer.rawBytes offers) source)
    (three : ∀ m ∈ source, ThreeByte m) (wf : ∀ m ∈ Offer.messages offers, m.WellFormed) :
    (∃ (o' : Outlet ο) (d' : Decoder) (place' : Place) (own' recent' : Option UInt8)
        (heard source' : List Message),
      Live o' d' ∧ source = heard ++ source' ∧
      heardRaw o d (.raw b :: offers) = heard ++ heardRaw o' d' offers ∧
      Reading o' d' place' own' recent' (Offer.rawBytes offers) source' ∧
      (Keeps place own recent (.raw b :: offers) ↔ Keeps place' own' recent' offers)) ∨
    (heardRaw o d (.raw b :: offers) ≠ source ∧ ¬ Keeps place own recent (.raw b :: offers)) := by
  generalize split : b :: Offer.rawBytes offers = raw at reading
  cases reading with
  | between safe cached =>
    cases source with
    | nil => exact nomatch split
    | cons m source =>
      obtain ⟨now, -⟩ := List.forall_mem_cons.mp three
      obtain ⟨a, c, low, high, encoded, read⟩ := now.spelled
      rw [abbreviate, encoded] at split
      by_cases left_out : own = some m.status
      · rw [if_pos left_out] at split
        obtain ⟨rfl, more⟩ := List.cons.inj split
        change Offer.rawBytes offers = c :: abbreviate (some m.status) source at more
        rw [Keeps, if_neg (by rw [isStatus_of_lt low]; exact nofun)]
        by_cases same : recent = own
        · subst same
          rw [left_out] at cached
          have kept : Decoder.repeatsAfter m.status = some m.status := if_pos now.channel
          obtain ⟨o', d', live', heard, reading'⟩ :=
            Reading.again live safe (cached.trans kept) now low high read
          rw [← more] at reading'
          rw [left_out]
          exact .inl ⟨o', d', _, _, _, [], _, live', rfl, heard, reading', and_iff_right rfl⟩
        · have other : recent ≠ some m.status := fun status => same (status.trans left_out.symm)
          have lost := not_heard live wf safe cached other three low high more
          exact .inr ⟨lost, fun keeps => same keeps.1⟩
      · rw [if_neg left_out] at split
        obtain ⟨rfl, more⟩ := List.cons.inj split
        change Offer.rawBytes offers = a :: c :: abbreviate (some m.status) source at more
        have status := isStatus_of_le (status_of_channel m.status now.channel).1
        obtain ⟨o', d', live', heard, reading'⟩ := Reading.begin live safe now low high read
        rw [← more] at reading'
        rw [Keeps, if_pos status]
        exact .inl ⟨o', d', _, _, _, [], _, live', rfl, heard, reading', Iff.rfl⟩
  | opened low high read phase held cached last =>
    obtain ⟨rfl, more⟩ := List.cons.inj split
    obtain ⟨o', d', live', heard, reading'⟩ :=
      Reading.second live low high read phase held cached last
    rw [← more] at reading'
    rw [Keeps, if_neg (by rw [isStatus_of_lt low]; exact nofun)]
    exact .inl ⟨o', d', _, _, _, [], _, live', rfl, heard, reading', Iff.rfl⟩
  | @half _ m _ _ _ high read phase held cached last =>
    obtain ⟨rfl, more⟩ := List.cons.inj split
    obtain ⟨o', d', live', heard, reading'⟩ :=
      Reading.third live high read phase held cached last
    rw [← more] at reading'
    rw [Keeps, if_neg (by rw [isStatus_of_lt high]; exact nofun)]
    exact .inl ⟨o', d', _, _, _, [m], _, live', rfl, heard, reading', Iff.rfl⟩

omit [ByteOutput ο] [Recording ο] [Accepting ο] in
theorem Reading.finished (reading : Reading o d place own recent [] source)
    (three : ∀ m ∈ source, ThreeByte m) : source = [] := by
  generalize split : ([] : List UInt8) = raw at reading
  cases reading with
  | between =>
    -- Each message of the source takes data bytes, also where its status is left out.
    have weight := abbreviate_weighs own three
    rw [← split] at weight
    refine List.length_eq_zero_iff.mp ?_
    rw [List.countP_nil] at weight
    omega
  | opened => exact nomatch split
  | half => exact nomatch split

/-- The source's messages are heard just as long as the last status offered is its own. -/
theorem heardRaw_eq_iff {offers : List Offer} (live : Live o d)
    (reading : Reading o d place own recent (Offer.rawBytes offers) source)
    (three : ∀ m ∈ source, ThreeByte m) (wf : ∀ m ∈ Offer.messages offers, m.WellFormed) :
    heardRaw o d offers = source ↔ Keeps place own recent offers := by
  induction offers generalizing o d place own recent source with
  | nil =>
    rw [reading.finished three]
    exact iff_of_true rfl trivial
  | cons offer rest ih =>
    cases offer with
    | whole m =>
      obtain ⟨now, later⟩ := List.forall_mem_cons.mp wf
      obtain ⟨o', d', live', heard, reading'⟩ := reading.whole live now rest
      rw [heard]
      exact ih live' reading' three later
    | raw b =>
      rcases Reading.raw_byte live reading three wf with
        ⟨o', d', _, _, _, heard, later, live', rfl, next, reading', keeps⟩ | ⟨lost, broken⟩
      · rw [next, List.append_cancel_left_eq, keeps]
        exact ih live' reading' (fun m member => three m (List.mem_append_right _ member)) wf
      · exact iff_of_false lost broken

end Following

/--
A decoder behind a shared outlet reads the messages of a source that leaves out status bytes from
the source's bytes exactly if the last status offered is its own whenever the source leaves one out.
-/
theorem running_source_heard_iff {ο : Type} [ByteOutput ο] [Recording ο] [Accepting ο] (output : ο)
    (compress : Bool) (limit : Nat) (source : List Message) (offers : List Offer)
    (three : ∀ m ∈ source,
      m.WellFormed ∧ isChannelStatus m.status = true ∧ lengthOf m.status = .three)
    (raw : Offer.rawBytes offers = abbreviate none source)
    (wf : ∀ m ∈ Offer.messages offers, m.WellFormed) :
    let o : Outlet ο := { output := output, compress := compress }
    let d := Decoder.new { runningStatus := true, maxSysEx := limit }
    (heardRaw o d offers = source ↔ Keeps .between none none offers) ∧
      ∃ bytes, (o.serveAll offers).written = o.written ++ bytes ∧
        (heardRaw o d offers).Sublist (d.feedAll bytes).2 ∧
        (Keeps .between none none offers → source.Sublist (d.feedAll bytes).2) := by
  intro o d
  have live : Live o d := .fresh output compress limit
  have three' : ∀ m ∈ source, ThreeByte m := fun m member =>
    have ⟨wf, channel, length⟩ := three m member
    ⟨wf, channel, length⟩
  have reading : Reading o d .between none none (Offer.rawBytes offers) source := by
    rw [raw]; exact .between rfl rfl
  have heard := heardRaw_eq_iff live reading three' wf
  obtain ⟨bytes, sends, part⟩ := heardRaw_sublist o d offers
  exact ⟨heard, bytes, sends.written, part, fun keeps => heard.mpr keeps ▸ part⟩

/-- Whole messages do no harm before a status byte of the source, or if they have its status. -/
theorem running_source_heard_beside_notes :
    let source : List Message := [.noteOn 0 64 100, .noteOn 1 65 100, .noteOn 1 66 100]
    let offers : List Offer :=
      [.raw 0x90, .whole (.programChange 0 5), .raw 64, .raw 100, .raw 0x91, .raw 65, .raw 100,
        .whole (.noteOn 1 1 1), .whole (.realtime .clock), .raw 66, .raw 100]
    let o : Outlet ByteBuffer := { output := {}, compress := true }
    Offer.rawBytes offers = abbreviate none source ∧ Keeps .between none none offers ∧
      ∃ bytes, (o.serveAll offers).written = bytes ∧
        source.Sublist ((Decoder.new { runningStatus := true }).feedAll bytes).2 := by
  intro source offers o
  have raw : Offer.rawBytes offers = abbreviate none source := by decide
  have keeps : Keeps .between none none offers := by decide
  obtain ⟨-, bytes, written, -, kept⟩ :=
    running_source_heard_iff ({} : ByteBuffer) true 256 source offers (by decide) raw (by decide)
  exact ⟨raw, keeps, bytes, written, kept keeps⟩

/-- A program change between two notes takes the second one's status away. -/
theorem running_source_loses_note :
    let source : List Message := [.noteOn 0 64 100, .noteOn 0 65 100]
    let offers : List Offer :=
      [.raw 0x90, .raw 64, .raw 100, .whole (.programChange 0 5), .raw 65, .raw 100]
    let o : Outlet ByteBuffer := { output := {} }
    (∀ m ∈ source, m.WellFormed ∧ isChannelStatus m.status = true ∧ lengthOf m.status = .three) ∧
      Offer.rawBytes offers = abbreviate none source ∧
      (∀ m ∈ Offer.messages offers, m.WellFormed) ∧
      (o.serveAll (offers.take 3)).isSafe = true ∧
      ((Decoder.new { runningStatus := true }).feedAll (o.serveAll offers).written).2 =
        [.noteOn 0 64 100, .programChange 0 5, .programChange 0 65, .programChange 0 100] ∧
      ¬ source.Sublist
        ((Decoder.new { runningStatus := true }).feedAll (o.serveAll offers).written).2 := by
  decide

end MidiPatch
