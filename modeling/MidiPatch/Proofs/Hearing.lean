import MidiPatch.Proofs.Serving

/-!
# What is heard on raw bytes

A decoder that repeats statuses, behind an outlet in use: `heardRaw` are the messages it completes
on the raw bytes. Whole messages leave it where it stands in the raw stream, and every three-byte
message it hears takes two raw data bytes.
-/

namespace MidiPatch

open Wire

section Heard

variable {ο : Type} [ByteOutput ο] [Recording ο]

/-- The messages that a decoder behind the outlet completes on raw bytes. -/
def heardRaw (o : Outlet ο) (d : Decoder) : List Offer → List Message
  | [] => []
  | .raw b :: rest =>
    (d.feed b).2.toList ++
      heardRaw (o.serve (.raw b))
        (d.feedAll ((o.serve (.raw b)).written.drop o.written.length)).1 rest
  | .whole m :: rest =>
    heardRaw (o.serve (.whole m))
      (d.feedAll ((o.serve (.whole m)).written.drop o.written.length)).1 rest

variable {o : Outlet ο} {d : Decoder} {b : UInt8} {m : Message} {bytes : List UInt8}

theorem heardRaw_raw (sends : o.Sends (o.serve (.raw b)) bytes) (rest : List Offer) :
    heardRaw o d (.raw b :: rest) =
      (d.feed b).2.toList ++ heardRaw (o.serve (.raw b)) (d.feedAll bytes).1 rest := by
  rw [heardRaw, sends.drop]

theorem heardRaw_whole (sends : o.Sends (o.serve (.whole m)) bytes) (rest : List Offer) :
    heardRaw o d (.whole m :: rest) = heardRaw (o.serve (.whole m)) (d.feedAll bytes).1 rest := by
  rw [heardRaw, sends.drop]

variable [Accepting ο]

theorem serve_raw_sends (o : Outlet ο) (b : UInt8) :
    ∃ bytes, o.Sends (o.serve (.raw b)) (b :: bytes) := by
  cases safe : (o.sendByte b).isSafe with
  | false =>
    rw [Outlet.serve_raw_open safe]
    exact ⟨[], Outlet.sends_byte o b⟩
  | true =>
    rw [Outlet.serve_raw_done safe]
    obtain ⟨bytes, released⟩ := Outlet.sends_release (o.sendByte b) o.pending
    exact ⟨bytes, (Outlet.sends_byte o b).trans released⟩

theorem serve_whole_sends (o : Outlet ο) (m : Message) :
    ∃ bytes, o.Sends (o.serve (.whole m)) bytes := by
  cases busy : o.mustWait m with
  | true =>
    rw [Outlet.serve_waiting busy]
    exact ⟨[], (List.append_nil _).symm, rfl, rfl⟩
  | false =>
    rw [Outlet.serve_written busy]
    exact ⟨_, Outlet.sends_write o m⟩

theorem heardRaw_sublist (o : Outlet ο) (d : Decoder) (offers : List Offer) :
    ∃ bytes, o.Sends (o.serveAll offers) bytes ∧
      (heardRaw o d offers).Sublist (d.feedAll bytes).2 := by
  induction offers generalizing o d with
  | nil => exact ⟨[], .refl o, .slnil⟩
  | cons offer rest ih =>
    cases offer with
    | raw b =>
      obtain ⟨more, sends⟩ := serve_raw_sends o b
      obtain ⟨later, sends', part⟩ := ih (o.serve (.raw b)) (d.feedAll (b :: more)).1
      refine ⟨(b :: more) ++ later, sends.trans sends', ?_⟩
      rw [heardRaw_raw sends, Decoder.feedAll_append]
      refine List.Sublist.append ?_ part
      rw [Decoder.feedAll_cons]
      exact List.sublist_append_left ..
    | whole m =>
      obtain ⟨bytes, sends⟩ := serve_whole_sends o m
      obtain ⟨later, sends', part⟩ := ih (o.serve (.whole m)) (d.feedAll bytes).1
      refine ⟨bytes ++ later, sends.trans sends', ?_⟩
      rw [heardRaw_whole sends, Decoder.feedAll_append]
      exact part.trans (List.sublist_append_right ..)

end Heard

/-! ### A running decoder behind an outlet in use -/

/-- An outlet in use, and the decoder behind it, which repeats statuses. -/
structure Live {ο : Type} (o : Outlet ο) (d : Decoder) : Prop where
  receives : Receives o d
  running : d.options.runningStatus = true
  quiet : o.isSafe = true → o.pending = []
  waiting : ∀ m ∈ o.pending, m.WellFormed ∧ m.isRealtime = false

namespace Live

variable {ο : Type} {o : Outlet ο} {d : Decoder} {b : UInt8} {m : Message}

theorem fresh (output : ο) (compress : Bool) (limit : Nat) :
    Live ({ output := output, compress := compress } : Outlet ο)
      (.new { runningStatus := true, maxSysEx := limit }) :=
  ⟨receives_fresh output fun _ => rfl, rfl, fun _ => rfl, fun _ member => nomatch member⟩

theorem idle (live : Live o d) (safe : o.isSafe = true) : d.Idle :=
  live.receives.linked.inStep.idle safe

theorem mid_message (live : Live o d) (busy : d.phase ≠ .idle) : o.isSafe = false := by
  cases safe : o.isSafe with
  | false => rfl
  | true => exact absurd (live.idle safe).phase busy

theorem opens (live : Live o d) (busy : (d.feed b).1.phase ≠ .idle) :
    (o.boundary.next b).safe = false := by
  cases safe : (o.boundary.next b).safe with
  | false => rfl
  | true =>
    have tracks := live.receives.tracks.feed live.receives.valid b
    exact absurd (tracks.idle_of_safe safe) busy

/-- The last byte of a three-byte message leaves the stream between messages. -/
theorem completes (live : Live o d) (phase : d.phase = .thirdOfThree)
    (data : b < 0x80) : (o.boundary.next b).safe = true := by
  have tracks := live.receives.tracks
  generalize o.boundary = t at tracks ⊢
  cases tracks with
  | half length => rw [Boundary.next_data _ data, Boundary.onData_second length]
  | _ => simp_all

variable [ByteOutput ο] [Recording ο]

omit [ByteOutput ο] [Recording ο] in
theorem attends (live : Live o d) : Attends o d := ⟨live.receives, live.quiet, live.waiting⟩

theorem serve {offer : Offer} {bytes : List UInt8} {d' : Decoder} {heard : List Message}
    (live : Live o d) (serves : Serves o d offer bytes d' heard) : Live (o.serve offer) d' := by
  refine ⟨serves.attends.receives, ?_, serves.attends.quiet, serves.attends.waiting⟩
  rw [serves.options]
  exact live.running

theorem waits (live : Live o d) (inside : o.isSafe = false) (wf : m.WellFormed)
    (plain : m.isRealtime = false) (rest : List Offer) :
    Live (o.serve (.whole m)) d ∧ (o.serve (.whole m)).pending = o.pending ++ [m] ∧
      heardRaw o d (.whole m :: rest) = heardRaw (o.serve (.whole m)) d rest := by
  obtain ⟨serves, -, pending⟩ := live.attends.waits inside wf plain
  exact ⟨live.serve serves, pending, heardRaw_whole serves.sends rest⟩

variable [Accepting ο]

theorem raw_open (live : Live o d) (inside : (o.boundary.next b).safe = false)
    (rest : List Offer) :
    Live (o.serve (.raw b)) (d.feed b).1 ∧ (o.serve (.raw b)).pending = o.pending ∧
      heardRaw o d (.raw b :: rest) =
        (d.feed b).2.toList ++ heardRaw (o.serve (.raw b)) (d.feed b).1 rest := by
  obtain ⟨serves, pending⟩ := live.attends.raw_open inside
  have heard := heardRaw_raw (d := d) serves.sends rest
  rw [serves.reads] at heard
  exact ⟨live.serve serves, pending, heard⟩

theorem raw_done (live : Live o d) (safe : (o.boundary.next b).safe = true) (rest : List Offer) :
    Live (o.serve (.raw b)) (o.pending.foldl Decoder.took (d.feed b).1) ∧
      (o.serve (.raw b)).isSafe = true ∧
      heardRaw o d (.raw b :: rest) = (d.feed b).2.toList ++
        heardRaw (o.serve (.raw b)) (o.pending.foldl Decoder.took (d.feed b).1) rest := by
  obtain ⟨bytes, serves, again, -⟩ := live.attends.raw_done safe
  have heard := heardRaw_raw (d := d) serves.sends rest
  rw [serves.reads] at heard
  exact ⟨live.serve serves, again, heard⟩

theorem realtime (live : Live o d) (k : Realtime) (rest : List Offer) :
    Live (o.serve (.whole (.realtime k))) (d.took (.realtime k)) ∧
      (o.serve (.whole (.realtime k))).isSafe = o.isSafe ∧
      (o.serve (.whole (.realtime k))).pending = o.pending ∧
      heardRaw o d (.whole (.realtime k) :: rest) =
        heardRaw (o.serve (.whole (.realtime k))) (d.took (.realtime k)) rest := by
  obtain ⟨serves, same, pending⟩ := live.attends.realtime k
  have heard := heardRaw_whole (d := d) serves.sends rest
  rw [serves.reads] at heard
  exact ⟨live.serve serves, same, pending, heard⟩

theorem goes (live : Live o d) (safe : o.isSafe = true) (wf : m.WellFormed)
    (plain : m.isRealtime = false) (rest : List Offer) :
    Live (o.serve (.whole m)) (d.took m) ∧ (o.serve (.whole m)).isSafe = true ∧
      heardRaw o d (.whole m :: rest) = heardRaw (o.serve (.whole m)) (d.took m) rest := by
  obtain ⟨serves, again, -⟩ := live.attends.goes safe wf plain
  have heard := heardRaw_whole (d := d) serves.sends rest
  rw [serves.reads] at heard
  exact ⟨live.serve serves, again, heard⟩

end Live

/-! ### Counting -/

/-- How many data bytes a decoder holds of a three-byte message. -/
def halfway (d : Decoder) : Nat := if d.phase = .thirdOfThree then 1 else 0

def isThree (m : Message) : Bool := lengthOf m.status == .three

def isData (b : UInt8) : Bool := !isStatus b

theorem halfway_of_idle {d : Decoder} (idle : d.phase = .idle) : halfway d = 0 := by
  rw [halfway, idle]; rfl

/-- A data byte completes a three-byte message only if the decoder was halfway in it. -/
theorem data_weighs {d : Decoder} {b : UInt8} (valid : d.Valid)
    (running : d.options.runningStatus = true) (data : b < 0x80) :
    2 * (d.feed b).2.toList.countP isThree + halfway (d.feed b).1 ≤ halfway d + 1 := by
  cases phase : d.phase with
  | idle =>
    rw [halfway_of_idle phase]
    cases cached : d.repeatable with
    | none =>
      rw [Decoder.feed_stray data phase (.inl cached)]
      simp [Decoder.reject, halfway, phase]
    | some s =>
      rcases length_of_channel s (valid.repeatable s cached) with two | three
      · obtain ⟨m, spells, fed⟩ :=
          Decoder.feed_repeat_two data (valid.idle phase) cached running two
        rw [fed]
        simp [Decoder.complete, halfway, phase, isThree, spells.2.2.1, two]
      · rw [Decoder.feed_repeat_three data phase cached running three]
        simp [halfway]
  | secondOfTwo =>
    obtain ⟨s, m, -, two, spells, fed⟩ := valid.feed_secondOfTwo data phase
    rw [fed]
    simp [Decoder.complete, Decoder.close, halfway, isThree, spells.2.2.1, two]
  | secondOfThree =>
    rw [Decoder.feed_secondOfThree data phase]
    simp [halfway]
  | thirdOfThree =>
    obtain ⟨s, a, m, -, three, spells, fed⟩ := valid.feed_thirdOfThree data phase
    rw [fed]
    simp [Decoder.complete, Decoder.close, halfway, isThree, spells.2.2.1, three, phase]
  | inSysEx =>
    obtain ⟨nothing, inside, -⟩ := Decoder.feed_inSysEx data phase
    rw [nothing]
    simp [halfway, inside]

/-- A three-byte message takes two data bytes. -/
theorem feed_weighs {d : Decoder} (valid : d.Valid) (running : d.options.runningStatus = true)
    (b : UInt8) :
    2 * (d.feed b).2.toList.countP isThree + halfway (d.feed b).1 ≤
      halfway d + (isData b).toNat := by
  cases byteClass b with
  | data low =>
    have one : (isData b).toNat = 1 := by rw [isData, isStatus_of_lt low]; rfl
    rw [one]
    exact data_weighs valid running low
  | two length =>
    rw [Decoder.feed_two d length]
    simp [halfway]
  | three length =>
    rw [Decoder.feed_three d length]
    simp [halfway]
  | tune =>
    rw [Decoder.feed_tune]
    simp [halfway, isThree, Message.status, show lengthOf tuneRequest = .one from rfl]
  | opens =>
    rw [Decoder.feed_opens]
    simp [halfway, Decoder.capture]
  | closes =>
    by_cases inside : d.phase = .inSysEx
    · rw [Decoder.feed_closes_run inside]
      simp [Decoder.finishSysEx, Decoder.complete, Decoder.close, halfway, isThree, Message.status,
        show lengthOf sysExBegin = .undefined from rfl]
    · rw [Decoder.feed_closes_stray inside]
      simp [halfway, Decoder.reject]
  | undefined unused =>
    rw [Decoder.feed_unused d unused]
    simp [halfway, Decoder.reject]
  | realtime k =>
    have other : lengthOf k.byte = .one := by cases k <;> rfl
    rw [Decoder.feed_realtime]
    simp [halfway, isThree, Message.status, other]

section Weighing

variable {ο : Type} [ByteOutput ο] [Recording ο] [Accepting ο] {o : Outlet ο} {d : Decoder}

/-- Whatever follows a raw byte, the decoder is then no further in a message than after the byte. -/
theorem Live.raw (live : Live o d) (b : UInt8) (rest : List Offer) :
    ∃ (o' : Outlet ο) (d' : Decoder), Live o' d' ∧ halfway d' ≤ halfway (d.feed b).1 ∧
      heardRaw o d (.raw b :: rest) = (d.feed b).2.toList ++ heardRaw o' d' rest := by
  cases safe : (o.boundary.next b).safe with
  | false =>
    obtain ⟨live', -, heard⟩ := live.raw_open safe rest
    exact ⟨_, _, live', Nat.le_refl _, heard⟩
  | true =>
    obtain ⟨live', safe', heard⟩ := live.raw_done safe rest
    refine ⟨_, _, live', ?_, heard⟩
    rw [halfway_of_idle (live'.idle safe').phase]
    exact Nat.zero_le _

theorem Live.whole {m : Message} (live : Live o d) (wf : m.WellFormed) (rest : List Offer) :
    ∃ (o' : Outlet ο) (d' : Decoder), Live o' d' ∧ d'.phase = d.phase ∧ d'.held = d.held ∧
      heardRaw o d (.whole m :: rest) = heardRaw o' d' rest := by
  cases plain : m.isRealtime with
  | true =>
    cases m with
    | realtime k =>
      obtain ⟨live', -, -, heard⟩ := live.realtime k rest
      exact ⟨_, _, live', rfl, rfl, heard⟩
    | _ => exact nomatch plain
  | false =>
    cases safe : o.isSafe with
    | true =>
      obtain ⟨live', -, heard⟩ := live.goes safe wf plain rest
      exact ⟨_, _, live', rfl, rfl, heard⟩
    | false =>
      obtain ⟨live', -, heard⟩ := live.waits safe wf plain rest
      exact ⟨_, d, live', rfl, rfl, heard⟩

/-- No more three-byte messages are heard on raw bytes than there are raw data bytes for. -/
theorem heardRaw_weighs {offers : List Offer} (live : Live o d)
    (wf : ∀ m ∈ Offer.messages offers, m.WellFormed) :
    2 * (heardRaw o d offers).countP isThree ≤
      halfway d + (Offer.rawBytes offers).countP isData := by
  induction offers generalizing o d with
  | nil => exact Nat.zero_le _
  | cons offer rest ih =>
    cases offer with
    | raw b =>
      obtain ⟨o', d', live', no_further, heard⟩ := live.raw b rest
      have later := ih live' wf
      have now := feed_weighs live.receives.valid live.running b
      have counted : (Offer.rawBytes (.raw b :: rest)).countP isData =
          (Offer.rawBytes rest).countP isData + (isData b).toNat := by
        change (b :: Offer.rawBytes rest).countP isData = _
        rw [List.countP_cons]
        cases isData b <;> rfl
      -- A message costs the byte that completes it and the one before, which the decoder held.
      rw [heard, List.countP_append, counted]
      omega
    | whole m =>
      obtain ⟨now, later⟩ := List.forall_mem_cons.mp wf
      obtain ⟨o', d', live', phase, -, heard⟩ := live.whole now rest
      have bound := ih live' later
      rw [heard]
      unfold halfway at bound ⊢
      rwa [phase] at bound

/-- The message that a decoder is halfway in is the next one heard on raw bytes. -/
theorem next_heard {offers : List Offer} {s a b : UInt8} {more : List UInt8} (live : Live o d)
    (wf : ∀ m ∈ Offer.messages offers, m.WellFormed) (phase : d.phase = .thirdOfThree)
    (held : d.held = [s, a]) (raw : Offer.rawBytes offers = b :: more) (data : b < 0x80) :
    ∃ m tail, m.status = s ∧ heardRaw o d offers = m :: tail := by
  induction offers generalizing o d with
  | nil => exact nomatch raw
  | cons offer rest ih =>
    cases offer with
    | raw b' =>
      obtain ⟨rfl, -⟩ := List.cons.inj raw
      obtain ⟨s', a', m, held', -, spells, fed⟩ := live.receives.valid.feed_thirdOfThree data phase
      obtain ⟨o', d', -, -, heard⟩ := live.raw b' rest
      rw [held] at held'
      obtain ⟨rfl, -⟩ := List.cons.inj held'
      rw [fed] at heard
      exact ⟨m, _, spells.2.2.1, heard⟩
    | whole m =>
      obtain ⟨now, later⟩ := List.forall_mem_cons.mp wf
      obtain ⟨o', d', live', phase', held', heard⟩ := live.whole now rest
      rw [heard]
      exact ih live' later (phase'.trans phase) (held'.trans held) raw

end Weighing

end MidiPatch
