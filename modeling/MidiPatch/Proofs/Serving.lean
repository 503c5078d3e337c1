import MidiPatch.Proofs.Sending

/-!
# Serving raw bytes and whole messages

Sources offer raw bytes and whole messages to one outlet in any order. `Serves` says what one offer
sends and what the decoder behind the outlet makes of it; there is one lemma for each way it can go.
-/

namespace MidiPatch

/-- What a source hands to a shared outlet. -/
inductive Offer
  | raw (b : UInt8)
  | whole (m : Message)
  deriving DecidableEq, Repr

namespace Offer

def raw? : Offer → Option UInt8
  | raw b => some b
  | whole _ => none

def whole? : Offer → Option Message
  | raw _ => none
  | whole m => some m

def rawBytes (offers : List Offer) : List UInt8 := offers.filterMap raw?

def messages (offers : List Offer) : List Message := offers.filterMap whole?

theorem rawBytes_append (offers more : List Offer) :
    rawBytes (offers ++ more) = rawBytes offers ++ rawBytes more := List.filterMap_append ..

theorem messages_append (offers more : List Offer) :
    messages (offers ++ more) = messages offers ++ messages more := List.filterMap_append ..

end Offer

namespace Outlet

variable {ο : Type} [ByteOutput ο]

def serve (o : Outlet ο) : Offer → Outlet ο
  | .raw b => (o.emit b).1
  | .whole m => (o.emitMessage m).1

def serveAll (o : Outlet ο) (offers : List Offer) : Outlet ο := offers.foldl serve o

theorem serve_raw_open {o : Outlet ο} {b : UInt8} (inside : (o.sendByte b).isSafe = false) :
    o.serve (.raw b) = o.sendByte b := by
  simp [serve, emit, inside]

/-- The byte that completes a message lets the messages that wait follow. -/
theorem serve_raw_done {o : Outlet ο} {b : UInt8} (safe : (o.sendByte b).isSafe = true) :
    o.serve (.raw b) = (o.sendByte b).release o.pending := by
  simp [serve, emit, safe, flush]

theorem serve_waiting {o : Outlet ο} {m : Message} (busy : o.mustWait m = true) :
    o.serve (.whole m) = { o with
      pending := o.pending ++ [m]
      counters := { o.counters with deferred := o.counters.deferred + 1 } } := by
  simp [serve, emitMessage, busy]

theorem serve_written {o : Outlet ο} {m : Message} (free : o.mustWait m = false) :
    o.serve (.whole m) = o.write m := by
  simp [serve, emitMessage, free]

omit [ByteOutput ο] in
/-- As long as nothing waits at a boundary, a message waits exactly while one is in progress. -/
theorem mustWait_eq {o : Outlet ο} {m : Message} (plain : m.isRealtime = false)
    (quiet : o.isSafe = true → o.pending = []) : o.mustWait m = !o.isSafe := by
  cases safe : o.isSafe with
  | false => simp [mustWait, plain, safe]
  | true => simp [mustWait, safe, quiet safe]

omit [ByteOutput ο] in
theorem mustWait_realtime (o : Outlet ο) (k : Realtime) : o.mustWait (.realtime k) = false := rfl

end Outlet

/-! ### The decoder behind a shared outlet -/

/-- An outlet in use and the decoder behind it: messages wait only while another one is open. -/
structure Attends {ο : Type} (o : Outlet ο) (d : Decoder) : Prop where
  receives : Receives o d
  quiet : o.isSafe = true → o.pending = []
  waiting : ∀ m ∈ o.pending, m.WellFormed ∧ m.isRealtime = false

section Attending

variable {ο : Type} [ByteOutput ο] [Recording ο]

/-- Serving an offer sends `bytes`, of which the decoder makes `heard`. -/
structure Serves (o : Outlet ο) (d : Decoder) (offer : Offer) (bytes : List UInt8) (d' : Decoder)
    (heard : List Message) : Prop where
  sends : o.Sends (o.serve offer) bytes
  reads : d.feedAll bytes = (d', heard)
  attends : Attends (o.serve offer) d'

variable {o : Outlet ο} {d d' : Decoder} {offer : Offer} {bytes : List UInt8} {heard : List Message}
  {m : Message} {b : UInt8}

theorem Serves.options (serves : Serves o d offer bytes d' heard) : d'.options = d.options := by
  have kept := Decoder.feedAll_options d bytes
  rwa [serves.reads] at kept

namespace Attends

theorem waits (attends : Attends o d) (inside : o.isSafe = false) (wf : m.WellFormed)
    (plain : m.isRealtime = false) :
    Serves o d (.whole m) [] d [] ∧ (o.serve (.whole m)).isSafe = false ∧
      (o.serve (.whole m)).pending = o.pending ++ [m] := by
  have busy : o.mustWait m = true := by rw [Outlet.mustWait_eq plain attends.quiet, inside]; rfl
  have ⟨receives, _, waiting⟩ := attends
  rw [Outlet.serve_waiting busy]
  refine ⟨⟨?_, rfl, ?_⟩, inside, rfl⟩
  · rw [Outlet.serve_waiting busy]
    exact ⟨(List.append_nil _).symm, rfl, rfl⟩
  · rw [Outlet.serve_waiting busy]
    refine ⟨⟨receives.valid, receives.tracks, receives.running⟩, ?_, ?_⟩
    · exact fun safe => nomatch inside.symm.trans safe
    · intro m' member
      rcases List.mem_append.mp member with old | new
      · exact waiting m' old
      · rw [List.mem_singleton.mp new]; exact ⟨wf, plain⟩

variable [Accepting ο]

theorem realtime (attends : Attends o d) (k : Realtime) :
    Serves o d (.whole (.realtime k)) (o.boundary.bytesOf o.compress (.realtime k))
        (d.took (.realtime k)) [.realtime k] ∧
      (o.serve (.whole (.realtime k))).isSafe = o.isSafe ∧
      (o.serve (.whole (.realtime k))).pending = o.pending := by
  obtain ⟨read, -, boundary⟩ := attends.receives.linked.write_realtime k
  have sends := Outlet.sends_write o (.realtime k)
  have received := attends.receives.sends sends
  have pending := (Outlet.write_eq o (.realtime k)).1
  have same : (o.write (.realtime k)).isSafe = o.isSafe := congrArg Boundary.safe boundary
  rw [read] at received
  rw [← Outlet.serve_written (Outlet.mustWait_realtime o k)] at sends received pending same
  refine ⟨⟨sends, read, received, ?_, ?_⟩, same, pending⟩
  · rw [same, pending]; exact attends.quiet
  · rw [pending]; exact attends.waiting

theorem goes (attends : Attends o d) (safe : o.isSafe = true) (wf : m.WellFormed)
    (plain : m.isRealtime = false) :
    Serves o d (.whole m) (o.boundary.bytesOf o.compress m) (d.took m)
        [m.clip d.options.maxSysEx] ∧
      (o.serve (.whole m)).isSafe = true ∧ (o.serve (.whole m)).pending = [] := by
  have free : o.mustWait m = false := by rw [Outlet.mustWait_eq plain attends.quiet, safe]; rfl
  obtain ⟨read, -, again⟩ := attends.receives.linked.write safe wf
  have sends := Outlet.sends_write o m
  have received := attends.receives.sends sends
  have pending := (Outlet.write_eq o m).1.trans (attends.quiet safe)
  rw [read] at received
  rw [← Outlet.serve_written free] at sends received pending again
  refine ⟨⟨sends, read, received, fun _ => pending, ?_⟩, again, pending⟩
  rw [pending]; exact nofun

theorem raw_open (attends : Attends o d) (inside : (o.sendByte b).isSafe = false) :
    Serves o d (.raw b) [b] (d.feed b).1 (d.feed b).2.toList ∧
      (o.serve (.raw b)).pending = o.pending := by
  have sends := Outlet.sends_byte o b
  have received := attends.receives.sends sends
  have fed : d.feedAll [b] = ((d.feed b).1, (d.feed b).2.toList) := by
    rw [Decoder.feedAll_cons, Decoder.feedAll_nil, List.append_nil]
  have served := Outlet.serve_raw_open inside
  rw [fed] at received
  rw [← served] at sends received inside
  have pending : (o.serve (.raw b)).pending = o.pending := by rw [served]; rfl
  refine ⟨⟨sends, fed, received, ?_, ?_⟩, pending⟩
  · exact fun safe => nomatch inside.symm.trans safe
  · rw [pending]; exact attends.waiting

theorem raw_done (attends : Attends o d) (safe : (o.sendByte b).isSafe = true) :
    ∃ bytes, Serves o d (.raw b) (b :: bytes) (o.pending.foldl Decoder.took (d.feed b).1)
        ((d.feed b).2.toList ++ o.pending.map (Message.clip d.options.maxSysEx)) ∧
      (o.serve (.raw b)).isSafe = true ∧ (o.serve (.raw b)).pending = [] := by
  have sends := Outlet.sends_byte o b
  have received := attends.receives.sends sends
  rw [Decoder.feedAll_cons, Decoder.feedAll_nil] at received
  obtain ⟨bytes, released, read, -, again, empty⟩ :=
    received.linked.release safe fun m member => (attends.waiting m member).1
  have both := sends.trans released
  have last := attends.receives.sends both
  have fed : d.feedAll ([b] ++ bytes) = (o.pending.foldl Decoder.took (d.feed b).1,
      (d.feed b).2.toList ++ o.pending.map (Message.clip d.options.maxSysEx)) := by
    rw [List.singleton_append, Decoder.feedAll_cons, read, Decoder.feed_options]
  rw [fed] at last
  rw [← Outlet.serve_raw_done safe] at both last again empty
  refine ⟨bytes, ⟨both, fed, last, fun _ => empty, ?_⟩, again, empty⟩
  rw [empty]; exact nofun

end Attends

end Attending

end MidiPatch
