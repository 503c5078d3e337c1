import MidiPatch.Proofs.Serving

/-!
# The accounts of a shared outlet

An outlet may be handed any bytes and any messages, malformed ones too, its output may refuse any of
the sends, and the stream may start over at any time. Each message is then written or waits, in the
order it came, and the counters agree with what was sent and what was accepted.
-/

namespace MidiPatch

section Sends

variable {ο : Type} [ByteOutput ο]

/-- Sends bytes one by one; gives the output afterwards and whether it accepted each of them. -/
def sendEach (output : ο) : List UInt8 → ο × List Bool
  | [] => (output, [])
  | b :: rest =>
    let (next, answer) := ByteOutput.send output [b]
    let (last, answers) := sendEach next rest
    (last, answer.isOk :: answers)

theorem sendEach_append (output : ο) (bytes more : List UInt8) :
    sendEach output (bytes ++ more) =
      ((sendEach (sendEach output bytes).1 more).1,
        (sendEach output bytes).2 ++ (sendEach (sendEach output bytes).1 more).2) := by
  induction bytes generalizing output with
  | nil => rfl
  | cons b rest ih => simp only [List.cons_append, sendEach, ih]

theorem sendEach_length (output : ο) (bytes : List UInt8) :
    (sendEach output bytes).2.length = bytes.length := by
  induction bytes generalizing output with
  | nil => rfl
  | cons b rest ih => simp only [sendEach, List.length_cons, ih]

end Sends

/-- A raw byte that went out, or a message, perhaps without its status byte. -/
inductive Sent
  | raw (b : UInt8)
  | whole (m : Message) (abbreviated : Bool)
  deriving DecidableEq, Repr

namespace Sent

def bytes : Sent → List UInt8
  | raw b => [b]
  | whole m abbreviated => m.encode.drop abbreviated.toNat

def offer : Sent → Offer
  | raw b => .raw b
  | whole m _ => .whole m

def rawBytes (sent : List Sent) : List UInt8 := Offer.rawBytes (sent.map offer)

def messages (sent : List Sent) : List Message := Offer.messages (sent.map offer)

theorem rawBytes_append (sent more : List Sent) :
    rawBytes (sent ++ more) = rawBytes sent ++ rawBytes more := by
  rw [rawBytes, List.map_append, Offer.rawBytes_append]; rfl

theorem messages_append (sent more : List Sent) :
    messages (sent ++ more) = messages sent ++ messages more := by
  rw [messages, List.map_append, Offer.messages_append]; rfl

end Sent

theorem Message.encode_pos {m : Message} (channel : Wire.isChannelStatus m.status = true) :
    0 < m.encode.length := by
  cases m with
  | sysEx x => exact nomatch channel
  | _ => exact Nat.zero_lt_succ _

namespace Outlet

variable {ο : Type}

/-- What can happen to a shared outlet. -/
inductive Event
  | offer (offer : Offer)
  | reset
  deriving DecidableEq, Repr

namespace Event

def offer? : Event → Option Offer
  | offer x => some x
  | reset => none

def rawBytes (events : List Event) : List UInt8 := Offer.rawBytes (events.filterMap offer?)

def messages (events : List Event) : List Message := Offer.messages (events.filterMap offer?)

theorem rawBytes_append (events more : List Event) :
    rawBytes (events ++ more) = rawBytes events ++ rawBytes more := by
  rw [rawBytes, List.filterMap_append, Offer.rawBytes_append]; rfl

theorem messages_append (events more : List Event) :
    messages (events ++ more) = messages events ++ messages more := by
  rw [messages, List.filterMap_append, Offer.messages_append]; rfl

end Event

variable [ByteOutput ο]

def handle (o : Outlet ο) : Event → Outlet ο
  | .offer x => o.serve x
  | .reset => o.reset

def after (o : Outlet ο) (events : List Event) : Outlet ο := events.foldl handle o

/-- Whether the event is a message that is put at the end of the line. -/
def joinsLine (o : Outlet ο) : Event → Bool
  | .offer (.whole m) => decide ((o.emitMessage m).1.pending = o.pending ++ [m])
  | _ => false

/-- How many of the events are messages that have to wait. -/
def linedUp (o : Outlet ο) : List Event → Nat
  | [] => 0
  | e :: rest => (o.joinsLine e).toNat + (o.handle e).linedUp rest

/-! ### What goes out -/

/-- `o'` follows `o` by sending just `sent`, byte by byte, and counts what it sends. -/
structure Posts (o o' : Outlet ο) (sent : List Sent) : Prop where
  output : o'.output = (sendEach o.output (sent.flatMap Sent.bytes)).1
  refused : o'.counters.sendErrors =
    o.counters.sendErrors + (sendEach o.output (sent.flatMap Sent.bytes)).2.count false
  bytes : o'.counters.bytes = o.counters.bytes + (sent.flatMap Sent.bytes).length
  messages : o'.counters.messages = o.counters.messages + (Sent.messages sent).length
  compressed : o'.counters.bytes + o'.counters.compressed =
    o.counters.bytes + o.counters.compressed + (Sent.rawBytes sent).length +
      ((Sent.messages sent).map (·.encode.length)).sum

variable {o o' o'' : Outlet ο} {sent more : List Sent}

theorem Posts.refl (o : Outlet ο) : Posts o o [] := ⟨rfl, rfl, rfl, rfl, rfl⟩

theorem Posts.trans (first : Posts o o' sent) (second : Posts o' o'' more) :
    Posts o o'' (sent ++ more) := by
  obtain ⟨output, refused, bytes, messages, compressed⟩ := first
  obtain ⟨output', refused', bytes', messages', compressed'⟩ := second
  rw [output] at output' refused'
  refine ⟨?_, ?_, ?_, ?_, ?_⟩
  · rw [List.flatMap_append, sendEach_append, output']
  · rw [List.flatMap_append, sendEach_append, refused', refused, List.count_append, Nat.add_assoc]
  · rw [List.flatMap_append, List.length_append, bytes', bytes, Nat.add_assoc]
  · rw [Sent.messages_append, List.length_append, messages', messages, Nat.add_assoc]
  · rw [Sent.messages_append, Sent.rawBytes_append, List.length_append, List.map_append,
      List.sum_append]
    omega

theorem sendByte_sendErrors (o : Outlet ο) (b : UInt8) :
    (o.sendByte b).counters.sendErrors =
      o.counters.sendErrors + (sendEach o.output [b]).2.count false := by
  rw [sendByte_errors]
  simp only [sendEach]
  cases (ByteOutput.send o.output [b]).2 with
  | ok => rfl
  | error e => rfl

theorem posts_byte (o : Outlet ο) (b : UInt8) : Posts o (o.sendByte b) [.raw b] :=
  ⟨rfl, sendByte_sendErrors o b, rfl, rfl, Nat.add_right_comm ..⟩

theorem sendAll_counts (o : Outlet ο) (bytes : List UInt8) :
    let o' := bytes.foldl sendByte o
    o'.output = (sendEach o.output bytes).1 ∧
      o'.counters.sendErrors = o.counters.sendErrors + (sendEach o.output bytes).2.count false ∧
      o'.counters.bytes = o.counters.bytes + bytes.length ∧
      o'.counters.messages = o.counters.messages ∧
      o'.counters.compressed = o.counters.compressed := by
  induction bytes generalizing o with
  | nil => exact ⟨rfl, rfl, rfl, rfl, rfl⟩
  | cons b rest ih =>
    obtain ⟨output, refused, count, messages, compressed⟩ := ih (o.sendByte b)
    have next : (o.sendByte b).output = (sendEach o.output [b]).1 := rfl
    have split := sendEach_append o.output [b] rest
    rw [List.singleton_append] at split
    rw [next] at output refused
    refine ⟨?_, ?_, ?_, messages, compressed⟩
    · rw [split]; exact output
    · rw [split, List.count_append, ← Nat.add_assoc, ← sendByte_sendErrors]; exact refused
    · rw [List.length_cons, Nat.add_comm rest.length, ← Nat.add_assoc]; exact count

theorem posts_write (o : Outlet ο) (m : Message) :
    Posts o (o.write m) [.whole m (o.leavesOutStatus m)] := by
  have counts := sendAll_counts o (m.encode.drop (o.leavesOutStatus m).toNat)
  obtain ⟨output, refused, bytes, messages, compressed⟩ := counts
  have sent : [Sent.whole m (o.leavesOutStatus m)].flatMap Sent.bytes =
      m.encode.drop (o.leavesOutStatus m).toNat := List.append_nil _
  -- A status byte is left out of a message that has one.
  have whole : (m.encode.drop (o.leavesOutStatus m).toNat).length + (o.leavesOutStatus m).toNat =
      m.encode.length := by
    rw [List.length_drop]
    cases left_out : o.leavesOutStatus m with
    | false => rfl
    | true =>
      have free := (Bool.and_eq_true_iff.mp left_out).2
      have pos := Message.encode_pos (Bool.and_eq_true_iff.mp free).2
      exact Nat.sub_add_cancel pos
  refine ⟨?_, ?_, ?_, ?_, ?_⟩
  · rw [sent]; exact output
  · rw [sent]; exact refused
  · rw [sent]; exact bytes
  · exact congrArg (· + 1) messages
  · have bytes' : (o.write m).counters.bytes = _ := bytes
    have compressed' : (o.write m).counters.compressed = _ :=
      congrArg (· + (o.leavesOutStatus m).toNat) compressed
    have nothing : (Sent.rawBytes [.whole m (o.leavesOutStatus m)]).length = 0 := rfl
    have worth : ((Sent.messages [.whole m (o.leavesOutStatus m)]).map (·.encode.length)).sum =
        m.encode.length := Nat.add_zero _
    rw [bytes', compressed', nothing, worth]
    omega

/-- The messages written are the first of those that waited, and the others wait on. -/
theorem posts_release (o : Outlet ο) (ms : List Message) :
    ∃ sent, Posts o (o.release ms) sent ∧ Sent.rawBytes sent = [] ∧
      ms = Sent.messages sent ++ (o.release ms).pending ∧
      ((o.release ms).isSafe = true → (o.release ms).pending = []) ∧
      (o.release ms).counters.deferred = o.counters.deferred := by
  induction ms generalizing o with
  | nil => exact ⟨[], ⟨rfl, rfl, rfl, rfl, rfl⟩, rfl, rfl, fun _ => rfl, rfl⟩
  | cons m rest ih =>
    unfold release
    split
    · obtain ⟨sent, posts, raws, line, quiet, deferred⟩ := ih (o.write m)
      refine ⟨_, (posts_write o m).trans posts, ?_, ?_, quiet, ?_⟩
      · rw [Sent.rawBytes_append, raws]; rfl
      · rw [Sent.messages_append, List.append_assoc, ← line]; rfl
      · exact deferred.trans (write_eq o m).2.1
    · next inside =>
      exact ⟨[], ⟨rfl, rfl, rfl, rfl, rfl⟩, rfl, rfl, fun safe => absurd safe inside, rfl⟩

/-! ### Every message is written or waits -/

/-- Messages wait only while another one is in progress, and realtime messages never do. -/
structure Orderly (o : Outlet ο) : Prop where
  quiet : o.isSafe = true → o.pending = []
  waiting : ∀ m ∈ o.pending, m.isRealtime = false

/-- `o'` follows `o` by taking in the raw bytes and the messages, and sending `sent`. -/
structure Settles (o o' : Outlet ο) (raws : List UInt8) (ms : List Message) (sent : List Sent) :
    Prop where
  posts : Posts o o' sent
  raws : Sent.rawBytes sent = raws
  line : o.pending ++ withoutRealtime ms = withoutRealtime (Sent.messages sent) ++ o'.pending
  total : (Sent.messages sent).length + o'.pending.length = o.pending.length + ms.length

theorem Settles.trans {raws raws' : List UInt8} {ms ms' : List Message}
    (first : Settles o o' raws ms sent) (second : Settles o' o'' raws' ms' more) :
    Settles o o'' (raws ++ raws') (ms ++ ms') (sent ++ more) := by
  obtain ⟨posts, same, line, total⟩ := first
  obtain ⟨posts', same', line', total'⟩ := second
  refine ⟨posts.trans posts', ?_, ?_, ?_⟩
  · rw [Sent.rawBytes_append, same, same']
  · rw [withoutRealtime_append, ← List.append_assoc, line, List.append_assoc, line',
      ← List.append_assoc, Sent.messages_append, withoutRealtime_append]
  · rw [Sent.messages_append, List.length_append, List.length_append]
    omega

theorem withoutRealtime_of_plain {ms : List Message} (plain : ∀ m ∈ ms, m.isRealtime = false) :
    withoutRealtime ms = ms :=
  List.filter_eq_self.mpr fun m member => by simp [plain m member]

/-- Once the stream is between messages, what waits follows. -/
theorem release_settles (waiting : ∀ m ∈ o.pending, m.isRealtime = false) :
    (o.release o.pending).Orderly ∧
      (o.release o.pending).counters.deferred = o.counters.deferred ∧
      ∃ sent, Settles o (o.release o.pending) [] [] sent := by
  obtain ⟨sent, posts, raws, line, quiet, deferred⟩ := posts_release o o.pending
  have plain : ∀ m ∈ Sent.messages sent ++ (o.release o.pending).pending, m.isRealtime = false := by
    rw [← line]; exact waiting
  have written : withoutRealtime (Sent.messages sent) = Sent.messages sent :=
    withoutRealtime_of_plain fun m member => plain m (List.mem_append_left _ member)
  refine ⟨⟨quiet, fun m member => plain m (List.mem_append_right _ member)⟩, deferred, sent, posts,
    raws, ?_, ?_⟩
  · rw [written, ← line]; exact List.append_nil _
  · rw [← List.length_append, ← line]; rfl

theorem settles_raw (orderly : o.Orderly) (b : UInt8) :
    (o.serve (.raw b)).Orderly ∧ (o.serve (.raw b)).counters.deferred = o.counters.deferred ∧
      ∃ sent, Settles o (o.serve (.raw b)) [b] [] sent := by
  have first : Settles o (o.sendByte b) [b] [] [.raw b] :=
    ⟨posts_byte o b, rfl, List.append_nil _, Nat.zero_add _⟩
  cases safe : (o.sendByte b).isSafe with
  | false =>
    rw [serve_raw_open safe]
    exact ⟨⟨fun done => absurd done (by rw [safe]; decide), orderly.waiting⟩, rfl, _, first⟩
  | true =>
    obtain ⟨next, deferred, sent, rest⟩ := release_settles (o := o.sendByte b) orderly.waiting
    rw [serve_raw_done safe]
    exact ⟨next, deferred, _, first.trans rest⟩

theorem settles_reset (orderly : o.Orderly) :
    o.reset.Orderly ∧ o.reset.counters.deferred = o.counters.deferred ∧
      ∃ sent, Settles o o.reset [] [] sent := by
  obtain ⟨next, deferred, sent, rest⟩ :=
    release_settles (o := { o with boundary := {} }) orderly.waiting
  exact ⟨next, deferred, sent, ⟨rest.posts.output, rest.posts.refused, rest.posts.bytes,
    rest.posts.messages, rest.posts.compressed⟩, rest.raws, rest.line, rest.total⟩

theorem write_realtime_eq (o : Outlet ο) (k : Realtime) :
    o.write (.realtime k) = { o.sendByte k.byte with
      counters.messages := o.counters.messages + 1 } := by
  have whole : o.leavesOutStatus (.realtime k) = false := by
    have other : Wire.isChannelStatus k.byte = false := by cases k <;> rfl
    simp [leavesOutStatus, Boundary.canRepeat, Message.status, other]
  unfold write
  rw [whole]
  rfl

theorem settles_waiting {m : Message} (orderly : o.Orderly) (busy : o.mustWait m = true) :
    (o.serve (.whole m)).Orderly ∧
      (o.serve (.whole m)).counters.deferred =
        o.counters.deferred + (o.joinsLine (.offer (.whole m))).toNat ∧
      Settles o (o.serve (.whole m)) [] [m] [] := by
  have plain : m.isRealtime = false := by
    simp only [mustWait, Bool.and_eq_true, Bool.not_eq_true'] at busy
    exact busy.1
  have inside : o.isSafe = false := by
    rw [mustWait_eq plain orderly.quiet] at busy
    simpa using busy
  have joins : o.joinsLine (.offer (.whole m)) =
      decide ((o.serve (.whole m)).pending = o.pending ++ [m]) := rfl
  have served := serve_waiting busy
  have pending : (o.serve (.whole m)).pending = o.pending ++ [m] := by rw [served]
  have alone : withoutRealtime [m] = [m] := withoutRealtime_of_plain (by simpa using plain)
  refine ⟨⟨?_, ?_⟩, ?_, ?_, rfl, ?_, ?_⟩
  · intro safe
    rw [served] at safe
    exact absurd (inside.symm.trans safe) Bool.false_ne_true
  · intro m' member
    rw [pending] at member
    rcases List.mem_append.mp member with old | new
    · exact orderly.waiting m' old
    · rw [List.mem_singleton.mp new]; exact plain
  · rw [joins, decide_eq_true pending, served]; rfl
  · rw [served]; exact ⟨rfl, rfl, rfl, rfl, rfl⟩
  · rw [alone, pending]; rfl
  · rw [pending, List.length_append]; exact Nat.zero_add _

theorem settles_written {m : Message} (orderly : o.Orderly) (free : o.mustWait m = false) :
    (o.serve (.whole m)).Orderly ∧
      (o.serve (.whole m)).counters.deferred =
        o.counters.deferred + (o.joinsLine (.offer (.whole m))).toNat ∧
      Settles o (o.serve (.whole m)) [] [m] [.whole m (o.leavesOutStatus m)] := by
  have served := serve_written free
  obtain ⟨pending, deferred, -⟩ := write_eq o m
  rw [← served] at pending deferred
  have joins : o.joinsLine (.offer (.whole m)) =
      decide ((o.serve (.whole m)).pending = o.pending ++ [m]) := rfl
  have behind : o.joinsLine (.offer (.whole m)) = false := by
    rw [joins, pending]; simp
  -- Either the message overtakes nothing or it is one that may.
  have quiet : (o.serve (.whole m)).isSafe = true → o.pending = [] := by
    cases plain : m.isRealtime with
    | true =>
      cases m with
      | realtime k =>
        rw [served, isSafe, write_realtime_boundary]
        exact orderly.quiet
      | _ => exact absurd plain Bool.false_ne_true
    | false =>
      rw [mustWait_eq plain orderly.quiet] at free
      exact fun _ => orderly.quiet (by simpa using free)
  have line : o.pending ++ withoutRealtime [m] = withoutRealtime [m] ++ o.pending := by
    cases plain : m.isRealtime with
    | true => simp [withoutRealtime, plain]
    | false =>
      rw [mustWait_eq plain orderly.quiet] at free
      rw [orderly.quiet (by simpa using free), List.append_nil, List.nil_append]
  refine ⟨⟨?_, ?_⟩, ?_, ?_, rfl, ?_, ?_⟩
  · rw [pending]; exact quiet
  · rw [pending]; exact orderly.waiting
  · rw [behind]; exact deferred
  · rw [served]; exact posts_write o m
  · rw [pending]; exact line
  · rw [pending]; exact Nat.add_comm ..

theorem settles_handle (orderly : o.Orderly) (e : Event) :
    (o.handle e).Orderly ∧
      (o.handle e).counters.deferred = o.counters.deferred + (o.joinsLine e).toNat ∧
      ∃ sent, Settles o (o.handle e) (Event.rawBytes [e]) (Event.messages [e]) sent := by
  cases e with
  | reset => exact settles_reset orderly
  | offer x =>
    cases x with
    | raw b => exact settles_raw orderly b
    | whole m =>
      cases busy : o.mustWait m with
      | true =>
        obtain ⟨next, deferred, settles⟩ := settles_waiting orderly busy
        exact ⟨next, deferred, _, settles⟩
      | false =>
        obtain ⟨next, deferred, settles⟩ := settles_written orderly busy
        exact ⟨next, deferred, _, settles⟩

theorem settles_after (orderly : o.Orderly) (events : List Event) :
    (o.after events).Orderly ∧
      (o.after events).counters.deferred = o.counters.deferred + o.linedUp events ∧
      ∃ sent, Settles o (o.after events) (Event.rawBytes events) (Event.messages events) sent := by
  induction events generalizing o with
  | nil => exact ⟨orderly, rfl, [], .refl o, rfl, List.append_nil _, Nat.zero_add _⟩
  | cons e rest ih =>
    obtain ⟨next, deferred, sent, first⟩ := settles_handle orderly e
    obtain ⟨last, deferred', more, second⟩ := ih next
    have raws := Event.rawBytes_append [e] rest
    have messages := Event.messages_append [e] rest
    rw [List.singleton_append] at raws messages
    refine ⟨last, ?_, sent ++ more, ?_⟩
    · rw [linedUp, ← Nat.add_assoc, ← deferred]
      exact deferred'
    · rw [raws, messages]
      exact first.trans second

end Outlet

/--
Nothing an outlet is handed is lost, doubled or overtaken. The messages written and the ones that
wait are those handed over, in order; realtime messages go out in the call that hands them over, and
messages wait only while another one is in progress. The counters agree with what was sent and what
the output accepted.
-/
theorem outlet_accounts_balance {ο : Type} [ByteOutput ο] (output : ο) (compress : Bool)
    (events : List Outlet.Event) :
    let start : Outlet ο := { output := output, compress := compress }
    let o := start.after events
    (o.isSafe = true → o.pending = []) ∧
      (∀ k : Realtime, (o.emitMessage (.realtime k)).1 =
        { o.sendByte k.byte with counters.messages := o.counters.messages + 1 }) ∧
      o.counters.messages + o.pending.length = (Outlet.Event.messages events).length ∧
      o.counters.deferred = start.linedUp events ∧
      ∃ sent,
        withoutRealtime (Outlet.Event.messages events) =
          withoutRealtime (Sent.messages sent) ++ o.pending ∧
        Sent.rawBytes sent = Outlet.Event.rawBytes events ∧
        o.counters.messages = (Sent.messages sent).length ∧
        o.counters.bytes + o.counters.compressed =
          (Outlet.Event.rawBytes events).length +
            ((Sent.messages sent).map (·.encode.length)).sum ∧
        let (last, accepted) := sendEach output (sent.flatMap Sent.bytes)
        o.output = last ∧ o.counters.bytes = accepted.length ∧
          o.counters.bytes = o.counters.sendErrors + accepted.count true := by
  intro start o
  have fresh : start.Orderly := ⟨fun _ => rfl, nofun⟩
  obtain ⟨orderly, deferred, sent, posts, raws, line, total⟩ := Outlet.settles_after fresh events
  have messages : o.counters.messages = (Sent.messages sent).length :=
    posts.messages.trans (Nat.zero_add _)
  have bytes : o.counters.bytes = (sendEach output (sent.flatMap Sent.bytes)).2.length :=
    (posts.bytes.trans (Nat.zero_add _)).trans (sendEach_length ..).symm
  have refused : o.counters.sendErrors =
      (sendEach output (sent.flatMap Sent.bytes)).2.count false :=
    posts.refused.trans (Nat.zero_add _)
  refine ⟨orderly.quiet, fun k => ?_, ?_, deferred.trans (Nat.zero_add _), sent, line, raws,
    messages, ?_, posts.output, bytes, ?_⟩
  · exact (Outlet.serve_written (Outlet.mustWait_realtime o k)).trans
      (Outlet.write_realtime_eq o k)
  · rw [messages]
    exact total.trans (Nat.zero_add _)
  · rw [posts.compressed, raws]
    exact congrArg (· + _) (Nat.zero_add _)
  · rw [bytes, refused, Nat.add_comm]
    exact (List.count_true_add_count_false _).symm

/-- A run without its end leaves the stream inside it, so the message behind it waits on. -/
example :
    (({ output := {} } : Outlet ByteBuffer).after
      [.offer (.raw 0xC0), .offer (.whole (.sysEx { data := [0xF0, 1] })),
        .offer (.whole .tuneRequest), .offer (.raw 5)]).pending = [.tuneRequest] := by decide

end MidiPatch
