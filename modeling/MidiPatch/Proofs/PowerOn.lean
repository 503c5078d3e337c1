import MidiPatch.Proofs.Abbreviation
import MidiPatch.Proofs.Accounts
import MidiPatch.Proofs.Coherence
import MidiPatch.Proofs.Transparency

/-!
# A port that is reset

A port that is reset reads on like a new one, whatever it had read before; only its counters go on.
Its outlet lets go of the messages that waited, the first of them in full. Nothing else changes but
the messages of this port that were not delivered yet, which are dropped.
-/

namespace MidiPatch

open Wire

/-! ### The decoder -/

namespace Decoder

theorem reset_eq_counting {d : Decoder} {options : Options}
    (same : d.options = (new options).options) :
    d.reset = (new options).counting d.counters := by
  unfold reset counting
  rw [same]
  rfl

/-- Between messages no byte of an earlier one is read. -/
theorem feed_left (d : Decoder) (idle : d.phase = .idle) (left : List UInt8) (b : UInt8) :
    let e := ({ d with held := left } : Decoder)
    (e.feed b).2 = (d.feed b).2 ∧
      ((e.feed b).1 = (d.feed b).1 ∨
        (d.feed b).1.phase = .idle ∧ (e.feed b).1 = { (d.feed b).1 with held := left }) := by
  intro e
  -- The bytes left stay while the decoder is idle, and the first byte that opens a message drops them.
  have idle' : e.phase = .idle := idle
  rcases byte_cases b with data | status | high
  · by_cases alone : d.repeatable = none ∨ d.options.runningStatus = false
    · rw [feed_stray data idle alone, feed_stray data idle' alone]
      exact ⟨rfl, .inr ⟨idle, rfl⟩⟩
    · rw [not_or, Bool.not_eq_false] at alone
      obtain ⟨s, cached⟩ := Option.ne_none_iff_exists'.mp alone.1
      rw [feed_repeat data idle cached alone.2,
        feed_repeat data idle' (show e.repeatable = some s from cached) alone.2]
      exact ⟨rfl, .inl rfl⟩
  · have outside : ¬ (d.phase = .inSysEx ∧ b = sysExEnd) := by simp [idle]
    have cleared : e.abort = d.abort := by simp [abort, idle, close, e]
    rw [feed_abort status outside, feed_abort status (show ¬ (e.phase = .inSysEx ∧ _) from outside),
      cleared]
    exact ⟨rfl, .inl rfl⟩
  · obtain ⟨k, rfl⟩ := Realtime.exists_of_le b high
    rw [feed_realtime, feed_realtime]
    exact ⟨rfl, .inr ⟨idle, rfl⟩⟩

theorem feedAll_left (d : Decoder) (idle : d.phase = .idle) (left bytes : List UInt8) :
    let e := ({ d with held := left } : Decoder)
    (e.feedAll bytes).2 = (d.feedAll bytes).2 ∧
      ((e.feedAll bytes).1 = (d.feedAll bytes).1 ∨ (d.feedAll bytes).1.phase = .idle ∧
        (e.feedAll bytes).1 = { (d.feedAll bytes).1 with held := left }) := by
  induction bytes generalizing d with
  | nil => exact ⟨rfl, .inr ⟨idle, rfl⟩⟩
  | cons b rest ih =>
    obtain ⟨given, state⟩ := d.feed_left idle left b
    dsimp only
    rw [feedAll_cons, feedAll_cons, given]
    rcases state with same | ⟨between, same⟩
    · rw [same]
      exact ⟨rfl, .inl rfl⟩
    · obtain ⟨read, last⟩ := ih (d.feed b).1 between
      rw [same, read]
      exact ⟨rfl, last⟩

/--
Whatever comes, the decoder reads it like a new one and counts on from `counters`. It would do so
even with bytes left from before.
-/
structure ReadsAfresh (options : Options) (counters : Counters) (d : Decoder) : Prop where
  reads : ∀ bytes, let e := (new options).feedAll bytes
    (d.feedAll bytes).2 = e.2 ∧ (d.feedAll bytes).1.phase = e.1.phase ∧
      (d.feedAll bytes).1.pendingLength = e.1.pendingLength ∧
      (d.feedAll bytes).1.counters = counters + e.1.counters
  left : ∀ left bytes, let e := (new options).feedAll bytes
    let f := ({ d with held := left } : Decoder).feedAll bytes
    f.2 = e.2 ∧ f.1.phase = e.1.phase ∧ f.1.counters = counters + e.1.counters ∧
      (f.1.phase ≠ .idle → f.1.held = e.1.held)

theorem reset_readsAfresh {d : Decoder} {options : Options}
    (same : d.options = (new options).options) : d.reset.ReadsAfresh options d.counters := by
  have fresh : ∀ bytes, d.reset.feedAll bytes =
      (((new options).feedAll bytes).1.counting d.counters, ((new options).feedAll bytes).2) := by
    intro bytes
    rw [reset_eq_counting same, feedAll_counting]
  refine ⟨fun bytes => ?_, fun left bytes => ?_⟩
  · dsimp only
    rw [fresh]
    exact ⟨rfl, rfl, rfl, rfl⟩
  · obtain ⟨read, state⟩ := d.reset.feedAll_left rfl left bytes
    dsimp only at read state ⊢
    rw [read]
    rcases state with known | ⟨between, known⟩
    · rw [known, fresh]
      exact ⟨rfl, rfl, rfl, fun _ => rfl⟩
    · rw [fresh] at between
      rw [known, fresh]
      exact ⟨rfl, rfl, rfl, fun inside => absurd between inside⟩

end Decoder

/-! ### The outlet -/

theorem Message.isChannel_of_status {m : Message} (channel : isChannelStatus m.status = true) :
    m.isChannel = true := by
  cases m with
  | quarterFrame | songPosition | songSelect | tuneRequest | sysEx => cases channel
  | realtime k => cases k <;> cases channel
  | _ => rfl

namespace Shortened

theorem Legal.snoc {xs : List Shortened} {x : Shortened} (legal : Legal xs)
    (last : x.bare = true →
      x.message.isChannel = true ∧ statusInEffect (xs.map message) = some x.message.status) :
    Legal (xs ++ [x]) := by
  intro i inside bare
  rw [List.length_append, List.length_singleton] at inside
  by_cases old : i < xs.length
  · have same : (xs ++ [x])[i] = xs[i] := List.getElem_append_left old
    rw [same] at bare ⊢
    rw [List.take_append_of_le_length (by omega)]
    exact legal i old bare
  · obtain rfl : i = xs.length := by omega
    simp only [List.getElem_concat_length, List.take_left'] at bare ⊢
    exact last bare

theorem Legal.head {xs : List Shortened} (legal : Legal xs) : ∀ x ∈ xs.head?, x.bare = false := by
  intro x first
  cases xs with
  | nil => cases first
  | cons y rest =>
    obtain rfl := Option.some.inj first
    cases bare : y.bare with
    | false => rfl
    | true => cases (legal 0 (by simp) bare).2

end Shortened

theorem written_sendEach {ο : Type} [ByteOutput ο] [Recording ο] (output : ο) (bytes : List UInt8)
    (accepted : ∀ answer ∈ (sendEach output bytes).2, answer = true) :
    Recording.written (sendEach output bytes).1 = Recording.written output ++ bytes := by
  induction bytes generalizing output with
  | nil => exact (List.append_nil _).symm
  | cons b rest ih =>
    simp only [sendEach, List.forall_mem_cons] at accepted ⊢
    have written := Recording.written_send output [b]
    cases answer : (ByteOutput.send output [b]).2 with
    | error e =>
      rw [answer] at accepted
      cases accepted.1
    | ok =>
      rw [answer] at written
      rw [ih _ accepted.2, written, List.append_assoc]
      rfl

theorem sendEach_accepted {ο : Type} [ByteOutput ο] [Accepting ο] (output : ο)
    (bytes : List UInt8) : ∀ answer ∈ (sendEach output bytes).2, answer = true := by
  induction bytes generalizing output with
  | nil => exact nofun
  | cons b rest ih =>
    refine List.forall_mem_cons.mpr ⟨?_, ih _⟩
    exact congrArg Except.isOk (Accepting.accepts output [b])

namespace Outlet

variable {ο : Type} [ByteOutput ο] {o : Outlet ο}

/-- What may be left out next is the status in effect. -/
def Recalls (o : Outlet ο) (ms : List Message) : Prop :=
  ∀ s, o.boundary.canRepeat s = true → statusInEffect ms = some s

theorem Recalls.write {ms : List Message} {m : Message} (recalls : o.Recalls ms)
    (wf : m.WellFormed) : (o.write m).Recalls (ms ++ [m]) := by
  intro s free
  rw [statusInEffect_snoc]
  cases plain : m.isRealtime with
  | true =>
    cases m with
    | realtime k =>
      rw [write_realtime_boundary] at free
      exact recalls s free
    | _ => cases plain
  | false =>
    have rests : (o.write m).boundary.Rests m := by
      rw [write_boundary]
      exact InStep.rests wf plain
    obtain ⟨-, -, status, -⟩ := (Boundary.canRepeat_iff _ s).mp free
    obtain ⟨rfl, -⟩ := Decoder.repeatsAfter_channel (rests.repeats s status)
    rfl

/-- `o'` follows `o` by sending what waited, and nothing waits any more. -/
structure LetsGo (o o' : Outlet ο) (sent : List Shortened) : Prop where
  messages : sent.map Shortened.message = o.pending
  legal : Shortened.Legal sent
  whole : o.compress = false → ∀ x ∈ sent, x.bare = false
  output : o'.output = (sendEach o.output (sent.flatMap Shortened.bytes)).1
  pending : o'.pending = []

theorem release_lets_go {ms : List Message} {before : List Shortened} (safe : o.isSafe = true)
    (wf : ∀ m ∈ ms, m.WellFormed) (recalls : o.Recalls (before.map Shortened.message))
    (legal : Shortened.Legal before) :
    ∃ sent, sent.map Shortened.message = ms ∧ Shortened.Legal (before ++ sent) ∧
      (o.compress = false → ∀ x ∈ sent, x.bare = false) ∧
      (o.release ms).output = (sendEach o.output (sent.flatMap Shortened.bytes)).1 ∧
      (o.release ms).pending = [] := by
  -- What was sent before stays in view: it says which status the next message may leave out.
  induction ms generalizing o before with
  | nil => exact ⟨[], rfl, by rwa [List.append_nil], nofun, rfl, rfl⟩
  | cons m rest ih =>
    obtain ⟨now, later⟩ := List.forall_mem_cons.mp wf
    let x : Shortened := ⟨m, o.leavesOutStatus m⟩
    have allowed : Shortened.Legal (before ++ [x]) := by
      apply legal.snoc
      intro bare
      have free := (Bool.and_eq_true_iff.mp bare).2
      obtain ⟨-, -, -, channel⟩ := (Boundary.canRepeat_iff _ _).mp free
      exact ⟨Message.isChannel_of_status channel, recalls _ free⟩
    have next : (o.write m).Recalls ((before ++ [x]).map Shortened.message) := by
      rw [List.map_append]
      exact recalls.write now
    obtain ⟨sent, messages, last, whole, output, pending⟩ :=
      ih (write_isSafe safe now) later next allowed
    have written : (o.write m).output = (sendEach o.output x.bytes).1 :=
      (sendAll_counts o x.bytes).1
    rw [release, if_pos safe]
    refine ⟨x :: sent, congrArg (m :: ·) messages, ?_, ?_, ?_, pending⟩
    · rw [List.append_assoc] at last
      exact last
    · intro off
      refine List.forall_mem_cons.mpr ⟨by simp [x, leavesOutStatus, off], ?_⟩
      exact whole ((write_compress o m).trans off)
    · rw [output, written, List.flatMap_cons, sendEach_append]

theorem reset_lets_go (wf : ∀ m ∈ o.pending, m.WellFormed) :
    ∃ sent, LetsGo o o.reset sent := by
  have nothing : Recalls { o with boundary := {} } (([] : List Shortened).map Shortened.message) :=
    fun s free => nomatch (Boundary.canRepeat_iff {} s).mp free
  obtain ⟨sent, messages, legal, whole, output, pending⟩ :=
    release_lets_go (o := { o with boundary := {} }) rfl wf nothing (fun i inside => nomatch inside)
  exact ⟨sent, messages, legal, whole, output, pending⟩

end Outlet

namespace Patchbay

variable {ι ο η : Type} [ByteInput ι] [ByteOutput ο]

/-! ### The options of a reachable patchbay -/

omit [ByteInput ι] in
theorem change_listens {p : Port ι ο η} {options : Decoder.Options} (a : Act ι ο η)
    (listens : p.inlet.Listens options) : (a.change p).inlet.Listens options := by
  have still : ∀ {i : Inlet (Hearer η)}, i.decoder = p.inlet.decoder → i.Listens options :=
    fun same => ⟨same ▸ listens.valid, same ▸ listens.options⟩
  cases a with
  | operation op =>
    cases op with
    | attachInput | takeProducer => rw [Act.change]; split <;> exact listens
    | produce | handle => exact still rfl
    | feed id echo b => exact (listens.feed echo b).listens
    | process id echo => exact (listens.process echo).listens
    | resetPort => exact listens.reset
    | _ => exact listens
  | resetInlet => exact listens.reset
  | _ => exact listens

/-- Every inlet decodes with the options that the patchbay was made with. -/
structure Tuned (settings : Settings) (bay : Patchbay ι ο η) : Prop where
  made : bay.settings = settings
  inlets : ∀ p ∈ bay.ports, p.inlet.Listens (Decoder.new settings.decoding).options

variable {bay : Patchbay ι ο η} {settings : Settings}

theorem Tuned.poll (tuned : bay.Tuned settings) : bay.poll.1.Tuned settings := by
  refine ⟨(perform_settings bay .poll).trans tuned.made, fun q member => ?_⟩
  obtain ⟨i, found⟩ := List.mem_iff_getElem?.mp member
  obtain ⟨p, before, inlet, -⟩ := poll_port found
  have listens := tuned.inlets p (List.mem_of_getElem? before)
  have decoder : q.inlet.decoder = p.decoded.1 := by
    rw [inlet]
    exact p.passed_spec.decoder
  refine ⟨?_, ?_⟩
  · rw [decoder]
    exact (Decoder.feedAll_valid listens.valid p.read).1
  · rw [decoder]
    exact (Decoder.feedAll_options ..).trans listens.options

theorem Tuned.act (tuned : bay.Tuned settings) (a : Act ι ο η) : (bay.act a).Tuned settings := by
  cases about : a.port? with
  | some id =>
    have touches : bay.Touches (bay.act a) id a.change a.hears := act_touches about
    refine ⟨touches.settings.trans tuned.made, fun q member => ?_⟩
    obtain ⟨i, found⟩ := List.mem_iff_getElem?.mp member
    obtain ⟨p, before, rfl⟩ := touches.port found
    have listens := tuned.inlets p (List.mem_of_getElem? before)
    split
    · exact change_listens a listens
    · exact listens
  | none =>
    cases a with
    | operation op =>
      have kept := (perform_settings bay op).trans tuned.made
      cases op with
      | addPort name output =>
        refine attempt_cases tuned fun _ through => ?_
        obtain ⟨⟨bay', id⟩, added, rfl⟩ := map_ok through
        obtain ⟨-, rfl⟩ := addPort_ok added
        refine ⟨tuned.made, fun q member => ?_⟩
        rcases List.mem_append.mp member with old | new
        · exact tuned.inlets q old
        · obtain rfl := List.mem_singleton.mp new
          rw [← tuned.made]
          exact ⟨Decoder.valid_new _, rfl⟩
      | addRoute r =>
        refine attempt_cases tuned fun _ added => ?_
        obtain ⟨-, rfl⟩ := addRoute_ok added
        exact ⟨tuned.made, tuned.inlets⟩
      | observe on => exact ⟨tuned.made, tuned.inlets⟩
      | poll => exact tuned.poll
      | _ => exact nomatch about
    | _ => exact nomatch about

theorem tuned_actAll (settings : Settings) (acts : List (Act ι ο η)) :
    ((new settings : Patchbay ι ο η).actAll acts).Tuned settings :=
  List.foldlRecOn acts act ⟨rfl, fun _ member => nomatch member⟩ fun _ tuned a _ => tuned.act a

/--
A port that is reset starts as it was added: its queue is empty, and its decoder reads whatever
comes like a new one. Of the messages not delivered yet those from this port are dropped. Its outlet
sends what waited, in order and the first message in full. All else stays, and a port that is not
there changes nothing.
-/
theorem reset_restores_power_on [Recording ο] (settings : Settings) (acts : List (Act ι ο η))
    (id : PortId) :
    let bay : Patchbay ι ο η := (new settings).actAll acts
    let bay' := bay.perform (.resetPort id)
    (bay.ports[id.index]? = none → bay.resetPort id = .error (.unknownPort id) ∧ bay' = bay) ∧
    ∀ p, bay.ports[id.index]? = some p → ∃ q,
      bay.resetPort id = .ok bay' ∧ bay'.ports[id.index]? = some q ∧
      q.inlet.queue = { p.inlet.queue with bytes := [] } ∧
      q.inlet.decoder.ReadsAfresh settings.decoding p.inlet.decoder.counters ∧
      (p.inlet.source = id.source ∧
        bay'.undelivered = bay.undelivered.filter (·.1 ≠ id.source)) ∧
      (∀ o, p.outlet = some o → (∀ m ∈ o.pending, m.WellFormed) →
        ∃ o' sent, q.outlet = some o' ∧ o.LetsGo o' sent ∧ (∀ x ∈ sent.head?, x.bare = false) ∧
          ((∀ answer ∈ (sendEach o.output (sent.flatMap Shortened.bytes)).2, answer = true) →
            o'.written = o.written ++ sent.flatMap Shortened.bytes)) ∧
      (∀ i, i ≠ id.index → bay'.ports[i]? = bay.ports[i]?) ∧
      (bay'.routes = bay.routes ∧ bay'.observed = bay.observed ∧ bay'.settings = bay.settings) ∧
      q.name = p.name ∧ q.producerHeld = p.producerHeld ∧ q.input = p.input ∧
      q.inlet.handlers = p.inlet.handlers ∧ (p.outlet = none → q.outlet = none) := by
  intro bay bay'
  have put : bay' = bay.attempt (bay.resetPort id) := rfl
  constructor
  · intro absent
    have failed : bay.resetPort id = .error (.unknownPort id) := by
      unfold resetPort port
      rw [absent]
      rfl
    rw [failed] at put
    exact ⟨failed, put⟩
  · intro p found
    have inside := (List.getElem?_eq_some_iff.mp found).1
    have done : bay.resetPort id = .ok { bay.setPort id
          { p with inlet := p.inlet.reset, outlet := p.outlet.map Outlet.reset } with
        undelivered := bay.undelivered.filter (·.1 ≠ id.source) } := by
      unfold resetPort port
      rw [found]
      rfl
    rw [done] at put
    rw [put]
    have options : p.inlet.decoder.options = (Decoder.new settings.decoding).options :=
      ((tuned_actAll settings acts).inlets p (List.mem_of_getElem? found)).options
    have coherent : bay.Coherent := actAll_keeps acts Alters.coherent (coherent_new settings)
    have number := coherent.sources id.index p found
    refine ⟨{ p with inlet := p.inlet.reset, outlet := p.outlet.map Outlet.reset }, done,
      List.getElem?_set_self inside, rfl, Decoder.reset_readsAfresh options, ⟨?_, rfl⟩, ?_, ?_,
      ⟨rfl, rfl, rfl⟩, rfl, rfl, rfl, rfl, ?_⟩
    · exact congrArg SourceId.mk (UInt8.toNat_inj.mp number)
    · intro o present wf
      obtain ⟨sent, lets_go⟩ := o.reset_lets_go wf
      refine ⟨o.reset, sent, by rw [present]; rfl, lets_go, lets_go.legal.head, fun accepted => ?_⟩
      rw [Outlet.written, lets_go.output]
      exact written_sendEach _ _ accepted
    · intro i other
      exact List.getElem?_set_ne other.symm
    · intro absent
      rw [absent]
      rfl

/--
The outlet of the first port is amid a run and keeps two notes, its queue holds two bytes, and the
messages that the two ports heard are not delivered yet.
-/
def amidNote : List (Act Script ByteBuffer Unit) :=
  [.operation (.addPort "keys" (some {})), .operation (.addPort "pad" none),
    .operation (.feed ⟨0⟩ Inlet.silent 0xFA), .operation (.feed ⟨1⟩ Inlet.silent 0xF8),
    .operation (.feed ⟨0⟩ Inlet.silent 0x90), .operation (.produce ⟨⟨0⟩⟩ [1, 2]),
    .changeOutlet ⟨0⟩ fun o => (o.emit 0xF0).1,
    .operation (.emitMessage ⟨0⟩ (.noteOn 0 60 1)), .operation (.emitMessage ⟨0⟩ (.noteOn 0 61 1))]

theorem reset_restores_power_on_amid_note :
    let settings : Settings := { compress := true }
    let bay : Patchbay Script ByteBuffer Unit := (new settings).actAll amidNote
    let bay' := bay.perform (.resetPort ⟨0⟩)
    bay.resetPort ⟨2⟩ = .error (.unknownPort ⟨2⟩) ∧
      ∃ (q : Port Script ByteBuffer Unit) (o' : Outlet ByteBuffer) (sent : List Shortened),
        bay'.ports[0]? = some q ∧ q.outlet = some o' ∧ q.inlet.queue.bytes = [] ∧
        q.inlet.decoder.ReadsAfresh settings.decoding { messages := 1, realtime := 1 } ∧
        bay'.undelivered = [(⟨1⟩, .realtime .clock)] ∧
        sent.map Shortened.message = [.noteOn 0 60 1, .noteOn 0 61 1] ∧
        (∀ x ∈ sent.head?, x.bare = false) ∧
        o'.written = 0xF0 :: sent.flatMap Shortened.bytes := by
  have whole := reset_restores_power_on { compress := true } amidNote
  dsimp only at whole ⊢
  generalize made : (new { compress := true }).actAll amidNote = bay at whole ⊢
  have absent : bay.ports[2]? = none := by rw [← made]; cbv
  have port : (bay.ports[0]?).map (fun p =>
      (p.inlet.decoder.counters, p.outlet.map fun o => (o.pending, o.written))) =
      some ({ messages := 1, realtime := 1 },
        some ([.noteOn 0 60 1, .noteOn 0 61 1], [0xF0])) := by rw [← made]; cbv
  have undelivered : bay.undelivered = [(⟨0⟩, .realtime .start), (⟨1⟩, .realtime .clock)] := by
    rw [← made]; cbv
  clear made
  refine ⟨((whole ⟨2⟩).1 absent).1, ?_⟩
  obtain ⟨p, found, both⟩ := Option.map_eq_some_iff.mp port
  obtain ⟨counters, outlet⟩ := Prod.mk.inj both
  obtain ⟨o, present, keeps⟩ := Option.map_eq_some_iff.mp outlet
  obtain ⟨pending, written⟩ := Prod.mk.inj keeps
  obtain ⟨q, -, there, queue, reads, ⟨-, rest⟩, sends, -⟩ := (whole ⟨0⟩).2 p found
  obtain ⟨o', sent, sending, lets_go, full, more⟩ := sends o present (by rw [pending]; decide)
  refine ⟨q, o', sent, there, sending, by rw [queue], ?_, ?_, ?_, full, ?_⟩
  · rw [counters] at reads
    exact reads
  · rw [rest, undelivered]
    rfl
  · rw [lets_go.messages, pending]
  · rw [more (sendEach_accepted _ _), written]
    rfl

end Patchbay

end MidiPatch
