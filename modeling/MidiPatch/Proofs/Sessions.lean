import MidiPatch.Proofs.Operations

/-!
# What goes out of a patchbay

A session is a run of operations on a patchbay, with a record of the messages that each outlet was
handed. `wire_reads_back` says that the bytes an outlet has written decode to those messages,
whatever the mix of sources, routes, handlers and resets.
-/

namespace MidiPatch

structure Session (ι ο η : Type) where
  bay : Patchbay ι ο η
  /-- What each output had accepted before its port was added. -/
  earlier : PortId → List UInt8 := fun _ => []
  /-- The messages each outlet was handed. -/
  handed : PortId → List Message := fun _ => []

namespace Session

variable {ι ο η : Type} [ByteInput ι] [ByteOutput ο] [Recording ο]

def start (settings : Patchbay.Settings) : Session ι ο η := { bay := .new settings }

def step (s : Session ι ο η) (op : Operation ι ο η) : Session ι ο η :=
  { bay := s.bay.perform op
    earlier :=
      match op with
      | .addPort name (some output) =>
        match s.bay.addPort name (some output) with
        | .ok (_, new) => fun id => if id = new then Recording.written output else s.earlier id
        | .error _ => s.earlier
      | _ => s.earlier
    handed := fun id => s.handed id ++ s.bay.given id op }

def run (s : Session ι ο η) (ops : List (Operation ι ο η)) : Session ι ο η := ops.foldl step s

end Session

/-! ### Sessions -/

namespace Session

variable {ι ο η : Type} [ByteOutput ο] [Recording ο] {s : Session ι ο η}

/-- The decoder at the far end of the outlets. -/
def receiver (settings : Patchbay.Settings) : Decoder.Options :=
  { runningStatus := settings.compress, maxSysEx := settings.decoding.maxSysEx }

/-- What holds of a session whose user hands over only messages that `own` allows. -/
structure Wired (own : PortId → Message → Prop) (s : Session ι ο η) : Prop where
  receiving : s.bay.Receiving
  outlets : ∀ id o, s.bay.outlet? id = some o →
    o.Carries (receiver s.bay.settings) (s.earlier id) (s.handed id)
  unheard : ∀ id, s.bay.outlet? id = none → s.handed id = []
  sound : ∀ id, ∀ m ∈ s.handed id,
    Decoder.Sound (max 2 s.bay.settings.decoding.maxSysEx) m ∨ own id m

variable {own : PortId → Message → Prop}

theorem start_wired (settings : Patchbay.Settings) :
    (start settings : Session ι ο η).Wired own := by
  have none_ : ∀ id, (start settings : Session ι ο η).bay.outlet? id = none := fun _ => rfl
  refine ⟨⟨?_, ?_⟩, ?_, fun _ _ => rfl, ?_⟩
  · exact fun _ member => nomatch member
  · exact fun _ member => nomatch member
  · intro id o present
    rw [none_] at present
    exact nomatch present
  · exact fun _ _ member => nomatch member

theorem Wired.silent (wired : s.Wired own) {bay' : Patchbay ι ο η} (silent : s.bay.Silent bay') :
    ({ s with bay := bay' } : Session ι ο η).Wired own := by
  refine ⟨silent.receiving wired.receiving, ?_, ?_, ?_⟩
  · intro id o present
    rw [silent.outlets] at present
    rw [silent.settings]
    exact wired.outlets id o present
  · intro id absent
    rw [silent.outlets] at absent
    exact wired.unheard id absent
  · rw [silent.settings]
    exact wired.sound

theorem Wired.addPort (wired : s.Wired own) {name : String} {output : Option ο}
    {bay' : Patchbay ι ο η} {new : PortId} (added : s.bay.addPort name output = .ok (bay', new))
    {earlier : PortId → List UInt8}
    (at_new : ∀ o, output = some o → earlier new = Recording.written o)
    (elsewhere : ∀ id, id ≠ new → earlier id = s.earlier id) :
    ({ bay := bay', earlier := earlier, handed := s.handed } : Session ι ο η).Wired own := by
  have settings : bay'.settings = s.bay.settings := by rw [(Patchbay.addPort_ok added).2]
  -- The new port had no outlet before, so nothing was handed to it.
  have fresh : s.handed new = [] := wired.unheard new (Patchbay.addPort_unused added)
  refine ⟨Patchbay.addPort_receiving added wired.receiving, ?_, ?_, ?_⟩
  · intro id o present
    rw [Patchbay.addPort_outlet? added] at present
    dsimp only
    rw [settings]
    split at present
    · next same =>
      subst same
      obtain ⟨written, rfl, rfl⟩ := Option.map_eq_some_iff.mp present
      rw [fresh, at_new written rfl]
      exact .fresh written fun on => on
    · next other =>
      rw [elsewhere id other]
      exact wired.outlets id o present
  · intro id absent
    rw [Patchbay.addPort_outlet? added] at absent
    split at absent
    · next same => rw [same]; exact fresh
    · exact wired.unheard id absent
  · rw [settings]
    exact wired.sound

theorem Wired.reset (wired : s.Wired own) {bay' : Patchbay ι ο η} {id : PortId}
    (done : s.bay.resetPort id = .ok bay') :
    ({ s with bay := bay' } : Session ι ο η).Wired own := by
  obtain ⟨p, p', found, inlet, outlet, rfl⟩ := Patchbay.resetPort_ok done
  have listens := (wired.receiving.inlet found).reset
  rw [← inlet] at listens
  have outlets : ∀ id', (s.bay.setPort id p').outlet? id' =
      if id' = id then (s.bay.outlet? id).map Outlet.reset else s.bay.outlet? id' := by
    intro id'
    rw [Patchbay.setPort_outlet? found, outlet, Patchbay.outlet?_eq found]
  refine ⟨⟨(wired.receiving.setPort listens).inlets, ?_⟩, ?_, ?_, wired.sound⟩
  · intro x member
    exact wired.receiving.waiting x (List.mem_filter.mp member).1
  · intro id' o present
    have present := (outlets id').symm.trans present
    split at present
    · next same =>
      subst same
      obtain ⟨o', before, rfl⟩ := Option.map_eq_some_iff.mp present
      exact (wired.outlets id' o' before).reset
    · exact wired.outlets id' o present
  · intro id' absent
    have absent := (outlets id').symm.trans absent
    split at absent
    · next same =>
      subst same
      exact wired.unheard id' (Option.map_eq_none_iff.mp absent)
    · exact wired.unheard id' absent

theorem Wired.handAll [Accepting ο] (wired : s.Wired own) {bay' : Patchbay ι ο η}
    (given : PortId → List Message) (settings : bay'.settings = s.bay.settings)
    (receiving : bay'.Receiving)
    (outlets : ∀ id, bay'.outlet? id = (s.bay.outlet? id).map (·.emitAll (given id)))
    (nowhere : ∀ id, s.bay.outlet? id = none → given id = [])
    (wf : ∀ id, ∀ m ∈ given id, m.WellFormed)
    (sound : ∀ id, ∀ m ∈ given id,
      Decoder.Sound (max 2 s.bay.settings.decoding.maxSysEx) m ∨ own id m) :
    ({ s with bay := bay', handed := fun id => s.handed id ++ given id } : Session ι ο η).Wired
      own := by
  refine ⟨receiving, ?_, ?_, ?_⟩
  · intro id o present
    rw [outlets] at present
    obtain ⟨o', before, rfl⟩ := Option.map_eq_some_iff.mp present
    dsimp only
    rw [settings]
    exact (wired.outlets id o' before).emitAll (wf id)
  · intro id absent
    rw [outlets] at absent
    have before := Option.map_eq_none_iff.mp absent
    dsimp only
    rw [wired.unheard id before, nowhere id before, List.append_nil]
  · intro id m member
    dsimp only
    rw [settings]
    rcases List.mem_append.mp member with old | new
    · exact wired.sound id m old
    · exact sound id m new

variable [ByteInput ι]

theorem step_handed {op : Operation ι ο η} (no_poll : op ≠ .poll)
    (no_emit : ∀ id m, op ≠ .emitMessage id m) : (s.step op).handed = s.handed := by
  funext id
  exact (congrArg _ (Patchbay.given_nil no_poll no_emit)).trans (List.append_nil _)

theorem Wired.step_silent (wired : s.Wired own) {op : Operation ι ο η}
    (silent : op.isSilent = true) : (s.step op).Wired own := by
  have handed : (s.step op).handed = s.handed :=
    step_handed (by rintro rfl; exact nomatch silent) (by rintro _ _ rfl; exact nomatch silent)
  have earlier : (s.step op).earlier = s.earlier := by
    cases op with
    | addPort name output => exact nomatch silent
    | _ => rfl
  have same : s.step op = { s with bay := s.bay.perform op } := by
    rw [← handed, ← earlier]; rfl
  rw [same]
  exact wired.silent (Patchbay.perform_silent op silent)

theorem Wired.step_addPort (wired : s.Wired own) (name : String) (output : Option ο) :
    (s.step (.addPort name output : Operation ι ο η)).Wired own := by
  have handed : (s.step (.addPort name output)).handed = s.handed := step_handed nofun nofun
  cases added : s.bay.addPort name output with
  | error e =>
    have bay : (s.step (.addPort name output)).bay = s.bay := by
      change s.bay.attempt ((s.bay.addPort name output).map (·.1)) = s.bay
      rw [added]; rfl
    have earlier : (s.step (.addPort name output)).earlier = s.earlier := by
      cases output with
      | none => rfl
      | some o => simp [Session.step, added]
    have same : s.step (.addPort name output) = s := by
      calc s.step (.addPort name output)
          = ⟨(s.step (.addPort name output)).bay, (s.step (.addPort name output)).earlier,
              (s.step (.addPort name output)).handed⟩ := rfl
        _ = s := by rw [bay, earlier, handed]
    rw [same]
    exact wired
  | ok result =>
    obtain ⟨bay', new⟩ := result
    have bay : (s.step (.addPort name output)).bay = bay' := by
      change s.bay.attempt ((s.bay.addPort name output).map (·.1)) = bay'
      rw [added]; rfl
    have later : s.step (.addPort name output) =
        { bay := bay'
          earlier := (s.step (.addPort name output)).earlier
          handed := s.handed } := by
      rw [← bay, ← handed]
    rw [later]
    refine wired.addPort added ?_ ?_
    · rintro o rfl
      simp [Session.step, added]
    · intro id other
      cases output with
      | none => rfl
      | some o => simp [Session.step, added, other]

theorem Wired.step_emitMessage [Accepting ο] (wired : s.Wired own) {id : PortId} {m : Message}
    (wf : m.WellFormed) (allowed : own id m) :
    (s.step (.emitMessage id m : Operation ι ο η)).Wired own := by
  have only : ∀ id' m', m' ∈ s.bay.given id' (.emitMessage id m) → id = id' ∧ m' = m := by
    intro id' m' member
    cases present : s.bay.outlet? id' with
    | none =>
      rw [Patchbay.given_none present] at member
      exact nomatch member
    | some o =>
      rw [Patchbay.given_emitMessage present] at member
      split at member
      · next same => exact ⟨same, List.mem_singleton.mp member⟩
      · exact nomatch member
  obtain ⟨settings, receiving, outlets⟩ := Patchbay.perform_emitMessage s.bay id m
  refine wired.handAll (fun id' => s.bay.given id' (.emitMessage id m)) settings
    (receiving wired.receiving) outlets (fun id' absent => Patchbay.given_none absent _) ?_ ?_
  · intro id' m' member
    rw [(only id' m' member).2]
    exact wf
  · intro id' m' member
    obtain ⟨rfl, rfl⟩ := only id' m' member
    exact .inr allowed

theorem Wired.step_resetPort (wired : s.Wired own) (id : PortId) :
    (s.step (.resetPort id : Operation ι ο η)).Wired own := by
  have handed : (s.step (.resetPort id)).handed = s.handed := step_handed nofun nofun
  have same : s.step (.resetPort id) = { s with bay := s.bay.perform (.resetPort id) } := by
    rw [← handed]; rfl
  rw [same]
  exact Patchbay.attempt_cases
    (P := fun bay' => ({ s with bay := bay' } : Session ι ο η).Wired own) wired
    fun bay' done => wired.reset done

theorem Wired.step_poll [Accepting ο] (wired : s.Wired own) :
    (s.step (.poll : Operation ι ο η)).Wired own := by
  -- A pass is silent up to the delivery, so the outlets are still as they were when it starts.
  have silent := Patchbay.silent_decoded s.bay
  have receiving := silent.receiving wired.receiving
  have sound : ∀ id, ∀ m ∈ s.bay.given id .poll,
      Decoder.Sound (max 2 s.bay.settings.decoding.maxSysEx) m := by
    intro id m member
    unfold Patchbay.given at member
    split at member
    · have bound := Patchbay.deliveries_sound receiving m member
      rwa [silent.settings] at bound
    · next h => exact nomatch h
    · exact nomatch member
  refine wired.handAll (fun id => s.bay.given id .poll) silent.settings
    (Patchbay.deliver_receiving receiving) ?_ ?_ ?_ ?_
  · intro id
    have delivered := Patchbay.deliver_outlet? s.bay.pump.1.decode.1 id
    rw [silent.outlets] at delivered
    refine delivered.trans ?_
    cases present : s.bay.outlet? id with
    | none => rfl
    | some o => rw [Patchbay.given_poll present]
  · exact fun id absent => Patchbay.given_none absent .poll
  · exact fun id m member => (sound id m member).1
  · exact fun id m member => .inl (sound id m member)

theorem Wired.step [Accepting ο] (wired : s.Wired own) {op : Operation ι ο η}
    (allowed : ∀ id m, op = .emitMessage id m → m.WellFormed ∧ own id m) :
    (s.step op).Wired own := by
  cases silent : op.isSilent with
  | true => exact wired.step_silent silent
  | false =>
    cases op with
    | addPort name output => exact wired.step_addPort name output
    | emitMessage id m => exact wired.step_emitMessage (allowed id m rfl).1 (allowed id m rfl).2
    | resetPort id => exact wired.step_resetPort id
    | poll => exact wired.step_poll
    | _ => exact nomatch silent

theorem Wired.run [Accepting ο] (wired : s.Wired own) {ops : List (Operation ι ο η)}
    (allowed : ∀ id m, .emitMessage id m ∈ ops → m.WellFormed ∧ own id m) :
    (s.run ops).Wired own := by
  induction ops generalizing s with
  | nil => exact wired
  | cons op rest ih =>
    refine ih (wired.step ?_) ?_
    · rintro id m rfl
      exact allowed id m List.mem_cons_self
    · exact fun id m member => allowed id m (List.mem_cons_of_mem op member)

theorem run_settings (s : Session ι ο η) (ops : List (Operation ι ο η)) :
    (s.run ops).bay.settings = s.bay.settings := by
  induction ops generalizing s with
  | nil => rfl
  | cons op rest ih => exact (ih (s.step op)).trans (Patchbay.perform_settings s.bay op)

end Session

/--
Whatever a patchbay was used for, its outlets are at a boundary with nothing waiting, and what an
outlet wrote decodes to the messages it was handed, in order and without their cut marks, as long as
the messages handed over directly fit the limit.
-/
theorem wire_reads_back {ι ο η : Type} [ByteInput ι] [ByteOutput ο] [Recording ο] [Accepting ο]
    (settings : Patchbay.Settings) (ops : List (Operation ι ο η))
    (wf : ∀ id m, .emitMessage id m ∈ ops → m.WellFormed) (id : PortId) (o : Outlet ο)
    (present : ((Session.start settings).run ops).bay.outlet id = .ok o) :
    let s := (Session.start settings).run ops
    let far :=
      Decoder.new { runningStatus := settings.compress, maxSysEx := settings.decoding.maxSysEx }
    o.isSafe = true ∧ o.pending = [] ∧ o.counters.deferred = 0 ∧
      ((∀ m, .emitMessage id m ∈ ops → m.runLength ≤ max 2 settings.decoding.maxSysEx) →
        ∃ bytes, o.written = s.earlier id ++ bytes ∧
          (far.feedAll bytes).2 = (s.handed id).map Message.unmarked ∧
          (far.feedAll bytes).1.counters.framingErrors = 0 ∧
          (far.feedAll bytes).1.counters.aborted = 0) := by
  intro s far
  have wired : s.Wired fun id m => m.WellFormed ∧ .emitMessage id m ∈ ops :=
    (Session.start_wired settings).run fun id m member => ⟨wf id m member, wf id m member, member⟩
  have same : s.bay.settings = settings := Session.run_settings (.start settings) ops
  obtain ⟨p, found, outlet⟩ := Patchbay.outlet_ok present
  obtain ⟨safe, quiet, undeferred, bytes, written, -, read, framing, aborted⟩ :=
    wired.outlets id o ((Patchbay.outlet?_eq found).trans outlet)
  rw [same] at read framing aborted
  refine ⟨safe, quiet, undeferred, fun fits => ⟨bytes, written, read.trans ?_, framing, aborted⟩⟩
  refine List.map_congr_left fun m member => ?_
  have sound : Decoder.Sound (max 2 settings.decoding.maxSysEx) m := by
    rcases wired.sound id m member with received | ⟨wf, direct⟩
    · rwa [same] at received
    · exact ⟨wf, fits m direct⟩
  exact Message.clip_of_fits sound.1 sound.2

/-- A long run is cut on the way in, a note is handed over directly, and the output starts over. -/
theorem wire_reads_back_after_reset :
    let settings : Patchbay.Settings := { decoding := { maxSysEx := 4 }, compress := true }
    let ops : List (Operation Script ByteBuffer Unit) :=
      [.addPort "keys" none, .addPort "synth" (some {}),
        .addRoute { source := { number := 0 }, destination := { number := 1 } },
        .attachInput { number := 0 }
          { chunks := [[0xF0, 1, 2, 3, 0xF7, 0x90, 60, 100], [0x90, 61, 0]] },
        .poll, .emitMessage { number := 1 } (.noteOn 0 62 1), .resetPort { number := 1 }, .poll]
    let s := (Session.start settings).run ops
    (∀ id m, .emitMessage id m ∈ ops → m.WellFormed) ∧
      ∃ o bytes, s.bay.outlet { number := 1 } = .ok o ∧ o.isSafe = true ∧ o.written = bytes ∧
        ((Decoder.new { runningStatus := true, maxSysEx := 4 }).feedAll bytes).2 =
          [.sysEx { data := [0xF0, 1, 2, 0xF7] }, .noteOn 0 60 100, .noteOn 0 62 1,
            .noteOn 0 61 0] := by
  intro settings ops s
  have only : ∀ id m, .emitMessage id m ∈ ops → m = .noteOn 0 62 1 := by
    intro id m member
    simp only [ops, List.mem_cons, reduceCtorEq, Operation.emitMessage.injEq, List.not_mem_nil,
      or_false, false_or] at member
    exact member.2
  have wf : ∀ id m, .emitMessage id m ∈ ops → m.WellFormed := by
    intro id m member
    rw [only id m member]
    decide
  have there : (s.bay.outlet { number := 1 }).toOption.isSome = true := by cbv
  have handed : (s.handed { number := 1 }).map Message.unmarked =
      [.sysEx { data := [0xF0, 1, 2, 0xF7] }, .noteOn 0 60 100, .noteOn 0 62 1,
        .noteOn 0 61 0] := by
    cbv
  have earlier : s.earlier { number := 1 } = [] := by cbv
  cases present : s.bay.outlet { number := 1 } with
  | error e =>
    rw [present] at there
    exact absurd there Bool.false_ne_true
  | ok o =>
    obtain ⟨safe, -, -, wire⟩ := wire_reads_back settings ops wf { number := 1 } o present
    obtain ⟨bytes, written, read, -, -⟩ := wire fun m member => by
      rw [only _ m member]; decide
    refine ⟨wf, o, bytes, rfl, safe, ?_, read.trans handed⟩
    exact written.trans (congrArg (· ++ bytes) earlier)

end MidiPatch
