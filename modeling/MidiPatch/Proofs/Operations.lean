import MidiPatch.Proofs.Passes

/-!
# Operations on a patchbay

All that the user of a patchbay can do to it, raw output bytes apart. Most operations are silent;
for the others it is said here which port they add and what they hand to which outlet.
-/

namespace MidiPatch

/-- What the user of a patchbay can do to it, raw output bytes apart. -/
inductive Operation (ι ο η : Type)
  | addPort (name : String) (output : Option ο)
  | addRoute (r : Route)
  | attachInput (id : PortId) (input : ι)
  | takeProducer (id : PortId)
  | produce (producer : Producer) (bytes : List UInt8)
  | observe (on : Bool)
  | handle (id : PortId) (handlers : HandlerTable (Hearer η))
  | feed (id : PortId) (echo : Echo (Hearer η)) (b : UInt8)
  | process (id : PortId) (echo : Echo (Hearer η))
  | emitMessage (id : PortId) (m : Message)
  | resetPort (id : PortId)
  | poll

/-- Whether an operation cannot change an outlet. -/
def Operation.isSilent {ι ο η : Type} : Operation ι ο η → Bool
  | addPort .. | emitMessage .. | resetPort .. | poll => false
  | _ => true

namespace Patchbay

variable {ι ο η : Type}

def attempt (bay : Patchbay ι ο η) : Except PatchError (Patchbay ι ο η) → Patchbay ι ο η
  | .ok bay' => bay'
  | .error _ => bay

def perform [ByteInput ι] [ByteOutput ο] (bay : Patchbay ι ο η) :
    Operation ι ο η → Patchbay ι ο η
  | .addPort name output => bay.attempt ((bay.addPort name output).map (·.1))
  | .addRoute r => bay.attempt (bay.addRoute r)
  | .attachInput id input => bay.attempt (bay.attachInput id input)
  | .takeProducer id => bay.attempt ((bay.takeProducer id).map (·.1))
  | .produce producer bytes => (bay.produce producer bytes).1
  | .observe on => bay.observe on
  | .handle id handlers =>
    bay.attempt ((bay.inlet id).map fun i => bay.setInlet id { inlet := { i with handlers } })
  | .feed id echo b => bay.attempt ((bay.inlet id).map fun i => bay.setInlet id (i.feed echo b))
  | .process id echo => bay.attempt ((bay.inlet id).map fun i => bay.setInlet id (i.process echo))
  | .emitMessage id m => bay.attempt ((bay.emitMessage id m).map (·.1))
  | .resetPort id => bay.attempt (bay.resetPort id)
  | .poll => bay.poll.1

/-- What an operation hands to the outlet of a port, in order. -/
def given [ByteInput ι] (bay : Patchbay ι ο η) (id : PortId) (op : Operation ι ο η) :
    List Message :=
  match bay.outlet? id, op with
  | some _, .poll => bay.pump.1.decode.1.deliveries id
  | some _, .emitMessage id' m => if id' = id then [m] else []
  | _, _ => []

variable {bay bay' : Patchbay ι ο η} {id : PortId} {p : Port ι ο η}

theorem attempt_cases {P : Patchbay ι ο η → Prop} {result : Except PatchError (Patchbay ι ο η)}
    (failed : P bay) (through : ∀ bay', result = .ok bay' → P bay') : P (bay.attempt result) := by
  cases result with
  | error e => exact failed
  | ok bay' => exact through bay' rfl

/-! ### Single operations -/

theorem silent_takeProducer {producer : Option Producer}
    (h : bay.takeProducer id = .ok (bay', producer)) : Silent bay bay' := by
  obtain ⟨p, found, h⟩ := bind_ok h
  split at h
  · obtain ⟨rfl, -⟩ := Prod.mk.inj (Except.ok.inj h)
    exact silent_setPort (port_ok found) rfl fun _ listens => listens
  · obtain ⟨rfl, -⟩ := Prod.mk.inj (Except.ok.inj h)
    exact ⟨rfl, fun _ => rfl, fun receiving => receiving⟩

theorem silent_attachInput {input : ι} (h : bay.attachInput id input = .ok bay') :
    Silent bay bay' := by
  obtain ⟨p, found, h⟩ := bind_ok h
  split at h
  · obtain rfl := Except.ok.inj h
    exact silent_setPort (port_ok found) rfl fun _ listens => listens
  · exact nomatch h

theorem silent_addRoute {r : Route} (h : bay.addRoute r = .ok bay') : Silent bay bay' := by
  obtain ⟨-, -, h⟩ := bind_ok h
  obtain ⟨p, -, h⟩ := bind_ok h
  split at h
  · exact nomatch h
  · obtain rfl := Except.ok.inj h
    exact ⟨rfl, fun _ => rfl, fun ⟨inlets, waiting⟩ => ⟨inlets, waiting⟩⟩

theorem silent_produce (producer : Producer) (bytes : List UInt8) :
    Silent bay (bay.produce producer bytes).1 := by
  unfold produce
  split
  · exact ⟨rfl, fun _ => rfl, fun receiving => receiving⟩
  · next found => exact silent_setPort found rfl fun _ ⟨valid, options⟩ => ⟨valid, options⟩

theorem addPort_ok {name : String} {output : Option ο}
    (h : bay.addPort name output = .ok (bay', id)) :
    id.index = bay.ports.length ∧
      bay' = { bay with ports := bay.ports ++ [bay.newPort id name output] } := by
  unfold addPort at h
  split at h
  · exact nomatch h
  · split at h
    · next room =>
      obtain ⟨rfl, rfl⟩ := Prod.mk.inj (Except.ok.inj h)
      refine ⟨?_, rfl⟩
      exact UInt8.toNat_ofNat_of_lt' room
    · exact nomatch h

theorem addPort_receiving {name : String} {output : Option ο}
    (h : bay.addPort name output = .ok (bay', id)) (receiving : bay.Receiving) :
    bay'.Receiving := by
  obtain ⟨-, rfl⟩ := addPort_ok h
  refine ⟨?_, receiving.waiting⟩
  intro p member
  rcases List.mem_append.mp member with old | new
  · exact receiving.inlets p old
  · rw [List.mem_singleton.mp new]
    exact ⟨Decoder.valid_new bay.settings.decoding, rfl⟩

theorem addPort_outlet? {name : String} {output : Option ο}
    (h : bay.addPort name output = .ok (bay', id)) (id' : PortId) :
    bay'.outlet? id' = if id' = id then
      output.map fun o => { output := o, compress := bay.settings.compress }
    else bay.outlet? id' := by
  obtain ⟨last, rfl⟩ := addPort_ok h
  unfold outlet?
  dsimp only
  split
  · next same =>
    rw [same, last, List.getElem?_concat_length]
    rfl
  · next other =>
    have apart : id'.index ≠ bay.ports.length := fun same =>
      other (PortId.index_inj (same.trans last.symm))
    rcases Nat.lt_or_gt_of_ne apart with inside | outside
    · rw [List.getElem?_append_left inside]
    · rw [List.getElem?_eq_none (by simp; omega), List.getElem?_eq_none (by omega)]

theorem addPort_unused {name : String} {output : Option ο}
    (h : bay.addPort name output = .ok (bay', id)) : bay.outlet? id = none := by
  rw [outlet?, List.getElem?_eq_none (Nat.le_of_eq (addPort_ok h).1.symm), Option.bind_none]

theorem outlet?_some {o : Outlet ο} (present : bay.outlet? id = some o) :
    ∃ p, bay.ports[id.index]? = some p ∧ p.outlet = some o :=
  Option.bind_eq_some_iff.mp present

theorem emitMessage_some [ByteOutput ο] {o : Outlet ο} (present : bay.outlet? id = some o)
    (m : Message) : ∃ p, bay.ports[id.index]? = some p ∧ bay.emitMessage id m =
      .ok (bay.setPort id { p with outlet := some (o.emitMessage m).1 }, (o.emitMessage m).2) := by
  obtain ⟨p, found, outlet⟩ := outlet?_some present
  refine ⟨p, found, ?_⟩
  unfold Patchbay.emitMessage Patchbay.outlet Patchbay.port setOutlet
  simp only [found, bind, Except.bind, outlet]

theorem emitMessage_none [ByteOutput ο] (absent : bay.outlet? id = none) (m : Message) :
    ∃ e, bay.emitMessage id m = .error e := by
  cases result : bay.emitMessage id m with
  | error e => exact ⟨e, rfl⟩
  | ok done =>
    obtain ⟨o, present, -⟩ := bind_ok result
    obtain ⟨p, found, outlet⟩ := outlet_ok present
    rw [outlet?_eq found, outlet] at absent
    exact nomatch absent

theorem resetPort_ok [ByteOutput ο] (h : bay.resetPort id = .ok bay') :
    ∃ p p', bay.ports[id.index]? = some p ∧ p'.inlet = p.inlet.reset ∧
      p'.outlet = p.outlet.map Outlet.reset ∧
      bay' = { bay.setPort id p' with
        undelivered := bay.undelivered.filter (·.1 ≠ id.source) } := by
  obtain ⟨p, found, h⟩ := bind_ok h
  exact ⟨p, _, port_ok found, rfl, rfl, (Except.ok.inj h).symm⟩

theorem perform_silent [ByteInput ι] [ByteOutput ο] (op : Operation ι ο η)
    (silent : op.isSilent = true) : Silent bay (bay.perform op) := by
  cases op with
  | addPort name output => exact nomatch silent
  | addRoute r => exact attempt_cases (.refl bay) fun _ through => silent_addRoute through
  | attachInput id input =>
    exact attempt_cases (.refl bay) fun _ through => silent_attachInput through
  | takeProducer id =>
    refine attempt_cases (.refl bay) fun _ through => ?_
    obtain ⟨⟨bay', producer⟩, taken, rfl⟩ := map_ok through
    exact silent_takeProducer taken
  | produce producer bytes => exact silent_produce producer bytes
  | observe on => exact ⟨rfl, fun _ => rfl, fun ⟨inlets, waiting⟩ => ⟨inlets, waiting⟩⟩
  | handle id handlers =>
    refine attempt_cases (.refl bay) fun _ through => ?_
    obtain ⟨i, present, rfl⟩ := map_ok through
    refine silent_setInlet present fun options listens => ?_
    exact Inlet.Listens.start ⟨listens.valid, listens.options⟩
  | feed id echo b =>
    refine attempt_cases (.refl bay) fun _ through => ?_
    obtain ⟨i, present, rfl⟩ := map_ok through
    exact silent_setInlet present fun options listens => listens.feed echo b
  | process id echo =>
    refine attempt_cases (.refl bay) fun _ through => ?_
    obtain ⟨i, present, rfl⟩ := map_ok through
    exact silent_setInlet present fun options listens => listens.process echo
  | emitMessage id m => exact nomatch silent
  | resetPort id => exact nomatch silent
  | poll => exact nomatch silent

theorem given_nil [ByteInput ι] {op : Operation ι ο η} (no_poll : op ≠ .poll)
    (no_emit : ∀ id' m, op ≠ .emitMessage id' m) : bay.given id op = [] := by
  unfold given
  cases bay.outlet? id with
  | none => rfl
  | some o =>
    cases op with
    | poll => exact absurd rfl no_poll
    | emitMessage id' m => exact absurd rfl (no_emit id' m)
    | _ => rfl

theorem given_none [ByteInput ι] (absent : bay.outlet? id = none) (op : Operation ι ο η) :
    bay.given id op = [] := by
  unfold given
  rw [absent]

theorem given_poll [ByteInput ι] {o : Outlet ο} (present : bay.outlet? id = some o) :
    bay.given id (.poll : Operation ι ο η) = bay.pump.1.decode.1.deliveries id := by
  unfold given
  rw [present]

theorem given_emitMessage [ByteInput ι] {o : Outlet ο} (present : bay.outlet? id = some o)
    (id' : PortId) (m : Message) :
    bay.given id (.emitMessage id' m : Operation ι ο η) = if id' = id then [m] else [] := by
  unfold given
  rw [present]

theorem perform_emitMessage [ByteInput ι] [ByteOutput ο] (bay : Patchbay ι ο η) (id : PortId)
    (m : Message) :
    let bay' := bay.perform (.emitMessage id m)
    bay'.settings = bay.settings ∧ (bay.Receiving → bay'.Receiving) ∧
      ∀ id', bay'.outlet? id' =
        (bay.outlet? id').map (·.emitAll (bay.given id' (.emitMessage id m))) := by
  intro bay'
  have put : bay' = bay.attempt ((bay.emitMessage id m).map (·.1)) := rfl
  cases present : bay.outlet? id with
  | none =>
    obtain ⟨e, refused⟩ := emitMessage_none present m
    rw [refused] at put
    rw [put]
    refine ⟨rfl, fun receiving => receiving, fun id' => ?_⟩
    cases here : bay.outlet? id' with
    | none => exact here
    | some o =>
      have other : id ≠ id' := by rintro rfl; rw [present] at here; exact nomatch here
      rw [given_emitMessage here, if_neg other]
      exact here
  | some o =>
    obtain ⟨p, found, sent⟩ := emitMessage_some present m
    rw [sent] at put
    rw [put]
    refine ⟨rfl, fun receiving => ?_, fun id' => ?_⟩
    · have listens := receiving.inlet found
      exact receiving.setPort listens
    refine (setPort_outlet? found id').trans ?_
    split
    · next same =>
      rw [same, present, Option.map_some, given_emitMessage present, if_pos rfl]
      rfl
    · next other =>
      cases here : bay.outlet? id' with
      | none => rfl
      | some o' => rw [given_emitMessage here, if_neg (Ne.symm other)]; rfl

theorem perform_settings [ByteInput ι] [ByteOutput ο] (bay : Patchbay ι ο η)
    (op : Operation ι ο η) : (bay.perform op).settings = bay.settings := by
  cases silent : op.isSilent with
  | true => exact (perform_silent op silent).settings
  | false =>
    cases op with
    | addPort name output =>
      refine attempt_cases (P := fun bay' => bay'.settings = bay.settings) rfl fun _ through => ?_
      obtain ⟨⟨bay', id⟩, added, rfl⟩ := map_ok through
      rw [(addPort_ok added).2]
    | emitMessage id m => exact (perform_emitMessage bay id m).1
    | resetPort id =>
      refine attempt_cases (P := fun bay' => bay'.settings = bay.settings) rfl fun _ done => ?_
      obtain ⟨p, p', -, -, -, rfl⟩ := resetPort_ok done
      rfl
    | poll => exact (silent_decoded bay).settings
    | _ => exact nomatch silent

end Patchbay

end MidiPatch
