import MidiPatch.Proofs.Draining
import MidiPatch.Proofs.Operations

/-!
# Whatever happens to a patchbay

Besides the operations of its user, a patchbay meets what happens behind its back: bytes arrive at an
attached input, a single inlet starts over, and something is done to an output directly. An act on one
port changes that port and adds to what waits only messages of its inlet. So the ports of any
reachable patchbay bear their own numbers, and its routes lead to outlets.
-/

namespace MidiPatch

/-- The patchbay is told of messages by the catch-all handler only. -/
structure HandlerTable.OfUser {η : Type} (t : HandlerTable (Hearer η)) : Prop where
  ofKind : ∀ k, t.ofKind k ≠ some .patchbay
  fallthrough : t.fallthrough ≠ some .patchbay

inductive Act (ι ο η : Type)
  | operation (op : Operation ι ο η)
  | resetInlet (id : PortId)
  | changeInput (id : PortId) (change : ι → ι)
  | changeOutlet (id : PortId) (change : Outlet ο → Outlet ο)

namespace Act

variable {ι ο η : Type}

/-- The port an act is about, if it is about one. -/
def port? : Act ι ο η → Option PortId
  | operation (.attachInput id _) | operation (.takeProducer id) | operation (.handle id _)
  | operation (.feed id ..) | operation (.process id _) | operation (.emitMessage id _)
  | operation (.resetPort id) | resetInlet id | changeInput id _ | changeOutlet id _ => some id
  | operation (.produce producer _) => some producer.port
  | operation (.addPort ..) | operation (.addRoute _) | operation (.observe _)
  | operation .poll => none

/-- What an act about one port does to it. -/
def change [ByteOutput ο] (p : Patchbay.Port ι ο η) : Act ι ο η → Patchbay.Port ι ο η
  | operation (.attachInput _ input) => if p.producerHeld then { p with input := some input } else p
  | operation (.takeProducer _) =>
    if p.input.isNone && p.producerHeld then { p with producerHeld := false } else p
  | operation (.produce _ bytes) => { p with inlet.queue := (p.inlet.queue.enqueueAll bytes).1 }
  | operation (.handle _ handlers) => { p with inlet.handlers := handlers }
  | operation (.feed _ echo b) => { p with inlet := (p.inlet.feed echo b).inlet }
  | operation (.process _ echo) => { p with inlet := (p.inlet.process echo).inlet }
  | operation (.emitMessage _ m) => { p with outlet := p.outlet.map fun o => (o.emitMessage m).1 }
  | operation (.resetPort _) =>
    { p with inlet := p.inlet.reset, outlet := p.outlet.map Outlet.reset }
  | resetInlet _ => { p with inlet := p.inlet.reset }
  | changeInput _ change => { p with input := p.input.map change }
  | changeOutlet _ change => { p with outlet := p.outlet.map change }
  | operation (.addPort ..) | operation (.addRoute _) | operation (.observe _)
  | operation .poll => p

/-- Whether messages may be heard outside a pass. -/
def hears : Act ι ο η → Bool
  | operation (.feed ..) | operation (.process ..) => true
  | _ => false

/-- What the user of a patchbay can do: the handler of the patchbay itself cannot be passed around. -/
def Allowed : Act ι ο η → Prop
  | operation (.handle _ handlers) => handlers.OfUser
  | _ => True

end Act

namespace Patchbay

variable {ι ο η : Type}

section

variable [ByteInput ι] [ByteOutput ο]

def act (bay : Patchbay ι ο η) : Act ι ο η → Patchbay ι ο η
  | .operation op => bay.perform op
  | .resetInlet id =>
    bay.attempt ((bay.inlet id).map fun i => bay.setInlet id { inlet := i.reset })
  | .changeInput id change =>
    bay.attempt ((bay.port id).map fun p => bay.setPort id { p with input := p.input.map change })
  | .changeOutlet id change =>
    bay.attempt ((bay.outlet id).map fun o => bay.setOutlet id (change o))

def actAll (bay : Patchbay ι ο η) (acts : List (Act ι ο η)) : Patchbay ι ο η := acts.foldl act bay

end

/-- A change of one port. New messages come from its inlet, and only if it `hears` something. -/
structure Touches (bay bay' : Patchbay ι ο η) (id : PortId) (change : Port ι ο η → Port ι ο η)
    (hears : Bool) : Prop where
  ports : bay'.ports = bay.ports.modify id.index change
  settings : bay'.settings = bay.settings
  routes : bay'.routes = bay.routes
  observed : bay'.observed = bay.observed
  waiting : ∀ x ∈ bay'.undelivered, x ∈ bay.undelivered ∨
    hears = true ∧ ∃ p, bay.ports[id.index]? = some p ∧ x.1 = p.inlet.source

variable {bay bay' : Patchbay ι ο η} {id : PortId} {p : Port ι ο η}
  {change : Port ι ο η → Port ι ο η} {hears : Bool}

theorem touches_absent (absent : bay.ports[id.index]? = none) :
    bay.Touches bay id change hears := by
  refine ⟨?_, rfl, rfl, rfl, fun x member => .inl member⟩
  rw [List.modify_eq_set_getElem?, absent]
  rfl

theorem modify_present (change : Port ι ο η → Port ι ο η) (found : bay.ports[id.index]? = some p) :
    bay.ports.modify id.index change = bay.ports.set id.index (change p) := by
  rw [List.modify_eq_set_getElem?, found]
  rfl

theorem touches_present (change : Port ι ο η → Port ι ο η)
    (found : bay.ports[id.index]? = some p) :
    bay.Touches (bay.setPort id (change p)) id change hears :=
  ⟨(modify_present change found).symm, rfl, rfl, rfl, fun _ member => .inl member⟩

theorem touches_same (found : bay.ports[id.index]? = some p) (same : change p = p) :
    bay.Touches bay id change hears := by
  refine ⟨?_, rfl, rfl, rfl, fun x member => .inl member⟩
  obtain ⟨inside, here⟩ := List.getElem?_eq_some_iff.mp found
  rw [modify_present change found, same, ← here, List.set_getElem_self]

/-- Operations first look the port up, and do nothing if there is none. -/
theorem touches_bind {f : Port ι ο η → Except PatchError (Patchbay ι ο η)}
    (done : ∀ p, bay.ports[id.index]? = some p → bay.Touches (bay.attempt (f p)) id change hears) :
    bay.Touches (bay.attempt (bay.port id >>= f)) id change hears := by
  cases found : bay.ports[id.index]? with
  | none =>
    rw [port_absent found]
    exact touches_absent found
  | some p =>
    rw [port_found found]
    exact done p found

theorem bind_map {α β γ : Type} (x : Except PatchError α) (f : α → Except PatchError β)
    (g : β → γ) : (x >>= f).map g = x >>= fun a => (f a).map g := by
  cases x <;> rfl

theorem touches_setInlet {pass : Inlet (Hearer η) → Inlet.Pass (Hearer η)}
    (own : ∀ i, ∀ c ∈ (pass i).calls, c.source = i.source)
    (silent : hears = false → ∀ i, (pass i).calls = []) :
    bay.Touches (bay.attempt ((bay.inlet id).map fun i => bay.setInlet id (pass i))) id
      (fun p => { p with inlet := (pass p.inlet).inlet }) hears := by
  unfold inlet
  rw [bind_map]
  refine touches_bind fun p found => ?_
  change bay.Touches (bay.setInlet id (pass p.inlet)) id _ hears
  have put : bay.setInlet id (pass p.inlet) =
      { bay.setPort id { p with inlet := (pass p.inlet).inlet } with
        undelivered := bay.undelivered ++ heard (pass p.inlet).calls } := by
    unfold setInlet
    rw [found]
  have set := modify_present (fun p => { p with inlet := (pass p.inlet).inlet }) found
  rw [put]
  refine ⟨set.symm, rfl, rfl, rfl, fun x member => ?_⟩
  rcases List.mem_append.mp member with old | new
  · exact .inl old
  · -- What is put up for delivery comes from a call, and so from this inlet.
    obtain ⟨c, called, kept⟩ := List.mem_filterMap.mp new
    cases loud : hears with
    | false => rw [silent loud] at called; exact nomatch called
    | true =>
      refine .inr ⟨rfl, p, found, ?_⟩
      have source := own p.inlet c called
      cases hearer : c.handler with
      | patchbay => rw [hearer] at kept; rw [← Option.some.inj kept]; exact source
      | user h => rw [hearer] at kept; exact nomatch kept

theorem touches_outlet (put : Outlet ο → Outlet ο) :
    bay.Touches (bay.attempt ((bay.outlet id).map fun o => bay.setOutlet id (put o))) id
      (fun p => { p with outlet := p.outlet.map put }) hears := by
  unfold outlet
  rw [bind_map]
  refine touches_bind fun p found => ?_
  obtain ⟨name, inlet, held, input, outlet⟩ := p
  cases outlet with
  | none => exact touches_same found rfl
  | some o =>
    have done : bay.setOutlet id (put o) =
        bay.setPort id { name, inlet, producerHeld := held, input, outlet := some (put o) } := by
      unfold setOutlet
      rw [found]
    change bay.Touches (bay.setOutlet id (put o)) id _ hears
    rw [done]
    exact touches_present (fun p => { p with outlet := p.outlet.map put }) found

/-! ### Reachable patchbays -/

/-- What holds of every reachable patchbay: ports bear their own numbers, and routes lead to outlets. -/
structure Proper (bay : Patchbay ι ο η) : Prop where
  sources : ∀ (i : Nat) p, bay.ports[i]? = some p → p.inlet.source.number.toNat = i
  handlers : ∀ p ∈ bay.ports, p.inlet.handlers.OfUser
  routes : ∀ r ∈ bay.routes, (bay.outlet? r.destination).isSome

theorem Touches.port (touches : bay.Touches bay' id change hears) {i : Nat} {q : Port ι ο η}
    (found : bay'.ports[i]? = some q) :
    ∃ p, bay.ports[i]? = some p ∧ q = if id.index = i then change p else p := by
  rw [touches.ports, List.getElem?_modify] at found
  obtain ⟨p, before, rfl⟩ := Option.map_eq_some_iff.mp found
  exact ⟨p, before, rfl⟩

theorem Touches.outlet? (touches : bay.Touches bay' id change hears)
    (outlet : ∀ p, (change p).outlet.isSome = p.outlet.isSome) (id' : PortId) :
    (bay'.outlet? id').isSome = (bay.outlet? id').isSome := by
  unfold Patchbay.outlet?
  rw [touches.ports, List.getElem?_modify]
  cases bay.ports[id'.index]? with
  | none => rfl
  | some p =>
    change (if id.index = id'.index then change p else p).outlet.isSome = p.outlet.isSome
    split
    · exact outlet p
    · rfl

theorem Touches.proper (touches : bay.Touches bay' id change hears) (proper : bay.Proper)
    (source : ∀ p, (change p).inlet.source = p.inlet.source)
    (handlers : ∀ p, p.inlet.handlers.OfUser → (change p).inlet.handlers.OfUser)
    (outlet : ∀ p, (change p).outlet.isSome = p.outlet.isSome) : bay'.Proper := by
  refine ⟨?_, ?_, ?_⟩
  · intro i q found
    obtain ⟨p, before, rfl⟩ := touches.port found
    have number := proper.sources i p before
    split
    · rw [source]; exact number
    · exact number
  · intro q member
    obtain ⟨i, found⟩ := List.mem_iff_getElem?.mp member
    obtain ⟨p, before, rfl⟩ := touches.port found
    have own := proper.handlers p (List.mem_of_getElem? before)
    split
    · exact handlers p own
    · exact own
  · intro r member
    rw [touches.routes] at member
    rw [touches.outlet? outlet]
    exact proper.routes r member

theorem addPort_port {name : String} {output : Option ο}
    (added : bay.addPort name output = .ok (bay', id)) {i : Nat} {q : Port ι ο η}
    (found : bay'.ports[i]? = some q) :
    bay.ports[i]? = some q ∨ i = bay.ports.length ∧ q = bay.newPort id name output := by
  obtain ⟨-, rfl⟩ := addPort_ok added
  by_cases old : i < bay.ports.length
  · rw [List.getElem?_append_left old] at found
    exact .inl found
  · obtain ⟨inside, -⟩ := List.getElem?_eq_some_iff.mp found
    rw [List.length_append, List.length_singleton] at inside
    obtain rfl : i = bay.ports.length := by omega
    rw [List.getElem?_concat_length] at found
    exact .inr ⟨rfl, (Option.some.inj found).symm⟩

theorem Proper.addPort (proper : bay.Proper) {name : String} {output : Option ο}
    (added : bay.addPort name output = .ok (bay', id)) : bay'.Proper := by
  refine ⟨?_, ?_, ?_⟩
  · intro i p found
    rcases addPort_port added found with old | ⟨last, rfl⟩
    · exact proper.sources i p old
    · exact (addPort_ok added).1.trans last.symm
  · intro p member
    obtain ⟨i, found⟩ := List.mem_iff_getElem?.mp member
    rcases addPort_port added found with old | ⟨-, rfl⟩
    · exact proper.handlers p (List.mem_of_getElem? old)
    · exact ⟨nofun, nofun⟩
  · intro r member
    have routes : bay'.routes = bay.routes := by rw [(addPort_ok added).2]
    rw [routes] at member
    have present := proper.routes r member
    rw [addPort_outlet? added]
    split
    · next same => rw [same, addPort_unused added] at present; exact nomatch present
    · exact present

theorem addRoute_ok {r : Route} (added : bay.addRoute r = .ok bay') :
    (bay.outlet? r.destination).isSome ∧ bay' = { bay with routes := bay.routes ++ [r] } := by
  obtain ⟨-, -, added⟩ := bind_ok added
  obtain ⟨p, found, added⟩ := bind_ok added
  split at added
  · exact nomatch added
  · next o present =>
    rw [outlet?_eq (port_ok found), present]
    exact ⟨rfl, (Except.ok.inj added).symm⟩

theorem Proper.addRoute (proper : bay.Proper) {r : Route} (added : bay.addRoute r = .ok bay') :
    bay'.Proper := by
  obtain ⟨outlet, rfl⟩ := addRoute_ok added
  refine ⟨proper.sources, proper.handlers, ?_⟩
  intro r' member
  change (bay.outlet? r'.destination).isSome
  rcases List.mem_append.mp member with old | new
  · exact proper.routes r' old
  · rw [List.mem_singleton.mp new]
    exact outlet

/-! ### Acts -/

variable [ByteOutput ο]

theorem change_source (a : Act ι ο η) (p : Port ι ο η) :
    (a.change p).inlet.source = p.inlet.source := by
  cases a with
  | operation op =>
    cases op with
    | attachInput | takeProducer => rw [Act.change]; split <;> rfl
    | feed id echo b => exact (p.inlet.feed_of echo b).source
    | process id echo => exact (p.inlet.process_of echo).source
    | _ => rfl
  | _ => rfl

theorem change_handlers {a : Act ι ο η} (allowed : a.Allowed) {p : Port ι ο η}
    (own : p.inlet.handlers.OfUser) : (a.change p).inlet.handlers.OfUser := by
  cases a with
  | operation op =>
    cases op with
    | attachInput | takeProducer => rw [Act.change]; split <;> exact own
    | handle id handlers => exact allowed
    | feed id echo b => exact (p.inlet.feed_of echo b).handlers ▸ own
    | process id echo => exact (p.inlet.process_of echo).handlers ▸ own
    | _ => exact own
  | _ => exact own

theorem change_outlet (a : Act ι ο η) (p : Port ι ο η) :
    (a.change p).outlet.isSome = p.outlet.isSome := by
  cases a with
  | operation op =>
    cases op with
    | attachInput | takeProducer => rw [Act.change]; split <;> rfl
    | emitMessage | resetPort => exact Option.isSome_map
    | _ => rfl
  | changeOutlet id put => exact Option.isSome_map
  | _ => rfl

variable [ByteInput ι]

theorem act_touches {a : Act ι ο η} (about : a.port? = some id) :
    bay.Touches (bay.act a) id (fun p => a.change p) a.hears := by
  cases a with
  | operation op =>
    cases op with
    | attachInput id' input =>
      obtain rfl := Option.some.inj about
      refine touches_bind fun p found => ?_
      split
      · next held =>
        have set := modify_present
          (fun p => Act.change p (.operation (.attachInput id' input))) found
        rw [Act.change, if_pos held] at set
        exact ⟨set.symm, rfl, rfl, rfl, fun _ member => .inl member⟩
      · next taken => exact touches_same found (if_neg taken)
    | takeProducer id' =>
      obtain rfl := Option.some.inj about
      change bay.Touches (bay.attempt ((bay.takeProducer id').map (·.1))) id' _ _
      unfold Patchbay.takeProducer
      rw [bind_map]
      refine touches_bind fun p found => ?_
      split
      · next free =>
        have set := modify_present (fun p => Act.change p (.operation (.takeProducer id'))) found
        rw [Act.change, if_pos free] at set
        exact ⟨set.symm, rfl, rfl, rfl, fun _ member => .inl member⟩
      · next taken => exact touches_same found (if_neg taken)
    | produce producer bytes =>
      obtain rfl := Option.some.inj about
      change bay.Touches (bay.produce producer bytes).1 producer.port _ _
      unfold Patchbay.produce
      cases found : bay.ports[producer.port.index]? with
      | none => exact touches_absent found
      | some p =>
        exact touches_present (fun p => Act.change p (.operation (.produce producer bytes))) found
    | handle id' handlers =>
      obtain rfl := Option.some.inj about
      exact touches_setInlet (fun _ _ member => nomatch member) fun _ _ => rfl
    | feed id' echo b =>
      obtain rfl := Option.some.inj about
      exact touches_setInlet (fun i => (i.feed_of echo b).calls) nofun
    | process id' echo =>
      obtain rfl := Option.some.inj about
      exact touches_setInlet (fun i => (i.process_of echo).calls) nofun
    | emitMessage id' m =>
      obtain rfl := Option.some.inj about
      have same : (bay.emitMessage id' m).map (·.1) =
          (bay.outlet id').map fun o => bay.setOutlet id' (o.emitMessage m).1 := by
        unfold Patchbay.emitMessage
        cases bay.outlet id' <;> rfl
      change bay.Touches (bay.attempt ((bay.emitMessage id' m).map (·.1))) id' _ _
      rw [same]
      exact touches_outlet fun o => (o.emitMessage m).1
    | resetPort id' =>
      obtain rfl := Option.some.inj about
      refine touches_bind fun p found => ?_
      have set := modify_present (fun p => Act.change p (.operation (.resetPort id'))) found
      exact ⟨set.symm, rfl, rfl, rfl, fun _ member => .inl (List.mem_filter.mp member).1⟩
    | _ => exact nomatch about
  | resetInlet id' =>
    obtain rfl := Option.some.inj about
    exact touches_setInlet (fun _ _ member => nomatch member) fun _ _ => rfl
  | changeInput id' change =>
    obtain rfl := Option.some.inj about
    change bay.Touches (bay.attempt ((bay.port id').map _)) id' _ _
    have same : ∀ f : Port ι ο η → Patchbay ι ο η,
        (bay.port id').map f = bay.port id' >>= fun p => .ok (f p) := by
      intro f
      cases bay.port id' <;> rfl
    rw [same]
    refine touches_bind fun p found => ?_
    exact touches_present (fun p => Act.change p (.changeInput id' change)) found
  | changeOutlet id' change =>
    obtain rfl := Option.some.inj about
    exact touches_outlet change

theorem poll_kept {α : Type} {f : Port ι ο η → α} (kept : ∀ p o, f { p with outlet := o } = f p)
    (bay : Patchbay ι ο η) : bay.poll.1.ports.map f = bay.ports.map fun p => f p.passed := by
  have decoded := congrArg (List.map f) bay.decoded_ports
  rw [List.map_map] at decoded
  exact (deliverAll_kept kept _ _).trans decoded

theorem length_poll (bay : Patchbay ι ο η) : bay.poll.1.ports.length = bay.ports.length := by
  have kept : bay.poll.1.ports.map (fun _ => ()) = bay.ports.map fun _ => () :=
    poll_kept (fun _ _ => rfl) bay
  have length := congrArg List.length kept
  rwa [List.length_map, List.length_map] at length

theorem poll_port {i : Nat} {q : Port ι ο η} (found : bay.poll.1.ports[i]? = some q) :
    ∃ p, bay.ports[i]? = some p ∧ q.inlet = p.passed.inlet ∧ q.input = p.passed.input := by
  have here : (bay.poll.1.ports.map fun p => (p.inlet, p.input))[i]? = some (q.inlet, q.input) := by
    rw [List.getElem?_map, found]
    rfl
  rw [poll_kept (fun _ _ => rfl), List.getElem?_map] at here
  obtain ⟨p, before, same⟩ := Option.map_eq_some_iff.mp here
  obtain ⟨inlet, input⟩ := Prod.mk.inj same
  exact ⟨p, before, inlet.symm, input.symm⟩

theorem poll_outlet? (bay : Patchbay ι ο η) (id : PortId) :
    bay.poll.1.outlet? id =
      (bay.outlet? id).map (·.emitAll (bay.pump.1.decode.1.deliveries id)) := by
  rw [← (silent_decoded bay).outlets]
  exact bay.pump.1.decode.1.deliver_outlet? id

theorem Proper.poll (proper : bay.Proper) : bay.poll.1.Proper := by
  refine ⟨?_, ?_, ?_⟩
  · intro i q found
    obtain ⟨p, before, inlet, -⟩ := poll_port found
    rw [inlet, p.passed_spec.source]
    exact proper.sources i p before
  · intro q member
    obtain ⟨i, found⟩ := List.mem_iff_getElem?.mp member
    obtain ⟨p, before, inlet, -⟩ := poll_port found
    rw [inlet, p.passed_spec.handlers]
    exact proper.handlers p (List.mem_of_getElem? before)
  · intro r member
    rw [poll_outlet?, Option.isSome_map]
    exact proper.routes r member

theorem Proper.act {a : Act ι ο η} (proper : bay.Proper) (allowed : a.Allowed) :
    (bay.act a).Proper := by
  cases about : a.port? with
  | some id =>
    exact (act_touches about).proper proper (change_source a)
      (fun _ own => change_handlers allowed own) (change_outlet a)
  | none =>
    cases a with
    | operation op =>
      cases op with
      | addPort name output =>
        refine attempt_cases proper fun _ through => ?_
        obtain ⟨⟨bay', id⟩, added, rfl⟩ := map_ok through
        exact proper.addPort added
      | addRoute r => exact attempt_cases proper fun _ added => proper.addRoute added
      | observe on => exact ⟨proper.sources, proper.handlers, proper.routes⟩
      | poll => exact proper.poll
      | _ => exact nomatch about
    | _ => exact nomatch about

theorem Proper.actAll {acts : List (Act ι ο η)} (proper : bay.Proper)
    (allowed : ∀ a ∈ acts, a.Allowed) : (bay.actAll acts).Proper := by
  induction acts generalizing bay with
  | nil => exact proper
  | cons a rest ih =>
    obtain ⟨now, later⟩ := List.forall_mem_cons.mp allowed
    exact ih (proper.act now) later

omit [ByteInput ι] [ByteOutput ο] in
theorem proper_new (settings : Settings) : (new settings : Patchbay ι ο η).Proper := by
  refine ⟨?_, ?_, ?_⟩
  · intro i p found
    simp [new] at found
  · exact fun _ member => nomatch member
  · exact fun _ member => nomatch member

end Patchbay

end MidiPatch
