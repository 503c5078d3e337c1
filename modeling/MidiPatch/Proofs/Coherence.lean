import MidiPatch.Proofs.Routing

/-!
# The shape of a patchbay

Ports come and never go. Whatever happens to a patchbay, each port keeps its place, its name, its
source number and its outlet; routes are only added, between ports that are there; and the right to
fill a queue leaves a port once, while no input is attached to it.
-/

namespace MidiPatch

namespace Patchbay

variable {ι ο η : Type}

/-! ### One act -/

/-- What stays of a port whatever happens to it. -/
structure Port.Keeps (p q : Port ι ο η) : Prop where
  name : q.name = p.name
  source : q.inlet.source = p.inlet.source
  outlet : q.outlet.isSome = p.outlet.isSome
  fed : (p.input.isSome = true → p.producerHeld = true) → q.input.isSome = true →
    q.producerHeld = true
  gone : p.producerHeld = false → q.producerHeld = false

theorem Port.Keeps.refl (p : Port ι ο η) : p.Keeps p :=
  ⟨rfl, rfl, rfl, fun fed => fed, fun gone => gone⟩

theorem Port.Keeps.trans {p q r : Port ι ο η} (first : p.Keeps q) (second : q.Keeps r) :
    p.Keeps r :=
  ⟨second.name.trans first.name, second.source.trans first.source,
    second.outlet.trans first.outlet, second.fed ∘ first.fed, second.gone ∘ first.gone⟩

/-- All that an act can make of the ports and the routes. -/
inductive Alters (bay : Patchbay ι ο η) : Patchbay ι ο η → Prop
  | keeps {bay' : Patchbay ι ο η} (length : bay'.ports.length = bay.ports.length)
      (ports : ∀ (i : Nat) p q, bay.ports[i]? = some p → bay'.ports[i]? = some q → p.Keeps q)
      (routes : bay'.routes = bay.routes) : Alters bay bay'
  | addsPort {bay' : Patchbay ι ο η} {name : String} {output : Option ο} {id : PortId}
      (added : bay.addPort name output = .ok (bay', id)) : Alters bay bay'
  | addsRoute {r : Route} (source : r.source.index < bay.ports.length)
      (destination : (bay.outlet? r.destination).isSome = true) :
      Alters bay { bay with routes := bay.routes ++ [r] }

variable {bay bay' : Patchbay ι ο η} {id : PortId}

theorem alters_of_eq (ports : bay'.ports = bay.ports) (routes : bay'.routes = bay.routes) :
    bay.Alters bay' := by
  refine .keeps (congrArg List.length ports) (fun i p q before after => ?_) routes
  rw [ports] at after
  obtain rfl := Option.some.inj (before.symm.trans after)
  exact .refl p

theorem Alters.refl (bay : Patchbay ι ο η) : bay.Alters bay := alters_of_eq rfl rfl

theorem change_keeps [ByteOutput ο] (a : Act ι ο η) (p : Port ι ο η) : p.Keeps (a.change p) := by
  have source := change_source a p
  have outlet := change_outlet a p
  cases a with
  | operation op =>
    cases op with
    | attachInput id input =>
      rw [Act.change]
      split
      · next held => exact ⟨rfl, rfl, rfl, fun _ _ => held, fun gone => gone⟩
      · exact .refl p
    | takeProducer id =>
      rw [Act.change]
      split
      · next free =>
        obtain ⟨unattached, -⟩ := Bool.and_eq_true_iff.mp free
        refine ⟨rfl, rfl, rfl, fun _ attached => ?_, fun _ => rfl⟩
        rw [Option.isNone_iff_eq_none.mp unattached] at attached
        exact absurd attached Bool.false_ne_true
      · exact .refl p
    | _ => exact ⟨rfl, source, outlet, fun fed => fed, fun gone => gone⟩
  | changeInput id change =>
    refine ⟨rfl, rfl, rfl, fun fed attached => fed ?_, fun gone => gone⟩
    exact Option.isSome_map.symm.trans attached
  | _ => exact ⟨rfl, source, outlet, fun fed => fed, fun gone => gone⟩

theorem Touches.alters {change : Port ι ο η → Port ι ο η} {hears : Bool}
    (touches : bay.Touches bay' id change hears) (keeps : ∀ p : Port ι ο η, p.Keeps (change p)) :
    bay.Alters bay' := by
  refine .keeps ?_ (fun i p q before after => ?_) touches.routes
  · rw [touches.ports, List.length_modify]
  · obtain ⟨p', before', rfl⟩ := touches.port after
    obtain rfl := Option.some.inj (before.symm.trans before')
    split
    · exact keeps p
    · exact .refl p

theorem addPort_new {name : String} {output : Option ο}
    (added : bay.addPort name output = .ok (bay', id)) :
    bay.hasName name = false ∧ bay.ports.length < 256 := by
  unfold addPort at added
  split at added
  · exact nomatch added
  · next new =>
    split at added
    · next room => exact ⟨Bool.eq_false_iff.mpr new, room⟩
    · exact nomatch added

theorem addRoute_alters {r : Route} (added : bay.addRoute r = .ok bay') : bay.Alters bay' := by
  obtain ⟨destination, rfl⟩ := addRoute_ok added
  obtain ⟨p, source, -⟩ := bind_ok added
  exact .addsRoute (List.getElem?_eq_some_iff.mp (port_ok source)).1 destination

section

variable [ByteInput ι] [ByteOutput ο]

omit [ByteOutput ο] in
theorem passed_keeps (p : Port ι ο η) : p.Keeps p.passed := by
  have passed := p.passed_spec
  obtain ⟨⟨input, pumped, -⟩, -, -⟩ := p.pump_cases
  have name : p.passed.name = p.name := by rw [Port.passed, pumped]
  have held : p.passed.producerHeld = p.producerHeld := by rw [Port.passed, pumped]
  refine ⟨name, passed.source, congrArg Option.isSome passed.outlet, fun fed attached => ?_, ?_⟩
  · cases before : p.input with
    | none =>
      rw [passed.input before] at attached
      exact nomatch attached
    | some input' =>
      rw [before] at fed
      exact held.trans (fed rfl)
  · rw [held]
    exact fun gone => gone

theorem poll_keeps {i : Nat} {p q : Port ι ο η} (before : bay.ports[i]? = some p)
    (after : bay.poll.1.ports[i]? = some q) : p.Keeps q := by
  have decoded : bay.pump.1.decode.1.ports[i]? = some p.passed := by
    rw [decoded_ports, List.getElem?_map, before]
    rfl
  -- The delivery changes outlets only, and takes none away.
  have kept := congrArg (·[i]?)
    (poll_kept (f := fun p : Port ι ο η => (p.name, p.inlet, p.input, p.producerHeld))
      (fun _ _ => rfl) bay)
  simp only [List.getElem?_map, before, after, Option.map_some, Option.some.injEq,
    Prod.mk.injEq] at kept
  obtain ⟨name, inlet, input, held⟩ := kept
  have outlet : (outletAt bay.poll.1.ports i).isSome =
      (outletAt bay.pump.1.decode.1.ports i).isSome :=
    (congrArg Option.isSome (deliverAll_outletAt ..)).trans Option.isSome_map
  rw [outletAt, outletAt, after, decoded, Option.bind_some, Option.bind_some] at outlet
  refine (passed_keeps p).trans ⟨name, congrArg Inlet.source inlet, outlet, ?_, ?_⟩
  · rw [input, held]
    exact fun fed => fed
  · rw [held]
    exact fun gone => gone

theorem act_alters (bay : Patchbay ι ο η) (a : Act ι ο η) : bay.Alters (bay.act a) := by
  cases about : a.port? with
  | some id => exact (act_touches about).alters (change_keeps a)
  | none =>
    cases a with
    | operation op =>
      cases op with
      | addPort name output =>
        refine attempt_cases (.refl bay) fun _ through => ?_
        obtain ⟨⟨bay', id⟩, added, rfl⟩ := map_ok through
        exact .addsPort added
      | addRoute r => exact attempt_cases (.refl bay) fun _ added => addRoute_alters added
      | observe on => exact alters_of_eq rfl rfl
      | poll =>
        exact .keeps (length_poll bay) (fun i p q before after => poll_keeps before after) rfl
      | _ => exact nomatch about
    | _ => exact nomatch about

end

/-! ### Coherent patchbays -/

structure Coherent (bay : Patchbay ι ο η) : Prop where
  few : bay.ports.length ≤ 256
  names : (bay.ports.map Port.name).Nodup
  sources : ∀ (i : Nat) p, bay.ports[i]? = some p → p.inlet.source.number.toNat = i
  fed : ∀ (i : Nat) p, bay.ports[i]? = some p → p.input.isSome = true → p.producerHeld = true
  routes : ∀ r ∈ bay.routes,
    r.source.index < bay.ports.length ∧ (bay.outlet? r.destination).isSome = true

theorem coherent_new (settings : Settings) : (new settings : Patchbay ι ο η).Coherent := by
  refine ⟨Nat.zero_le _, List.nodup_nil, ?_, ?_, fun _ member => nomatch member⟩
  · intro i p found
    exact absurd found (by simp [new])
  · intro i p found
    exact absurd found (by simp [new])

/-- Every port is still there. -/
theorem Alters.stays (alters : bay.Alters bay') {i : Nat} {p : Port ι ο η}
    (found : bay.ports[i]? = some p) : ∃ q, bay'.ports[i]? = some q ∧ p.Keeps q := by
  have inside := (List.getElem?_eq_some_iff.mp found).1
  cases alters with
  | keeps length ports =>
    rw [← length] at inside
    exact ⟨_, List.getElem?_eq_getElem inside, ports i _ _ found (List.getElem?_eq_getElem inside)⟩
  | addsPort added =>
    obtain ⟨-, rfl⟩ := addPort_ok added
    exact ⟨p, (List.getElem?_append_left inside).trans found, .refl p⟩
  | addsRoute => exact ⟨p, found, .refl p⟩

/-- Every port was there or is new. -/
theorem Alters.origin (alters : bay.Alters bay') {i : Nat} {q : Port ι ο η}
    (found : bay'.ports[i]? = some q) :
    (∃ p, bay.ports[i]? = some p ∧ p.Keeps q) ∨
      ∃ id name output, id.index = i ∧ q = bay.newPort id name output := by
  cases alters with
  | keeps length ports =>
    have inside := (List.getElem?_eq_some_iff.mp found).1
    rw [length] at inside
    exact .inl ⟨_, List.getElem?_eq_getElem inside,
      ports i _ _ (List.getElem?_eq_getElem inside) found⟩
  | addsPort added =>
    rcases addPort_port added found with old | ⟨place, rfl⟩
    · exact .inl ⟨q, old, .refl q⟩
    · exact .inr ⟨_, _, _, (addPort_ok added).1.trans place.symm, rfl⟩
  | addsRoute => exact .inl ⟨q, found, .refl q⟩

theorem Alters.leads (alters : bay.Alters bay') (leads : (bay.outlet? id).isSome = true) :
    (bay'.outlet? id).isSome = true := by
  obtain ⟨o, present⟩ := Option.isSome_iff_exists.mp leads
  obtain ⟨p, found, outlet⟩ := outlet?_some present
  obtain ⟨q, after, keeps⟩ := alters.stays found
  rw [outlet?_eq after, keeps.outlet, outlet]
  rfl

theorem Alters.length_le (alters : bay.Alters bay') : bay.ports.length ≤ bay'.ports.length := by
  cases alters with
  | keeps length => exact Nat.le_of_eq length.symm
  | addsPort added =>
    obtain ⟨-, rfl⟩ := addPort_ok added
    exact List.length_append ▸ Nat.le_add_right ..
  | addsRoute => exact Nat.le_refl _

theorem Alters.names (alters : bay.Alters bay') (names : (bay.ports.map Port.name).Nodup) :
    (bay'.ports.map Port.name).Nodup := by
  cases alters with
  | keeps length ports =>
    have same : bay'.ports.map Port.name = bay.ports.map Port.name := by
      refine List.ext_getElem (by simp [length]) fun i inside' inside => ?_
      rw [List.getElem_map, List.getElem_map]
      rw [List.length_map] at inside inside'
      exact (ports i _ _ (List.getElem?_eq_getElem inside) (List.getElem?_eq_getElem inside')).name
    rwa [same]
  | @addsPort _ name output id added =>
    have new := (addPort_new added).1
    obtain ⟨-, rfl⟩ := addPort_ok added
    rw [List.map_append, List.nodup_append]
    refine ⟨names, List.nodup_singleton _, fun n old n' last => ?_⟩
    obtain ⟨p, member, rfl⟩ := List.mem_map.mp old
    rw [List.mem_singleton.mp last]
    exact fun same => List.any_eq_false.mp new p member (decide_eq_true same)
  | addsRoute => exact names

theorem Alters.coherent (alters : bay.Alters bay') (coherent : bay.Coherent) : bay'.Coherent := by
  refine ⟨?_, alters.names coherent.names, ?_, ?_, ?_⟩
  · cases alters with
    | keeps length => exact length ▸ coherent.few
    | addsPort added =>
      have room := (addPort_new added).2
      obtain ⟨-, rfl⟩ := addPort_ok added
      rw [List.length_append, List.length_singleton]
      exact room
    | addsRoute => exact coherent.few
  · intro i q found
    rcases alters.origin found with ⟨p, before, keeps⟩ | ⟨id, name, output, place, rfl⟩
    · rw [keeps.source]
      exact coherent.sources i p before
    · exact place
  · intro i q found
    rcases alters.origin found with ⟨p, before, keeps⟩ | ⟨id, name, output, place, rfl⟩
    · exact keeps.fed (coherent.fed i p before)
    · exact fun _ => rfl
  · have kept : ∀ r ∈ bay.routes,
        r.source.index < bay'.ports.length ∧ (bay'.outlet? r.destination).isSome = true := by
      intro r member
      obtain ⟨source, destination⟩ := coherent.routes r member
      exact ⟨Nat.lt_of_lt_of_le source alters.length_le, alters.leads destination⟩
    cases alters with
    | keeps length ports same => exact same ▸ kept
    | addsPort added =>
      obtain ⟨-, rfl⟩ := addPort_ok added
      exact kept
    | addsRoute source destination =>
      intro r member
      rcases List.mem_append.mp member with old | new
      · exact kept r old
      · rw [List.mem_singleton.mp new]
        exact ⟨source, destination⟩

/-! ### Names and numbers -/

/-- A name leads to its port. -/
theorem portId?_of_names (names : (bay.ports.map Port.name).Nodup) {i : Nat} {p : Port ι ο η}
    (found : bay.ports[i]? = some p) : bay.portId? p.name = some { number := i.toUInt8 } := by
  obtain ⟨inside, rfl⟩ := List.getElem?_eq_some_iff.mp found
  have first : bay.ports.findIdx? (·.name = bay.ports[i].name) = some i := by
    refine List.findIdx?_eq_some_iff_getElem.mpr ⟨inside, decide_eq_true rfl, ?_⟩
    intro j before same
    have outside : j < bay.ports.length := Nat.lt_trans before inside
    have twice : (bay.ports.map Port.name)[i]? = (bay.ports.map Port.name)[j]? := by
      rw [List.getElem?_map, List.getElem?_map, List.getElem?_eq_getElem inside,
        List.getElem?_eq_getElem outside]
      exact congrArg some (of_decide_eq_true same).symm
    have place : i < (bay.ports.map Port.name).length := by rwa [List.length_map]
    exact absurd ((List.getElem?_inj place names).mp twice) (Nat.ne_of_gt before)
  unfold portId?
  rw [first]
  rfl

theorem portName?_some {name : String} (named : bay.portName? id = some name) :
    ∃ p, bay.ports[id.index]? = some p ∧ p.name = name :=
  Option.map_eq_some_iff.mp named

theorem portName?_found {p : Port ι ο η} (found : bay.ports[id.index]? = some p) :
    bay.portName? id = some p.name := by
  rw [portName?, found]
  rfl

theorem portId?_of_portName? (names : (bay.ports.map Port.name).Nodup) {name : String}
    (named : bay.portName? id = some name) : bay.portId? name = some id := by
  obtain ⟨p, found, rfl⟩ := portName?_some named
  rw [portId?_of_names names found]
  exact congrArg (fun number => some (PortId.mk number)) UInt8.ofNat_toNat

theorem Alters.portName? (alters : bay.Alters bay') {name : String}
    (named : bay.portName? id = some name) : bay'.portName? id = some name := by
  obtain ⟨p, found, rfl⟩ := portName?_some named
  obtain ⟨q, after, keeps⟩ := alters.stays found
  rw [portName?_found after, keeps.name]

theorem addPort_portName? {name : String} {output : Option ο}
    (added : bay.addPort name output = .ok (bay', id)) : bay'.portName? id = some name := by
  obtain ⟨last, rfl⟩ := addPort_ok added
  unfold Patchbay.portName?
  rw [last, List.getElem?_concat_length]
  rfl

/-! ### Producers -/

/-- The port is there, and the right to fill its queue is not with it. -/
def Gone (bay : Patchbay ι ο η) (id : PortId) : Prop :=
  ∃ p, bay.ports[id.index]? = some p ∧ p.producerHeld = false

theorem Alters.gone (alters : bay.Alters bay') (gone : bay.Gone id) : bay'.Gone id := by
  obtain ⟨p, found, left⟩ := gone
  obtain ⟨q, after, keeps⟩ := alters.stays found
  exact ⟨q, after, keeps.gone left⟩

theorem Coherent.detached (coherent : bay.Coherent) {p : Port ι ο η}
    (found : bay.ports[id.index]? = some p) (left : p.producerHeld = false) : p.input = none := by
  cases attached : p.input with
  | none => rfl
  | some input =>
    have held := coherent.fed id.index p found (attached ▸ rfl)
    exact absurd (held.symm.trans left) nofun

theorem takeProducer_free {p : Port ι ο η} (found : bay.ports[id.index]? = some p)
    (free : (p.input.isNone && p.producerHeld) = true) : bay.takeProducer id =
      .ok (bay.setPort id { p with producerHeld := false }, some { port := id }) := by
  rw [takeProducer, port_found found]
  exact if_pos free

theorem takeProducer_some {producer : Producer}
    (taken : bay.takeProducer id = .ok (bay', some producer)) :
    producer.port = id ∧ ¬ bay.Gone id ∧ bay'.Gone id := by
  obtain ⟨p, found, taken⟩ := bind_ok taken
  have found := port_ok found
  split at taken
  · next free =>
    obtain ⟨rfl, same⟩ := Prod.mk.inj (Except.ok.inj taken)
    obtain rfl := Option.some.inj same
    obtain ⟨-, held⟩ := Bool.and_eq_true_iff.mp free
    refine ⟨rfl, ?_, _, List.getElem?_set_self (List.getElem?_eq_some_iff.mp found).1, rfl⟩
    rintro ⟨p', found', left⟩
    obtain rfl := Option.some.inj (found.symm.trans found')
    exact absurd (held.symm.trans left) nofun
  · exact nomatch (Prod.mk.inj (Except.ok.inj taken)).2

/-- What an act hands out. -/
def handsOut (bay : Patchbay ι ο η) : Act ι ο η → List Producer
  | .operation (.takeProducer id) => ((bay.takeProducer id).toOption.bind (·.2)).toList
  | _ => []

section

variable [ByteInput ι] [ByteOutput ο]

/-- All that is handed out in the course of acts. -/
def handedOut (bay : Patchbay ι ο η) : List (Act ι ο η) → List Producer
  | [] => []
  | a :: rest => bay.handsOut a ++ (bay.act a).handedOut rest

theorem handsOut_cases (bay : Patchbay ι ο η) (a : Act ι ο η) :
    bay.handsOut a = [] ∨ ∃ producer, bay.handsOut a = [producer] ∧
      ¬ bay.Gone producer.port ∧ (bay.act a).Gone producer.port := by
  cases a with
  | operation op =>
    cases op with
    | takeProducer id =>
      cases taken : bay.takeProducer id with
      | error e =>
        left
        rw [handsOut, taken]
        rfl
      | ok done =>
        obtain ⟨bay', given⟩ := done
        cases given with
        | none =>
          left
          rw [handsOut, taken]
          rfl
        | some producer =>
          obtain ⟨rfl, before, after⟩ := takeProducer_some taken
          have next : bay.act (.operation (.takeProducer producer.port)) = bay' := by
            change bay.attempt ((bay.takeProducer producer.port).map (·.1)) = bay'
            rw [taken]
            rfl
          right
          refine ⟨producer, ?_, before, ?_⟩
          · rw [handsOut, taken]
            rfl
          · rwa [next]
    | _ => exact .inl rfl
  | _ => exact .inl rfl

/-- What holds of a patchbay still holds after any acts, if no alteration ends it. -/
theorem actAll_keeps {P : Patchbay ι ο η → Prop} (acts : List (Act ι ο η))
    (step : ∀ {bay bay' : Patchbay ι ο η}, bay.Alters bay' → P bay → P bay') (start : P bay) :
    P (bay.actAll acts) :=
  List.foldlRecOn acts act start fun bay holds a _ => step (bay.act_alters a) holds

theorem actAll_portName? {name : String} (named : bay.portName? id = some name)
    (later : List (Act ι ο η)) : (bay.actAll later).portName? id = some name :=
  actAll_keeps (P := fun bay => bay.portName? id = some name) later
    (fun alters => alters.portName?) named

/-- A producer that is gone is not handed out again. -/
theorem Gone.not_handedOut (gone : bay.Gone id) (acts : List (Act ι ο η)) :
    ∀ producer ∈ bay.handedOut acts, producer.port ≠ id := by
  induction acts generalizing bay with
  | nil => exact fun _ member => nomatch member
  | cons a rest ih =>
    intro producer member
    rcases List.mem_append.mp member with now | later
    · rcases bay.handsOut_cases a with none | ⟨only, one, held, -⟩
      · rw [none] at now
        exact nomatch now
      · rw [one, List.mem_singleton] at now
        rintro rfl
        exact held (now ▸ gone)
    · exact ih ((bay.act_alters a).gone gone) producer later

theorem handedOut_gone (acts : List (Act ι ο η)) :
    ∀ producer ∈ bay.handedOut acts, (bay.actAll acts).Gone producer.port := by
  induction acts generalizing bay with
  | nil => exact fun _ member => nomatch member
  | cons a rest ih =>
    intro producer member
    rcases List.mem_append.mp member with now | later
    · rcases bay.handsOut_cases a with none | ⟨only, one, -, gone⟩
      · rw [none] at now
        exact nomatch now
      · rw [one, List.mem_singleton] at now
        rw [now]
        exact actAll_keeps rest Alters.gone gone
    · exact ih producer later

theorem handedOut_nodup (bay : Patchbay ι ο η) (acts : List (Act ι ο η)) :
    (bay.handedOut acts).Nodup := by
  induction acts generalizing bay with
  | nil => exact List.nodup_nil
  | cons a rest ih =>
    rcases bay.handsOut_cases a with none | ⟨producer, one, -, gone⟩
    · rw [handedOut, none]
      exact ih (bay.act a)
    · rw [handedOut, one]
      refine List.nodup_cons.mpr ⟨fun again => ?_, ih (bay.act a)⟩
      exact gone.not_handedOut rest producer again rfl

theorem poll_routed (routes : ∀ r ∈ bay.routes, (bay.outlet? r.destination).isSome = true) :
    bay.poll.2.work.routed = (bay.pump.1.decode.1.undelivered.flatMap fun x =>
      routesOf bay.routes (.ofSource x.1) x.2).length := by
  have counted : bay.poll.2.work.routed = bay.handed.length := rfl
  rw [counted, handed_eq routes, handovers_due, List.length_flatMap, List.length_flatMap]
  simp only [List.length_map]

/--
After any acts, failing ones included. There are at most 256 ports, their names differ and lead to
them, and a port keeps its name for ever. Each port bears its own number as the source of its inlet.
Routes lead from ports to outlets, so a pass hands each message over for every route that lets it
through. A port with an attached input still holds its producer. No producer is handed out twice,
and one that is handed out leaves its port without an input for ever.
-/
theorem acts_keep_shape (settings : Settings) (acts : List (Act ι ο η)) :
    let bay : Patchbay ι ο η := (new settings).actAll acts
    bay.ports.length ≤ 256 ∧ (bay.ports.map Port.name).Nodup ∧
      (∀ id name, bay.portName? id = some name →
        bay.portId? name = some id ∧ ∀ later, (bay.actAll later).portName? id = some name) ∧
      (∀ name output bay' id, bay.addPort name output = .ok (bay', id) →
        ∀ later, (bay'.actAll later).portName? id = some name) ∧
      (∀ (i : Nat) p, bay.ports[i]? = some p → p.inlet.source.number.toNat = i) ∧
      (∀ r ∈ bay.routes, (bay.portName? r.source).isSome ∧ (bay.outlet? r.destination).isSome) ∧
      bay.poll.2.work.routed = (bay.pump.1.decode.1.undelivered.flatMap fun x =>
        routesOf bay.routes (.ofSource x.1) x.2).length ∧
      (∀ p ∈ bay.ports, p.input.isSome → p.producerHeld) ∧
      ((new settings : Patchbay ι ο η).handedOut acts).Nodup ∧
      (∀ producer ∈ (new settings : Patchbay ι ο η).handedOut acts,
        ∃ p, bay.ports[producer.port.index]? = some p ∧ p.producerHeld = false ∧ p.input = none) ∧
      ∀ id p, bay.ports[id.index]? = some p → p.input.isSome →
        bay.takeProducer id = .ok (bay, none) := by
  intro bay
  have coherent : bay.Coherent := actAll_keeps acts Alters.coherent (coherent_new settings)
  refine ⟨coherent.few, coherent.names, ?_, ?_, coherent.sources, ?_,
    poll_routed fun r member => (coherent.routes r member).2, ?_, handedOut_nodup .., ?_, ?_⟩
  · intro id name named
    exact ⟨portId?_of_portName? coherent.names named, actAll_portName? named⟩
  · intro name output bay' id added
    exact actAll_portName? (addPort_portName? added)
  · intro r member
    obtain ⟨source, destination⟩ := coherent.routes r member
    refine ⟨?_, destination⟩
    rw [portName?, List.getElem?_eq_getElem source]
    rfl
  · intro p member attached
    obtain ⟨i, found⟩ := List.mem_iff_getElem?.mp member
    exact coherent.fed i p found attached
  · intro producer member
    obtain ⟨p, found, left⟩ := handedOut_gone acts producer member
    exact ⟨p, found, left, coherent.detached found left⟩
  · intro id p found attached
    obtain ⟨input, attached⟩ := Option.isSome_iff_exists.mp attached
    have present : bay.port id = .ok p := by rw [port, found]
    have kept : ¬ (p.input.isNone && p.producerHeld) = true := by
      rw [attached]
      exact Bool.false_ne_true
    rw [takeProducer, present]
    exact if_neg kept

end

end Patchbay

end MidiPatch
