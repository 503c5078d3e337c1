import MidiPatch.Patchbay.Assembly
import MidiPatch.Proofs.Checking
import MidiPatch.Proofs.Coherence

/-!
# Building from a setup that passed the check

The check and the patchbay refuse for reasons of their own. Whatever passes the first is taken by
the second: its ports, its routes, and then an input for each port that has one.
-/

namespace MidiPatch

namespace Patchbay

variable {ι ο η ε κ δ : Type} {bay : Patchbay ι ο η}

/-! ### Ports -/

/-- What a port of a setup is built into. -/
structure Port.Built (p : Setup.Port) (q : Port ι ο η) : Prop where
  name : q.name = p.name
  outlet : q.outlet.isSome = p.output.isSome
  held : q.producerHeld = true
  unattached : q.input = none

/-- An output is opened for each port that has one, and for no other. -/
def Opens (openOutput : Setup.Port → Except ε (Option ο)) (ports : List Setup.Port) : Prop :=
  ∀ p ∈ ports, ∃ output, openOutput p = .ok output ∧ output.isSome = p.output.isSome

theorem built_names {ports : List Setup.Port} {built : List (Port ι ο η)}
    (each : List.Forall₂ Port.Built ports built) :
    built.map Port.name = ports.map Setup.Port.name := by
  induction each with
  | nil => rfl
  | cons first _ ih => rw [List.map_cons, List.map_cons, first.name, ih]

theorem addPort_room {name : String} (output : Option ο)
    (new : name ∉ bay.ports.map Port.name) (room : bay.ports.length < 256) :
    ∃ id, bay.addPort name output =
      .ok ({ bay with ports := bay.ports ++ [bay.newPort id name output] }, id) := by
  have unused : ¬ bay.hasName name = true := by
    intro used
    obtain ⟨p, member, same⟩ := List.any_eq_true.mp used
    exact new (List.mem_map.mpr ⟨p, member, of_decide_eq_true same⟩)
  refine ⟨{ number := bay.ports.length.toUInt8 }, ?_⟩
  rw [addPort, if_neg unused, if_pos room]

theorem addSetupPort_built {openOutput : Setup.Port → Except ε (Option ο)} {p : Setup.Port}
    (opens : ∃ output, openOutput p = .ok output ∧ output.isSome = p.output.isSome)
    (new : p.name ∉ bay.ports.map Port.name) (room : bay.ports.length < 256) :
    ∃ q, Port.Built p q ∧
      bay.addSetupPort openOutput p = .ok { bay with ports := bay.ports ++ [q] } := by
  obtain ⟨output, opened, outlet⟩ := opens
  obtain ⟨id, added⟩ := addPort_room output new room
  refine ⟨bay.newPort id p.name output, ⟨rfl, ?_, rfl, rfl⟩, ?_⟩
  · rw [newPort, Option.isSome_map, outlet]
  · rw [addSetupPort, opened]
    dsimp only
    rw [added]

theorem addSetupPorts_built {openOutput : Setup.Port → Except ε (Option ο)}
    {done ports : List Setup.Port} (opens : Opens openOutput ports)
    (built : List.Forall₂ Port.Built done bay.ports)
    (names : ((done ++ ports).map Setup.Port.name).Nodup) (few : (done ++ ports).length ≤ 256) :
    ∃ all, List.Forall₂ Port.Built (done ++ ports) all ∧
      bay.addSetupPorts openOutput ports = ({ bay with ports := all }, none) := by
  induction ports generalizing bay done with
  | nil => exact ⟨bay.ports, (List.append_nil done).symm ▸ built, rfl⟩
  | cons p rest ih =>
    have next : done ++ p :: rest = (done ++ [p]) ++ rest := by rw [List.append_assoc]; rfl
    have new : p.name ∉ bay.ports.map Port.name := by
      rw [List.map_append, List.nodup_append] at names
      rw [built_names built]
      exact fun old => names.2.2 _ old _ List.mem_cons_self rfl
    have room : bay.ports.length < 256 := by
      rw [← built.length_eq]
      rw [List.length_append, List.length_cons] at few
      omega
    obtain ⟨q, first, added⟩ := addSetupPort_built (opens p List.mem_cons_self) new room
    have grown : List.Forall₂ Port.Built (done ++ [p])
        ({ bay with ports := bay.ports ++ [q] } : Patchbay ι ο η).ports :=
      List.rel_append built (.cons first .nil)
    rw [next] at names few ⊢
    obtain ⟨all, each, rest_added⟩ :=
      ih (fun p member => opens p (List.mem_cons_of_mem _ member)) grown names few
    refine ⟨all, each, ?_⟩
    rw [addSetupPorts, added]
    exact rest_added

/-! ### Names -/

theorem portId?_of_map_name {bay' : Patchbay ι ο η}
    (names : bay'.ports.map Port.name = bay.ports.map Port.name) (name : String) :
    bay'.portId? name = bay.portId? name := by
  have by_names : ∀ bay : Patchbay ι ο η, bay.portId? name =
      ((bay.ports.map Port.name).findIdx? (· = name)).map fun i => { number := i.toUInt8 } := by
    intro bay
    rw [List.findIdx?_map]
    rfl
  rw [by_names, by_names, names]

/-- A port that was built is found by its name, at its place. -/
theorem built_found {ports : List Setup.Port} (built : List.Forall₂ Port.Built ports bay.ports)
    (names : (ports.map Setup.Port.name).Nodup) (few : ports.length ≤ 256) {i : Nat}
    {p : Setup.Port} (found : ports[i]? = some p) :
    ∃ (id : PortId) (q : Port ι ο η), id.index = i ∧ bay.portId? p.name = some id ∧
      bay.ports[id.index]? = some q ∧ Port.Built p q := by
  obtain ⟨inside, rfl⟩ := List.getElem?_eq_some_iff.mp found
  have inside' : i < bay.ports.length := built.length_eq ▸ inside
  have fits : Port.Built ports[i] bay.ports[i] := built.get inside inside'
  have place : (PortId.mk i.toUInt8).index = i :=
    UInt8.toNat_ofNat_of_lt' (Nat.lt_of_lt_of_le inside few)
  have there : bay.ports[i]? = some bay.ports[i] := List.getElem?_eq_getElem inside'
  refine ⟨⟨i.toUInt8⟩, bay.ports[i], place, ?_, ?_, fits⟩
  · rw [← fits.name]
    exact portId?_of_names (built_names built ▸ names) there
  · rw [place]
    exact there

/-! ### Routes -/

/-- The ports of the patchbay that a route of a setup names. -/
structure Follows (bay : Patchbay ι ο η) (r : Setup.Route) (route : Route) : Prop where
  source : bay.portId? r.source = some route.source
  destination : bay.portId? r.destination = some route.destination
  there : route.source.index < bay.ports.length
  leads : (bay.outlet? route.destination).isSome = true
  filter : route.filter = r.filter.getD {}

theorem addRoute_leads {route : Route} (there : route.source.index < bay.ports.length)
    (leads : (bay.outlet? route.destination).isSome = true) :
    bay.addRoute route = .ok { bay with routes := bay.routes ++ [route] } := by
  obtain ⟨o, present⟩ := Option.isSome_iff_exists.mp leads
  obtain ⟨p, found, outlet⟩ := outlet?_some present
  have source : bay.port route.source = .ok bay.ports[route.source.index] :=
    port_found (List.getElem?_eq_getElem there)
  simp only [addRoute, source, port_found found, bind, Except.bind, outlet]

theorem addSetupRoute_follows {r : Setup.Route} {route : Route} (follows : bay.Follows r route) :
    bay.addSetupRoute r = .ok { bay with routes := bay.routes ++ [route] } := by
  have source : bay.namedPort r.source = .ok route.source := by rw [namedPort, follows.source]
  have destination : bay.namedPort r.destination = .ok route.destination := by
    rw [namedPort, follows.destination]
  rw [addSetupRoute, source, destination]
  change bay.addRoute ⟨route.source, route.destination, r.filter.getD {}⟩ = _
  rw [← follows.filter]
  exact addRoute_leads follows.there follows.leads

theorem addSetupRoutes_follows {R : Setup.Route → Route → Prop} {routes : List Setup.Route}
    (follows : ∀ r ∈ routes, ∃ route, bay.Follows r route ∧ R r route) :
    ∃ added, List.Forall₂ R routes added ∧
      bay.addSetupRoutes routes = .ok { bay with routes := bay.routes ++ added } := by
  -- Ports stay, so what is true of the routes that wait is true of them in every later patchbay.
  suffices later : ∀ before, ∃ added, List.Forall₂ R routes added ∧
      ({ bay with routes := before } : Patchbay ι ο η).addSetupRoutes routes =
        .ok { bay with routes := before ++ added } from later bay.routes
  induction routes with
  | nil => exact fun before => ⟨[], .nil, by rw [List.append_nil]; rfl⟩
  | cons r rest ih =>
    intro before
    obtain ⟨route, first, related⟩ := follows r List.mem_cons_self
    obtain ⟨added, each, rest_added⟩ :=
      ih (fun r member => follows r (List.mem_cons_of_mem _ member)) (before ++ [route])
    have now : ({ bay with routes := before } : Patchbay ι ο η).Follows r route :=
      ⟨first.source, first.destination, first.there, first.leads, first.filter⟩
    refine ⟨route :: added, .cons related each, ?_⟩
    rw [addSetupRoutes, addSetupRoute_follows now]
    rw [List.append_assoc] at rest_added
    exact rest_added

/-! ### Inputs -/

/-- A port of that name still holds its producer, and nothing is attached to it. -/
def Ready (bay : Patchbay ι ο η) (name : String) : Prop :=
  ∃ (id : PortId) (q : Port ι ο η), bay.portId? name = some id ∧ bay.ports[id.index]? = some q ∧
    q.name = name ∧ q.producerHeld = true ∧ q.input = none

theorem setPort_names {id : PortId} {q q' : Port ι ο η} (found : bay.ports[id.index]? = some q)
    (name : q'.name = q.name) :
    (bay.setPort id q').ports.map Port.name = bay.ports.map Port.name := by
  obtain ⟨inside, rfl⟩ := List.getElem?_eq_some_iff.mp found
  have place : id.index < (bay.ports.map Port.name).length := by rwa [List.length_map]
  have same : (bay.ports.map Port.name)[id.index] = bay.ports[id.index].name :=
    List.getElem_map Port.name
  rw [setPort, List.map_set, name, ← same]
  exact List.set_getElem_self place

/-- A port gives its producer, and the others stay as they are. -/
theorem takeNamedProducer_ready {name : String} (ready : bay.Ready name) :
    ∃ (bay' : Patchbay ι ο η) (id : PortId), bay.portId? name = some id ∧
      bay.takeNamedProducer name = (.ok (bay', ⟨id⟩) : Except (ConnectError ε) _) ∧
      (∀ other, bay'.portId? other = bay.portId? other) ∧
      ∀ other, other ≠ name → bay.Ready other → bay'.Ready other := by
  obtain ⟨id, q, named, found, own, held, unattached⟩ := ready
  have taken := takeProducer_free found (by rw [unattached, held]; rfl)
  have names : (bay.setPort id { q with producerHeld := false }).ports.map Port.name =
      bay.ports.map Port.name := setPort_names found rfl
  have same := portId?_of_map_name names
  refine ⟨bay.setPort id { q with producerHeld := false }, id, named, ?_, same, ?_⟩
  · rw [takeNamedProducer, named]
    dsimp only
    rw [taken]
  · rintro other different ⟨id', q', named', found', own', free'⟩
    refine ⟨id', q', (same other).trans named', ?_, own', free'⟩
    have apart : id.index ≠ id'.index := by
      intro index
      rw [← index] at found'
      obtain rfl := Option.some.inj (found.symm.trans found')
      exact different (own'.symm.trans own)
    rw [setPort, List.getElem?_set_ne apart]
    exact found'

/-- An input that was opened for a port, with the right to fill the queue of that port. -/
def Connects (bay : Patchbay ι ο η) (opened : String → Producer → κ) (p : Setup.Port) (input : κ) :
    Prop :=
  ∃ pattern id, p.input = some pattern ∧ bay.portId? p.name = some id ∧ input = opened pattern ⟨id⟩

theorem connectInputs_ready (opened : String → Producer → κ) {ports : List Setup.Port}
    (names : (ports.map Setup.Port.name).Nodup) (ready : ∀ p ∈ ports, bay.Ready p.name) :
    ∃ (bay' : Patchbay ι ο η) (inputs : List κ),
      bay.connectInputs (fun pattern producer => (.ok (opened pattern producer) : Except δ κ))
        ports = .ok (bay', inputs) ∧
      List.Forall₂ (bay.Connects opened) (ports.filter (·.input.isSome)) inputs := by
  induction ports generalizing bay with
  | nil => exact ⟨bay, [], rfl, .nil⟩
  | cons p rest ih =>
    obtain ⟨unlike, names⟩ := List.nodup_cons.mp names
    have ready_rest : ∀ p ∈ rest, bay.Ready p.name :=
      fun p member => ready p (List.mem_cons_of_mem _ member)
    cases input : p.input with
    | none =>
      obtain ⟨bay', inputs, connected, each⟩ := ih names ready_rest
      refine ⟨bay', inputs, ?_, ?_⟩
      · rw [connectInputs, input]
        exact connected
      · rwa [List.filter_cons_of_neg (by rw [input]; exact Bool.false_ne_true)]
    | some pattern =>
      obtain ⟨after, id, named, taken, same, still⟩ :=
        takeNamedProducer_ready (ε := δ) (ready p List.mem_cons_self)
      have ready_after : ∀ p ∈ rest, after.Ready p.name := by
        intro other member
        refine still _ (fun equal => ?_) (ready_rest other member)
        exact unlike (List.mem_map.mpr ⟨other, member, equal⟩)
      obtain ⟨bay', inputs, connected, each⟩ := ih names ready_after
      refine ⟨bay', opened pattern ⟨id⟩ :: inputs, ?_, ?_⟩
      · rw [connectInputs, input]
        dsimp only
        rw [taken]
        change (after.connectInputs _ rest >>= fun r => .ok (r.1, opened pattern ⟨id⟩ :: r.2)) = _
        rw [connected]
        rfl
      · rw [List.filter_cons_of_pos (by rw [input]; rfl)]
        refine .cons ⟨pattern, id, input, named, rfl⟩ (each.imp ?_)
        rintro other i ⟨pattern', id', input', named', rfl⟩
        exact ⟨pattern', id', input', (same _).symm.trans named', rfl⟩

/-! ### The whole -/

/-- A route between the ports that a route of a setup names, and with its filter. -/
structure Carries (s : Setup) (r : Setup.Route) (route : Route) : Prop where
  source : (s.ports[route.source.index]?).map (·.name) = some r.source
  destination : (s.ports[route.destination.index]?).map (·.name) = some r.destination
  channels : route.filter.channels = r.filter.bind (·.channels)
  kinds : route.filter.kinds = r.filter.bind (·.kinds)

theorem built_route {s : Setup} {r : Setup.Route} (consistent : s.Consistent)
    (built : List.Forall₂ Port.Built s.ports bay.ports) (joins : s.Joins r) :
    ∃ route, bay.Follows r route ∧ Carries s r route := by
  have few : s.ports.length ≤ 256 := consistent.few.trans (by omega)
  obtain ⟨p, member, name, -⟩ := joins.source
  obtain ⟨p', member', name', output⟩ := joins.destination
  obtain ⟨i, at_i⟩ := List.mem_iff_getElem?.mp member
  obtain ⟨j, at_j⟩ := List.mem_iff_getElem?.mp member'
  obtain ⟨id, q, place, named, found, -⟩ := built_found built consistent.names few at_i
  obtain ⟨id', q', place', named', found', built'⟩ := built_found built consistent.names few at_j
  refine ⟨⟨id, id', r.filter.getD {}⟩, ?_, ?_⟩
  · refine ⟨name ▸ named, name' ▸ named', (List.getElem?_eq_some_iff.mp found).1, ?_, rfl⟩
    rw [outlet?_eq found', built'.outlet, output]
  · refine ⟨?_, ?_, ?_, ?_⟩
    · rw [place, at_i, ← name]
      rfl
    · rw [place', at_j, ← name']
      rfl
    · cases r.filter <;> rfl
    · cases r.filter <;> rfl

theorem ofSetup_built {s : Setup} {openOutput : Setup.Port → Except ε (Option ο)}
    (consistent : s.Consistent) (opens : Opens openOutput s.ports) :
    ∃ bay : Patchbay ι ο η, ofSetup s openOutput = .ok bay ∧ bay.settings = s.settings ∧
      List.Forall₂ Port.Built s.ports bay.ports ∧ List.Forall₂ (Carries s) s.routes bay.routes := by
  have few : s.ports.length ≤ 256 := consistent.few.trans (by omega)
  have empty : List.Forall₂ Port.Built [] (new s.settings : Patchbay ι ο η).ports := .nil
  obtain ⟨ports, built, ports_added⟩ := addSetupPorts_built opens empty consistent.names few
  let bay : Patchbay ι ο η := { settings := s.settings, ports }
  have built : List.Forall₂ Port.Built s.ports bay.ports := built
  have follows : ∀ r ∈ s.routes, ∃ route, bay.Follows r route ∧ Carries s r route :=
    fun r member => built_route consistent built (consistent.routes r member)
  obtain ⟨routes, carried, routes_added⟩ := addSetupRoutes_follows follows
  refine ⟨{ bay with routes }, ?_, rfl, built, carried⟩
  rw [ofSetup, ports_added]
  exact congrArg (Except.mapError BuildError.patch) routes_added

/--
A setup that passed the check is built, if the outputs can be opened. Each port is found by its name
at its place and can transmit if it has an output. The routes are those of the setup, between the
ports they name and with their filters. After that every port with an input gives its producer away.
-/
theorem checked_setup_builds {s : Setup} {openOutput : Setup.Port → Except ε (Option ο)}
    (checked : s.check = .ok ()) (opens : Opens openOutput s.ports)
    (opened : String → Producer → κ) :
    ∃ bay : Patchbay ι ο η, ofSetup s openOutput = .ok bay ∧ bay.settings = s.settings ∧
      bay.ports.length = s.ports.length ∧
      (∀ (i : Nat) p, s.ports[i]? = some p → ∃ id : PortId, id.index = i ∧
        bay.portId? p.name = some id ∧ (bay.outlet? id).isSome = p.output.isSome) ∧
      List.Forall₂ (Carries s) s.routes bay.routes ∧
      ∃ (bay' : Patchbay ι ο η) (inputs : List κ),
        bay.connectInputs (fun pattern producer => (.ok (opened pattern producer) : Except δ κ))
          s.ports = .ok (bay', inputs) ∧
        List.Forall₂ (bay.Connects opened) (s.ports.filter (·.input.isSome)) inputs := by
  have consistent := Setup.check_ok checked
  have few : s.ports.length ≤ 256 := consistent.few.trans (by omega)
  obtain ⟨bay, built_bay, settings, built, carried⟩ := ofSetup_built consistent opens
  refine ⟨bay, built_bay, settings, built.length_eq.symm, ?_, carried, ?_⟩
  · intro i p at_i
    obtain ⟨id, q, place, named, found, fits⟩ := built_found built consistent.names few at_i
    refine ⟨id, place, named, ?_⟩
    rw [outlet?_eq found, fits.outlet]
  · refine connectInputs_ready opened consistent.names ?_
    intro p member
    obtain ⟨i, at_i⟩ := List.mem_iff_getElem?.mp member
    obtain ⟨id, q, place, named, found, fits⟩ := built_found built consistent.names few at_i
    exact ⟨id, q, named, found, fits.name, fits.held, fits.unattached⟩

def keysToSynth : Setup where
  ports := [{ name := "keys", input := some "kbd" }, { name := "synth", output := some "syn" }]
  routes := [{ source := "keys", destination := "synth", filter := some { channels := some [1] } }]

theorem checked_setup_builds_keys_to_synth :
    keysToSynth.check = .ok () ∧ ∃ bay : Patchbay Unit String Unit,
      ofSetup keysToSynth (fun p => (.ok p.output : Except Unit _)) = .ok bay ∧
        bay.portId? "synth" = some ⟨1⟩ ∧
        List.Forall₂ (Carries keysToSynth) keysToSynth.routes bay.routes ∧
        ∃ (bay' : Patchbay Unit String Unit) (producers : List Producer),
          bay.connectInputs (fun _ producer => (.ok producer : Except Unit _)) keysToSynth.ports =
            .ok (bay', producers) := by
  have checked : keysToSynth.check = .ok () := by decide
  have opens : Opens (fun p => (.ok p.output : Except Unit _)) keysToSynth.ports :=
    fun p _ => ⟨p.output, rfl, rfl⟩
  obtain ⟨bay, built, -, -, ports, routes, bay', producers, connected, -⟩ :=
    checked_setup_builds (ι := Unit) (η := Unit) (δ := Unit) checked opens
      fun _ producer => producer
  obtain ⟨id, place, named, -⟩ := ports 1 _ rfl
  obtain rfl : id = ⟨1⟩ := PortId.index_inj place
  exact ⟨checked, bay, built, named, routes, bay', producers, connected⟩

end Patchbay

end MidiPatch
