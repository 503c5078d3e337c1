import MidiPatch.Patchbay.Pass
import MidiPatch.Proofs.Carrying
import MidiPatch.Proofs.Ports

/-!
# The parts of a pass

Pumping and decoding are silent. A delivery hands every message that waits to the outlets it is
routed to, in order, and changes nothing else.
-/

namespace MidiPatch

namespace Patchbay

variable {ι ο η : Type} {bay bay' : Patchbay ι ο η} {id : PortId} {p : Port ι ο η}

/-- What a delivery hands to the outlet of a port, in order. -/
def deliveries (bay : Patchbay ι ο η) (id : PortId) : List Message :=
  bay.undelivered.flatMap fun x =>
    ((routesOf bay.routes (.ofSource x.1) x.2).filter (·.destination = id)).map fun _ => x.2

/-! ### Pumping and decoding -/

theorem silent_map {f : Port ι ο η → Port ι ο η} (outlet : ∀ p, (f p).outlet = p.outlet)
    (listens : ∀ p options, p.inlet.Listens options → (f p).inlet.Listens options) :
    Silent bay { bay with ports := bay.ports.map f } := by
  refine ⟨rfl, ?_, ?_⟩
  · intro id
    rw [outlet?, outlet?, List.getElem?_map]
    cases bay.ports[id.index]? with
    | none => rfl
    | some p => exact outlet p
  · intro receiving
    refine ⟨?_, receiving.waiting⟩
    intro q member
    obtain ⟨p, old, rfl⟩ := List.mem_map.mp member
    exact listens p _ (receiving.inlets p old)

theorem silent_pump [ByteInput ι] (bay : Patchbay ι ο η) : Silent bay bay.pump.1 := by
  unfold pump
  dsimp only
  rw [List.map_map]
  refine silent_map ?_ ?_
  · intro p
    unfold Function.comp Port.pump
    split <;> rfl
  · intro p options listens
    unfold Function.comp Port.pump
    split
    · exact ⟨listens.valid, listens.options⟩
    · exact listens

theorem silent_decode (bay : Patchbay ι ο η) : Silent bay bay.decode.1 := by
  have read : Silent bay { bay with ports := bay.ports.map fun p =>
      { p with inlet := (p.inlet.process Inlet.silent).inlet } } :=
    silent_map (fun _ => rfl) fun p options listens => (listens.process Inlet.silent).listens
  unfold decode
  dsimp only
  rw [← List.map_prod_left_eq_zip, List.map_map]
  refine ⟨rfl, read.outlets, fun receiving => (read.receiving receiving).heard ?_⟩
  intro c member
  obtain ⟨pass, made, called⟩ := List.mem_flatMap.mp member
  obtain ⟨p, old, rfl⟩ := List.mem_map.mp made
  exact ((receiving.inlets p old).process Inlet.silent).calls c called

theorem silent_decoded [ByteInput ι] (bay : Patchbay ι ο η) : Silent bay bay.pump.1.decode.1 :=
  (silent_pump bay).trans (silent_decode bay.pump.1)

/-! ### Delivering -/

section Delivering

variable [ByteOutput ο] {ports : List (Port ι ο η)} {i : Nat}

def outletAt (ports : List (Port ι ο η)) (i : Nat) : Option (Outlet ο) := ports[i]?.bind Port.outlet

theorem hand_outletAt (id : PortId) (m : Message) :
    outletAt (hand ports id m).1 i =
      (outletAt ports i).map (·.emitAll (if id.index = i then [m] else [])) := by
  -- Both ways for a message to go nowhere leave the outlets alone.
  have untouched : ∀ here : id.index = i → outletAt ports i = none,
      outletAt ports i = (outletAt ports i).map (·.emitAll (if id.index = i then [m] else [])) := by
    intro here
    by_cases same : id.index = i
    · rw [here same]; rfl
    · simp [same]
  unfold hand
  cases found : ports[id.index]? with
  | none =>
    refine untouched fun same => ?_
    rw [outletAt, ← same, found, Option.bind_none]
  | some p =>
    dsimp only
    cases present : p.outlet with
    | none =>
      refine untouched fun same => ?_
      rw [outletAt, ← same, found, Option.bind_some, present]
    | some o =>
      have inside := (List.getElem?_eq_some_iff.mp found).1
      unfold outletAt
      by_cases same : id.index = i
      · subst same
        rw [List.getElem?_set_self inside, found, if_pos rfl, Option.bind_some, Option.bind_some,
          present]
        rfl
      · rw [List.getElem?_set_ne same, if_neg same]
        simp

/-- Whatever does not depend on the outlet of a port stays as it was. -/
theorem hand_kept {α : Type} {f : Port ι ο η → α} (kept : ∀ p o, f { p with outlet := o } = f p)
    (id : PortId) (m : Message) : (hand ports id m).1.map f = ports.map f := by
  unfold hand
  cases found : ports[id.index]? with
  | none => rfl
  | some p =>
    dsimp only
    cases p.outlet with
    | none => rfl
    | some o =>
      have same : (ports.map f)[id.index]? = some (f p) := by
        rw [List.getElem?_map, found, Option.map_some]
      obtain ⟨inside, here⟩ := List.getElem?_eq_some_iff.mp same
      rw [List.map_set, kept, ← here, List.set_getElem_self]

theorem follow_outletAt (m : Message) (routes : List Route) :
    outletAt (follow ports m routes).1 i = (outletAt ports i).map
      (·.emitAll ((routes.filter (·.destination.index = i)).map fun _ => m)) := by
  induction routes generalizing ports with
  | nil => simp [follow]
  | cons r rest ih =>
    rw [follow]
    dsimp only
    rw [ih, hand_outletAt, Option.map_map]
    congr 1
    funext o
    rw [Function.comp, ← Outlet.emitAll_append, List.filter_cons]
    by_cases same : r.destination.index = i
    · simp [same]
    · simp [same]

theorem follow_kept {α : Type} {f : Port ι ο η → α}
    (kept : ∀ p o, f { p with outlet := o } = f p) (m : Message) (routes : List Route) :
    (follow ports m routes).1.map f = ports.map f := by
  induction routes generalizing ports with
  | nil => rfl
  | cons r rest ih => exact ih.trans (hand_kept kept r.destination m)

/-- Each outlet is handed, in order, what is routed to it. -/
theorem deliverAll_outletAt (ports : List (Port ι ο η)) (i : Nat) (routes : List Route)
    (waiting : List (SourceId × Message)) :
    outletAt (deliverAll routes ports waiting).1 i = (outletAt ports i).map
      (·.emitAll (waiting.flatMap fun x =>
        ((routesOf routes (.ofSource x.1) x.2).filter (·.destination.index = i)).map
          fun _ => x.2)) := by
  induction waiting generalizing ports with
  | nil => simp [deliverAll]
  | cons x rest ih =>
    rw [deliverAll]
    dsimp only
    rw [ih, follow_outletAt, Option.map_map]
    congr 1
    funext o
    rw [Function.comp, ← Outlet.emitAll_append, List.flatMap_cons]

theorem deliverAll_kept {α : Type} {f : Port ι ο η → α}
    (kept : ∀ p o, f { p with outlet := o } = f p) (routes : List Route)
    (waiting : List (SourceId × Message)) :
    (deliverAll routes ports waiting).1.map f = ports.map f := by
  induction waiting generalizing ports with
  | nil => rfl
  | cons x rest ih => exact ih.trans (follow_kept kept x.2 _)

end Delivering

theorem deliver_outlet? [ByteOutput ο] (bay : Patchbay ι ο η) (id : PortId) :
    bay.deliver.1.outlet? id = (bay.outlet? id).map (·.emitAll (bay.deliveries id)) := by
  have same : ∀ r : Route, decide (r.destination.index = id.index) = decide (r.destination = id) :=
    fun r => decide_eq_decide.mpr ⟨PortId.index_inj, congrArg PortId.index⟩
  have delivered := deliverAll_outletAt bay.ports id.index bay.routes bay.undelivered
  simp only [same] at delivered
  exact delivered

theorem deliver_receiving [ByteOutput ο] (receiving : bay.Receiving) :
    bay.deliver.1.Receiving := by
  refine ⟨?_, nofun⟩
  intro p member
  have inlet : p.inlet ∈ bay.deliver.1.ports.map Port.inlet := List.mem_map_of_mem member
  have kept : bay.deliver.1.ports.map Port.inlet = bay.ports.map Port.inlet :=
    deliverAll_kept (fun _ _ => rfl) bay.routes bay.undelivered
  rw [kept] at inlet
  obtain ⟨q, old, same⟩ := List.mem_map.mp inlet
  rw [← same]
  exact receiving.inlets q old

theorem deliveries_sound (receiving : bay.Receiving) :
    ∀ m ∈ bay.deliveries id, Decoder.Sound (max 2 bay.settings.decoding.maxSysEx) m := by
  intro m member
  obtain ⟨x, waiting, routed⟩ := List.mem_flatMap.mp member
  obtain ⟨r, -, rfl⟩ := List.mem_map.mp routed
  exact receiving.waiting x waiting

end Patchbay

end MidiPatch
