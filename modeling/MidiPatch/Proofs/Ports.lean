import MidiPatch.Patchbay.Basic
import MidiPatch.Proofs.Reception

/-!
# The ports of a patchbay

What the operations on single ports find and change. `Receiving` says that whatever waits for
delivery was decoded within the limit; `Silent` changes keep it and leave every outlet alone.
-/

namespace MidiPatch

namespace PortId

theorem index_inj {id id' : PortId} (same : id.index = id'.index) : id = id' := by
  obtain ⟨n⟩ := id
  obtain ⟨n'⟩ := id'
  exact congrArg PortId.mk (UInt8.toNat_inj.mp same)

end PortId

namespace Patchbay

variable {ι ο η : Type} {bay bay' : Patchbay ι ο η} {id : PortId} {p : Port ι ο η}

def outlet? (bay : Patchbay ι ο η) (id : PortId) : Option (Outlet ο) :=
  bay.ports[id.index]?.bind Port.outlet

theorem bind_ok {ε α β : Type} {x : Except ε α} {f : α → Except ε β} {b : β}
    (h : (x >>= f) = .ok b) : ∃ a, x = .ok a ∧ f a = .ok b := by
  cases x with
  | error e => exact nomatch h
  | ok a => exact ⟨a, rfl, h⟩

theorem map_ok {α β : Type} {x : Except PatchError α} {f : α → β} {b : β}
    (h : x.map f = .ok b) : ∃ a, x = .ok a ∧ f a = b := by
  cases x with
  | error e => exact nomatch h
  | ok a => exact ⟨a, rfl, Except.ok.inj h⟩

theorem port_ok (h : bay.port id = .ok p) : bay.ports[id.index]? = some p := by
  unfold Patchbay.port at h
  split at h
  · next found => rw [found]; exact congrArg some (Except.ok.inj h)
  · exact nomatch h

theorem port_found (found : bay.ports[id.index]? = some p) : bay.port id = .ok p := by
  rw [Patchbay.port, found]

theorem port_absent (absent : bay.ports[id.index]? = none) :
    bay.port id = .error (.unknownPort id) := by
  rw [Patchbay.port, absent]

theorem outlet?_eq (found : bay.ports[id.index]? = some p) : bay.outlet? id = p.outlet := by
  rw [outlet?, found, Option.bind_some]

theorem outlet_ok {o : Outlet ο} (h : bay.outlet id = .ok o) :
    ∃ p, bay.ports[id.index]? = some p ∧ p.outlet = some o := by
  obtain ⟨p, found, h⟩ := bind_ok h
  refine ⟨p, port_ok found, ?_⟩
  split at h
  · exact nomatch h
  · next present => rw [present]; exact congrArg some (Except.ok.inj h)

theorem inlet_ok {i : Inlet (Hearer η)} (h : bay.inlet id = .ok i) :
    ∃ p, bay.ports[id.index]? = some p ∧ p.inlet = i := by
  obtain ⟨p, found, h⟩ := bind_ok h
  exact ⟨p, port_ok found, Except.ok.inj h⟩

theorem setPort_outlet? {p' : Port ι ο η} (found : bay.ports[id.index]? = some p) (id' : PortId) :
    (bay.setPort id p').outlet? id' = if id' = id then p'.outlet else bay.outlet? id' := by
  have inside : id.index < bay.ports.length := (List.getElem?_eq_some_iff.mp found).1
  unfold outlet? setPort
  by_cases same : id' = id
  · rw [same, if_pos rfl, List.getElem?_set_self inside, Option.bind_some]
  · rw [if_neg same, List.getElem?_set_ne fun index => same (PortId.index_inj index.symm)]

/-! ### The receiving side -/

/-- Every inlet decodes with the options of the patchbay, and what waits was decoded so. -/
structure Receiving (bay : Patchbay ι ο η) : Prop where
  inlets : ∀ p ∈ bay.ports, p.inlet.Listens (Decoder.new bay.settings.decoding).options
  waiting : ∀ x ∈ bay.undelivered, Decoder.Sound (max 2 bay.settings.decoding.maxSysEx) x.2

theorem Receiving.setPort {p' : Port ι ο η} (receiving : bay.Receiving)
    (listens : p'.inlet.Listens (Decoder.new bay.settings.decoding).options) :
    (bay.setPort id p').Receiving := by
  refine ⟨?_, receiving.waiting⟩
  intro q member
  rcases List.mem_or_eq_of_mem_set member with old | rfl
  · exact receiving.inlets q old
  · exact listens

theorem Receiving.inlet (receiving : bay.Receiving) (found : bay.ports[id.index]? = some p) :
    p.inlet.Listens (Decoder.new bay.settings.decoding).options :=
  receiving.inlets p (List.mem_of_getElem? found)

theorem Receiving.heard {calls : List (Call (Hearer η))} (receiving : bay.Receiving)
    (sound : ∀ c ∈ calls, Decoder.Sound (max 2 bay.settings.decoding.maxSysEx) c.message) :
    ({ bay with undelivered := bay.undelivered ++ heard calls } : Patchbay ι ο η).Receiving := by
  refine ⟨receiving.inlets, ?_⟩
  intro x member
  rcases List.mem_append.mp member with old | new
  · exact receiving.waiting x old
  · obtain ⟨c, made, kept⟩ := List.mem_filterMap.mp new
    cases hearer : c.handler with
    | patchbay =>
      rw [hearer] at kept
      obtain rfl := Option.some.inj kept
      exact sound c made
    | user h => rw [hearer] at kept; exact nomatch kept

/-- A change that leaves the outlets alone. -/
structure Silent (bay bay' : Patchbay ι ο η) : Prop where
  settings : bay'.settings = bay.settings
  outlets : ∀ id, bay'.outlet? id = bay.outlet? id
  receiving : bay.Receiving → bay'.Receiving

theorem Silent.refl (bay : Patchbay ι ο η) : Silent bay bay :=
  ⟨rfl, fun _ => rfl, fun receiving => receiving⟩

theorem Silent.trans {bay'' : Patchbay ι ο η} (first : Silent bay bay')
    (second : Silent bay' bay'') : Silent bay bay'' :=
  ⟨second.settings.trans first.settings, fun id => (second.outlets id).trans (first.outlets id),
    second.receiving ∘ first.receiving⟩

theorem silent_setPort {p' : Port ι ο η} (found : bay.ports[id.index]? = some p)
    (outlet : p'.outlet = p.outlet)
    (listens : ∀ options, p.inlet.Listens options → p'.inlet.Listens options) :
    Silent bay (bay.setPort id p') := by
  refine ⟨rfl, ?_, fun receiving => receiving.setPort (listens _ (receiving.inlet found))⟩
  intro id'
  rw [setPort_outlet? found]
  split
  · next same => rw [same, outlet, outlet?_eq found]
  · rfl

theorem silent_setInlet {pass : Inlet.Pass (Hearer η)} {i : Inlet (Hearer η)}
    (present : bay.inlet id = .ok i) (sound : ∀ options, i.Listens options → pass.Sound options) :
    Silent bay (bay.setInlet id pass) := by
  obtain ⟨p, found, rfl⟩ := inlet_ok present
  have put : Silent bay (bay.setPort id { p with inlet := pass.inlet }) :=
    silent_setPort found rfl fun options listens => (sound options listens).listens
  unfold Patchbay.setInlet
  rw [found]
  refine ⟨rfl, put.outlets, fun receiving => ?_⟩
  exact (put.receiving receiving).heard (sound _ (receiving.inlet found)).calls

end Patchbay

end MidiPatch
