import MidiPatch.Link.Memory
import MidiPatch.Proofs.Acts

/-!
# Where messages go

A pass hands every message that waits, and every message it completes, to the outlets of the routes
from its port that let it through: once for each route, in order, and to no other outlet.
-/

namespace MidiPatch

/-! ### Filters -/

/-- What a filter is for. System messages have no channel, so only the kinds apply to them. -/
structure Filter.LetsThrough (f : Filter) (m : Message) : Prop where
  kind : ∀ kinds, f.kinds = some kinds → m.kind ∈ kinds
  channel : ∀ numbers c, f.channels = some numbers → m.channel? = some c →
    ∃ n ∈ numbers, n.toNat = c.toNat + 1

theorem Filter.admits_iff (f : Filter) (m : Message) : f.admits m = true ↔ f.LetsThrough m := by
  obtain ⟨channels, kinds⟩ := f
  have kind : admitsKind ⟨channels, kinds⟩ m = true ↔ ∀ list, kinds = some list → m.kind ∈ list := by
    cases kinds with
    | none => simp [admitsKind]
    | some list => simp [admitsKind]
  have channel : admitsChannel ⟨channels, kinds⟩ m = true ↔
      ∀ numbers c, channels = some numbers → m.channel? = some c →
        ∃ n ∈ numbers, n.toNat = c.toNat + 1 := by
    cases channels with
    | none => simp [admitsChannel]
    | some numbers =>
      cases spoken : m.channel? with
      | none => simp [admitsChannel, spoken]
      | some c =>
        unfold admitsChannel
        rw [spoken]
        refine List.any_eq_true.trans ⟨?_, ?_⟩
        · rintro ⟨n, listed, same⟩ numbers' c' ⟨⟩ ⟨⟩
          exact ⟨n, listed, of_decide_eq_true same⟩
        · intro listed
          obtain ⟨n, member, same⟩ := listed numbers c rfl rfl
          exact ⟨n, member, decide_eq_true same⟩
  unfold admits
  rw [Bool.and_eq_true, kind, channel]
  exact ⟨fun ⟨kind, channel⟩ => ⟨kind, channel⟩, fun ⟨kind, channel⟩ => ⟨kind, channel⟩⟩

instance (f : Filter) (m : Message) : Decidable (f.LetsThrough m) :=
  decidable_of_iff _ (f.admits_iff m)

namespace Patchbay

variable {ι ο η : Type}

/-! ### What waits for delivery -/

theorem heard_calls {t : HandlerTable (Hearer η)} (own : t.OfUser)
    (kept : t.catchAll = some .patchbay) (source : SourceId) (m : Message) :
    heard (t.calls source m) = [(source, m)] := by
  have user : ∀ h, (t.ofKind m.kind).or t.fallthrough = some h → h ≠ .patchbay := by
    intro h chosen same
    subst same
    rcases Option.or_eq_some_iff.mp chosen with here | ⟨-, here⟩
    · exact own.ofKind m.kind here
    · exact own.fallthrough here
  unfold HandlerTable.calls HandlerTable.hearers
  rw [kept]
  cases chosen : (t.ofKind m.kind).or t.fallthrough with
  | none => rfl
  | some h =>
    cases h with
    | patchbay => exact absurd rfl (user .patchbay chosen)
    | user h => rfl

theorem heard_flatMap {α : Type} (xs : List α) (calls : α → List (Call (Hearer η))) :
    heard (xs.flatMap calls) = xs.flatMap fun x => heard (calls x) :=
  List.filterMap_flatMap

theorem heard_messages {t : HandlerTable (Hearer η)} (own : t.OfUser)
    (kept : t.catchAll = some .patchbay) (source : SourceId) (ms : List Message) :
    heard (ms.flatMap (t.calls source)) = ms.map fun m => (source, m) := by
  rw [heard_flatMap, List.map_eq_flatMap]
  exact congrArg (ms.flatMap ·) (funext fun m => heard_calls own kept source m)

section

variable [ByteInput ι]

/-- What a pass completes on each port, with the number of the port. -/
def completed (bay : Patchbay ι ο η) : List (PortId × Message) :=
  bay.ports.zipIdx.flatMap fun x => x.1.decoded.2.map fun m => ({ number := x.2.toUInt8 }, m)

/-- What a pass delivers: what waits already, then what it completes. -/
def due (bay : Patchbay ι ο η) : List (PortId × Message) :=
  (bay.undelivered.map fun x => (.ofSource x.1, x.2)) ++ bay.completed

theorem heard_completed {bay : Patchbay ι ο η} (proper : bay.Proper)
    (kept : ∀ p ∈ bay.ports, p.inlet.handlers.catchAll = some .patchbay) :
    (heard (bay.ports.flatMap fun p =>
      p.decoded.2.flatMap (p.inlet.handlers.calls p.inlet.source))).map
        (fun x => (PortId.ofSource x.1, x.2)) = bay.completed := by
  -- Messages bear the number of their inlet, which is the place of its port.
  have numbered : ∀ x ∈ bay.ports.zipIdx,
      (heard (x.1.decoded.2.flatMap (x.1.inlet.handlers.calls x.1.inlet.source))).map
          (fun x => (PortId.ofSource x.1, x.2)) =
        x.1.decoded.2.map fun m => ({ number := x.2.toUInt8 }, m) := by
    intro x member
    have found := List.mem_zipIdx_iff_getElem?.mp member
    have old := List.mem_of_getElem? found
    have number : x.1.inlet.source.number = x.2.toUInt8 := by
      rw [← proper.sources x.2 x.1 found]
      exact (UInt8.ofNat_toNat).symm
    rw [heard_messages (proper.handlers _ old) (kept _ old), List.map_map, ← number]
    rfl
  unfold completed
  conv => lhs; rw [← List.zipIdx_map_fst 0 bay.ports]
  rw [List.flatMap_map, heard_flatMap, List.map_flatMap]
  exact List.flatMap_congr numbered

theorem undelivered_due {bay : Patchbay ι ο η} (proper : bay.Proper)
    (kept : ∀ p ∈ bay.ports, p.inlet.handlers.catchAll = some .patchbay) :
    bay.pump.1.decode.1.undelivered.map (fun x => (PortId.ofSource x.1, x.2)) = bay.due := by
  rw [decoded_undelivered, List.map_append, heard_completed proper kept]
  rfl

theorem length_completed (bay : Patchbay ι ο η) :
    (bay.ports.flatMap fun p => p.decoded.2).length = bay.completed.length := by
  unfold completed
  rw [List.length_flatMap, List.length_flatMap]
  simp only [List.length_map]
  conv => lhs; rw [← List.zipIdx_map_fst 0 bay.ports, List.map_map]
  rfl

end

/-! ### Handing messages over -/

section

variable [ByteOutput ο] {ports : List (Port ι ο η)}

def Transmits (ports : List (Port ι ο η)) (id : PortId) : Prop :=
  (outletAt ports id.index).isSome

theorem hand_transmits (id id' : PortId) (m : Message) :
    Transmits (hand ports id m).1 id' ↔ Transmits ports id' := by
  unfold Transmits
  rw [hand_outletAt, Option.isSome_map]

theorem hand_handed {id : PortId} (m : Message) (there : Transmits ports id) :
    (hand ports id m).2 = true := by
  obtain ⟨o, present⟩ := Option.isSome_iff_exists.mp there
  obtain ⟨p, found, outlet⟩ := Option.bind_eq_some_iff.mp present
  unfold hand
  rw [found]
  dsimp only
  rw [outlet]

theorem follow_transmits (id : PortId) (m : Message) (routes : List Route) :
    Transmits (follow ports m routes).1 id ↔ Transmits ports id := by
  unfold Transmits
  rw [follow_outletAt, Option.isSome_map]

theorem follow_handed {routes : List Route} (m : Message)
    (valid : ∀ r ∈ routes, Transmits ports r.destination) :
    (follow ports m routes).2 = routes.map fun r => (r.destination, m) := by
  induction routes generalizing ports with
  | nil => rfl
  | cons r rest ih =>
    obtain ⟨now, later⟩ := List.forall_mem_cons.mp valid
    -- Handing a message over takes no outlet away, so the later routes still find theirs.
    have next := ih fun r' member => (hand_transmits r.destination r'.destination m).mpr
      (later r' member)
    rw [follow]
    dsimp only
    rw [next, if_pos (hand_handed m now), List.map_cons]

theorem deliverAll_handed {routes : List Route}
    (valid : ∀ r ∈ routes, Transmits ports r.destination) (waiting : List (SourceId × Message)) :
    (deliverAll routes ports waiting).2 = waiting.flatMap fun x =>
      (routesOf routes (.ofSource x.1) x.2).map fun r => (r.destination, x.2) := by
  induction waiting generalizing ports with
  | nil => rfl
  | cons x rest ih =>
    let routed := routesOf routes (.ofSource x.1) x.2
    have now : (follow ports x.2 routed).2 = routed.map fun r => (r.destination, x.2) :=
      follow_handed x.2 fun r member => valid r (List.mem_filter.mp member).1
    have later := @ih (follow ports x.2 routed).1 fun r member =>
      (follow_transmits r.destination x.2 routed).mpr (valid r member)
    rw [deliverAll]
    dsimp only
    rw [now, later, List.flatMap_cons]

end

/-! ### Routing -/

/-- The calls that deliver these messages: one for each route that lets a message through. -/
def handovers (routes : List Route) (due : List (PortId × Message)) : List (PortId × Message) :=
  due.flatMap fun x =>
    (routes.filter fun r => r.source = x.1 ∧ r.filter.LetsThrough x.2).map fun r =>
      (r.destination, x.2)

theorem routesOf_eq (routes : List Route) (source : PortId) (m : Message) :
    routesOf routes source m =
      routes.filter fun r => r.source = source ∧ r.filter.LetsThrough m := by
  refine List.filter_congr fun r _ => ?_
  rw [Bool.eq_iff_iff, Bool.and_eq_true, decide_eq_true_iff, decide_eq_true_iff,
    r.filter.admits_iff]

theorem handovers_due (routes : List Route) (waiting : List (SourceId × Message)) :
    handovers routes (waiting.map fun x => (.ofSource x.1, x.2)) = waiting.flatMap fun x =>
      (routesOf routes (.ofSource x.1) x.2).map fun r => (r.destination, x.2) := by
  unfold handovers
  rw [List.flatMap_map]
  refine congrArg (waiting.flatMap ·) (funext fun x => ?_)
  rw [routesOf_eq]

theorem deliveries_eq (bay : Patchbay ι ο η) (id : PortId) :
    bay.deliveries id = ((handovers bay.routes
      (bay.undelivered.map fun x => (.ofSource x.1, x.2))).filter (·.1 = id)).map (·.2) := by
  unfold deliveries
  rw [handovers_due, List.filter_flatMap, List.map_flatMap]
  refine congrArg (bay.undelivered.flatMap ·) (funext fun x => ?_)
  rw [List.filter_map, List.map_map]
  rfl

/-- What a pass hands to outlets, in the order it does. -/
def handed [ByteInput ι] [ByteOutput ο] (bay : Patchbay ι ο η) : List (PortId × Message) :=
  bay.pump.1.decode.1.deliver.2.2

theorem handed_eq [ByteInput ι] [ByteOutput ο] {bay : Patchbay ι ο η}
    (routes : ∀ r ∈ bay.routes, (bay.outlet? r.destination).isSome) :
    bay.handed = handovers bay.routes
      (bay.pump.1.decode.1.undelivered.map fun x => (.ofSource x.1, x.2)) := by
  rw [handovers_due]
  refine deliverAll_handed (fun r member => ?_) _
  change (bay.pump.1.decode.1.outlet? r.destination).isSome
  rw [(silent_decoded bay).outlets]
  exact routes r member

/--
A pass of any reachable patchbay whose inlets still have their catch-all handler. The observer sees
what is due, in order and with its port. Each due message is handed over once for each route from its
port that lets it through. The calls are made in this order across all outlets; every one finds an
outlet, and no outlet is handed anything else.
-/
theorem pass_hands_over_due [ByteInput ι] [ByteOutput ο] (settings : Settings)
    (acts : List (Act ι ο η)) (allowed : ∀ a ∈ acts, a.Allowed)
    (kept : ∀ p ∈ ((new settings).actAll acts).ports,
      p.inlet.handlers.catchAll = some .patchbay) :
    let bay := (new settings).actAll acts
    let calls := handovers bay.routes bay.due
    bay.poll.2.seen = (if bay.observed then bay.due else []) ∧
      bay.handed = calls ∧
      (∀ id, bay.poll.1.outlet? id =
        (bay.outlet? id).map (·.emitAll ((calls.filter (·.1 = id)).map (·.2)))) ∧
      (∀ call ∈ calls, (bay.outlet? call.1).isSome) ∧
      bay.poll.2.work.routed = calls.length ∧
      bay.poll.2.work.messages = bay.completed.length ∧
      bay.poll.1.undelivered = [] := by
  intro bay calls
  have proper : bay.Proper := (proper_new settings).actAll allowed
  have due := undelivered_due proper kept
  have handed : bay.handed = calls := by
    rw [handed_eq proper.routes, due]
  have outlets : ∀ call ∈ calls, (bay.outlet? call.1).isSome := by
    intro call member
    obtain ⟨x, -, handed⟩ := List.mem_flatMap.mp member
    obtain ⟨r, chosen, rfl⟩ := List.mem_map.mp handed
    exact proper.routes r (List.mem_filter.mp chosen).1
  refine ⟨?_, handed, fun id => ?_, outlets, congrArg List.length handed, ?_, rfl⟩
  · rw [← due]
    rfl
  · rw [poll_outlet?, deliveries_eq, due]
    rfl
  · exact (decoded_messages bay).trans (length_completed bay)

/--
One message waits already. A route is there twice and one leads back to its own port; a filter keeps
one of two notes from one of the routes, and the user hears the notes as well.
-/
theorem pass_hands_over_due_filtered :
    let keys : PortId := { number := 0 }
    let synth : PortId := { number := 1 }
    let clock : PortId := { number := 2 }
    let firstChannel : Filter := { channels := some [1], kinds := some [.noteOn] }
    let acts : List (Act Script ByteBuffer Unit) :=
      [.operation (.addPort "keys" (some {})), .operation (.addPort "synth" (some {})),
        .operation (.addPort "clock" none),
        .operation (.addRoute { source := keys, destination := synth, filter := firstChannel }),
        .operation (.addRoute { source := keys, destination := synth }),
        .operation (.addRoute { source := keys, destination := keys }),
        .operation (.addRoute { source := clock, destination := synth }),
        .operation (.handle keys
          { ofKind := fun k => if k = .noteOn then some (.user ()) else none
            catchAll := some .patchbay }),
        .operation (.observe true), .operation (.feed clock Inlet.silent 0xFE),
        .operation (.attachInput keys { chunks := [[0x90, 60, 100, 0x91, 60, 100]] }),
        .operation (.produce { port := clock } [0xF8])]
    let bay : Patchbay Script ByteBuffer Unit := (new {}).actAll acts
    (∀ a ∈ acts, a.Allowed) ∧ (∀ p ∈ bay.ports, p.inlet.handlers.catchAll = some .patchbay) ∧
      bay.poll.2.seen =
        [(clock, .realtime .activeSense), (keys, .noteOn 0 60 100), (keys, .noteOn 1 60 100),
          (clock, .realtime .clock)] ∧
      bay.handed =
        [(synth, .realtime .activeSense), (synth, .noteOn 0 60 100), (synth, .noteOn 0 60 100),
          (keys, .noteOn 0 60 100), (synth, .noteOn 1 60 100), (keys, .noteOn 1 60 100),
          (synth, .realtime .clock)] ∧
      bay.poll.2.work.routed = 7 ∧ bay.poll.2.work.messages = 3 ∧
      (bay.poll.1.outlet? keys).map (·.output.bytes) = some [0x90, 60, 100, 0x91, 60, 100] ∧
      (bay.poll.1.outlet? synth).map (·.output.bytes) =
        some [0xFE, 0x90, 60, 100, 0x90, 60, 100, 0x91, 60, 100, 0xF8] := by
  intro keys synth clock firstChannel acts bay
  have allowed : ∀ a ∈ acts, a.Allowed := by
    simp only [acts, List.forall_mem_cons]
    refine ⟨trivial, trivial, trivial, trivial, trivial, trivial, trivial, ⟨?_, nofun⟩, trivial,
      trivial, trivial, trivial, nofun⟩
    intro k
    dsimp only
    split <;> simp
  have kept : ∀ p ∈ bay.ports, p.inlet.handlers.catchAll = some .patchbay := by
    decide
  obtain ⟨seen, handed, outlets, -, routed, messages, -⟩ :=
    pass_hands_over_due {} acts allowed kept
  refine ⟨allowed, kept, ?_, ?_, ?_, ?_, ?_, ?_⟩
  · rw [seen]; decide
  · rw [handed]; decide
  · rw [routed]; decide
  · rw [messages]; decide
  · rw [outlets]; decide
  · rw [outlets]; decide

end Patchbay

end MidiPatch
