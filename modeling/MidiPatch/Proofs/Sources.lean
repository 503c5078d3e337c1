import MidiPatch.Proofs.Routing

/-!
# Sources apart from each other

Some ports are left to the passes: their bytes come from an attached input and nothing else touches
their inlets. What such a port makes of its bytes depends on the first bytes of each chunk, as many as
its queue holds, and on nothing else: not on the number of passes, nor on the other ports.
-/

namespace MidiPatch

variable {ι ο η : Type}

/-- An act that leaves the inlets of the `polled` ports to the passes, and inputs to these ports. -/
def Act.Spares (polled : PortId → Prop) : Act ι ο η → Prop
  | operation (.attachInput id _) => polled id
  | operation (.produce producer _) => ¬ polled producer.port
  | operation (.feed id ..) | operation (.process id _) | operation (.resetPort id)
  | resetInlet id => ¬ polled id
  | operation (.handle id handlers) => polled id → handlers.catchAll = some .patchbay
  | operation (.observe on) => on = true
  | _ => True

/-- A patchbay that is observed, with a record of what its inputs delivered. -/
structure Listening (ι ο η : Type) where
  bay : Patchbay ι ο η
  /-- What the attached input of each port delivered, pass by pass. -/
  chunks : PortId → List (List UInt8) := fun _ => []
  seen : List (PortId × Message) := []

namespace Listening

def start (settings : Patchbay.Settings) : Listening ι ο η :=
  { bay := (Patchbay.new settings).observe true }

def heardFrom (s : Listening ι ο η) (id : PortId) : List Message :=
  (s.seen.filter (·.1 = id)).map (·.2)

variable [ByteInput ι] [ByteOutput ο]

def poll (s : Listening ι ο η) : Listening ι ο η :=
  { bay := s.bay.poll.1
    chunks := fun id => s.chunks id ++ (s.bay.ports[id.index]?.map Patchbay.Port.arriving).toList
    seen := s.seen ++ s.bay.poll.2.seen }

def step (s : Listening ι ο η) : Act ι ο η → Listening ι ο η
  | .operation .poll => s.poll
  | a => { s with bay := s.bay.act a }

def run (s : Listening ι ο η) (acts : List (Act ι ο η)) : Listening ι ο η := acts.foldl step s

end Listening

namespace Patchbay

/-! ### One act -/

/-- A change of a port that a pass does not notice. -/
structure Undisturbed (p q : Port ι ο η) : Prop where
  queue : q.inlet.queue = p.inlet.queue
  decoder : q.inlet.decoder = p.inlet.decoder
  kept : p.inlet.handlers.catchAll = some .patchbay → q.inlet.handlers.catchAll = some .patchbay

theorem change_undisturbed [ByteOutput ο] {polled : PortId → Prop} {a : Act ι ο η} {id : PortId}
    (about : a.port? = some id) (spares : a.Spares polled) (left : polled id) (p : Port ι ο η) :
    Undisturbed p (a.change p) := by
  cases a with
  | operation op =>
    cases op with
    | attachInput | takeProducer => rw [Act.change]; split <;> exact ⟨rfl, rfl, fun kept => kept⟩
    | handle id' handlers =>
      obtain rfl := Option.some.inj about
      exact ⟨rfl, rfl, fun _ => spares left⟩
    | produce | feed | process | resetPort =>
      obtain rfl := Option.some.inj about
      exact absurd left spares
    | _ => exact ⟨rfl, rfl, fun kept => kept⟩
  | resetInlet id' =>
    obtain rfl := Option.some.inj about
    exact absurd left spares
  | _ => exact ⟨rfl, rfl, fun kept => kept⟩

theorem change_unattached [ByteOutput ο] {polled : PortId → Prop} {a : Act ι ο η} {id : PortId}
    (about : a.port? = some id) (spares : a.Spares polled) (other : ¬ polled id) {p : Port ι ο η}
    (unattached : p.input = none) : (a.change p).input = none := by
  cases a with
  | operation op =>
    cases op with
    | attachInput id' input =>
      obtain rfl := Option.some.inj about
      exact absurd spares other
    | takeProducer => rw [Act.change]; split <;> exact unattached
    | _ => exact unattached
  | changeInput id' change => exact congrArg (Option.map change) unattached
  | _ => exact unattached

theorem hears_spared {polled : PortId → Prop} {a : Act ι ο η} {id : PortId}
    (about : a.port? = some id) (spares : a.Spares polled) (hears : a.hears = true) :
    ¬ polled id := by
  cases a with
  | operation op =>
    cases op with
    | feed | process =>
      obtain rfl := Option.some.inj about
      exact spares
    | _ => exact nomatch hears
  | _ => exact nomatch hears

/-! ### One pass -/

theorem flatMap_only {α β : Type} {f : α → List β} {list : List α} {k : Nat}
    (nothing : ∀ (i : Nat) a, list[i]? = some a → i ≠ k → f a = []) :
    list.flatMap f = (list[k]?).elim [] f := by
  induction list generalizing k with
  | nil => rfl
  | cons a rest ih =>
    rw [List.flatMap_cons]
    cases k with
    | zero =>
      have others : rest.flatMap f = [] := by
        rw [List.flatMap_eq_nil_iff]
        intro b member
        obtain ⟨i, found⟩ := List.mem_iff_getElem?.mp member
        exact nothing (i + 1) b found (Nat.succ_ne_zero i)
      rw [others, List.append_nil]
      rfl
    | succ k =>
      have later := ih fun i b found apart =>
        nothing (i + 1) b found fun same => apart (Nat.succ.inj same)
      rw [nothing 0 a rfl (Nat.zero_ne_add_one k), later]
      rfl

variable {bay : Patchbay ι ο η} {id : PortId} {p : Port ι ο η}

theorem Proper.source (proper : bay.Proper) (found : bay.ports[id.index]? = some p) :
    PortId.ofSource p.inlet.source = id :=
  PortId.index_inj (proper.sources id.index p found)

/-- Of what the handlers of a port hear, nothing comes from another port. -/
theorem heard_own (source : SourceId) (t : HandlerTable (Hearer η)) (ms : List Message) :
    ∀ x ∈ heard (ms.flatMap (t.calls source)), x.1 = source := by
  intro x member
  obtain ⟨c, called, kept⟩ := List.mem_filterMap.mp member
  obtain ⟨m, -, made⟩ := List.mem_flatMap.mp called
  obtain ⟨h, -, rfl⟩ := List.mem_map.mp made
  cases h with
  | patchbay => rw [← Option.some.inj kept]
  | user h => exact nomatch kept

variable [ByteInput ι] [ByteOutput ο]

/-- A pass shows the observer just what the decoder of a port completes, if nothing waited before. -/
theorem poll_seen_from (proper : bay.Proper) (observed : bay.observed = true)
    (quiet : ∀ x ∈ bay.undelivered, .ofSource x.1 ≠ id)
    (kept : ∀ p, bay.ports[id.index]? = some p → p.inlet.handlers.catchAll = some .patchbay) :
    (bay.poll.2.seen.filter (·.1 = id)).map (·.2) =
      (bay.ports[id.index]?).elim [] fun p => p.decoded.2 := by
  have seen : bay.poll.2.seen =
      bay.pump.1.decode.1.undelivered.map fun x => (.ofSource x.1, x.2) := if_pos observed
  have waited : bay.undelivered.filter (fun x => PortId.ofSource x.1 = id) = [] := by
    rw [List.filter_eq_nil_iff]
    intro x member same
    exact quiet x member (of_decide_eq_true same)
  rw [seen, decoded_undelivered, List.filter_map, List.map_map]
  change ((bay.undelivered ++ heard _).filter fun x => decide (PortId.ofSource x.1 = id)).map _ = _
  rw [List.filter_append, waited, List.nil_append]
  -- Of the ports, only the one at this place gives messages that bear its number.
  rw [heard_flatMap, List.filter_flatMap, List.map_flatMap, flatMap_only (k := id.index)]
  · cases found : bay.ports[id.index]? with
    | none => rfl
    | some p =>
      have own := proper.handlers p (List.mem_of_getElem? found)
      change ((heard _).filter _).map _ = p.decoded.2
      rw [heard_messages own (kept p found), List.filter_eq_self.mpr, List.map_map]
      · exact List.map_id _
      · intro x member
        obtain ⟨m, -, rfl⟩ := List.mem_map.mp member
        exact decide_eq_true (proper.source found)
  · intro i p found apart
    rw [List.map_eq_nil_iff, List.filter_eq_nil_iff]
    intro x member same
    apply apart
    have number := proper.sources i p found
    rw [← heard_own _ _ _ x member] at number
    exact number.symm.trans (congrArg PortId.index (of_decide_eq_true same))

end Patchbay

namespace Listening

variable {settings : Patchbay.Settings} {polled : PortId → Prop}

def depth (settings : Patchbay.Settings) : Nat := max 1 settings.queueCapacity

/-- A port that was left to the passes, after these chunks and messages. -/
structure Follows (settings : Patchbay.Settings) (p : Patchbay.Port ι ο η)
    (chunks : List (List UInt8)) (heard : List Message) : Prop where
  kept : p.inlet.handlers.catchAll = some .patchbay
  queue : p.inlet.queue.bytes = []
  capacity : p.inlet.queue.capacity = depth settings
  lost : p.inlet.queue.lost =
    (chunks.map fun chunk => chunk.length - depth settings).sum
  read : (Decoder.new settings.decoding).feedAll (chunks.flatMap (·.take (depth settings))) =
    (p.inlet.decoder, heard)

theorem Follows.undisturbed {p q : Patchbay.Port ι ο η} {chunks : List (List UInt8)}
    {heard : List Message} (follows : Follows settings p chunks heard)
    (same : Patchbay.Undisturbed p q) : Follows settings q chunks heard := by
  obtain ⟨queue, decoder, kept⟩ := same
  refine ⟨kept follows.kept, ?_, ?_, ?_, ?_⟩
  · rw [queue]; exact follows.queue
  · rw [queue]; exact follows.capacity
  · rw [queue]; exact follows.lost
  · rw [decoder]; exact follows.read

/-- What holds of a patchbay of which some ports were left to the passes. -/
structure Steady (settings : Patchbay.Settings) (polled : PortId → Prop) (s : Listening ι ο η) :
    Prop where
  proper : s.bay.Proper
  common : s.bay.settings = settings
  observed : s.bay.observed = true
  unattached : ∀ (id : PortId) p, s.bay.ports[id.index]? = some p → ¬ polled id → p.input = none
  waiting : ∀ x ∈ s.bay.undelivered, ¬ polled (.ofSource x.1)
  absent : ∀ id, polled id → s.bay.ports[id.index]? = none →
    s.chunks id = [] ∧ s.heardFrom id = []
  follows : ∀ id p, polled id → s.bay.ports[id.index]? = some p →
    Follows settings p (s.chunks id) (s.heardFrom id)

theorem start_steady (settings : Patchbay.Settings) (polled : PortId → Prop) :
    (start settings : Listening ι ο η).Steady settings polled := by
  have proper := Patchbay.proper_new (ι := ι) (ο := ο) (η := η) settings
  refine ⟨⟨proper.sources, proper.handlers, proper.routes⟩, rfl, rfl, ?_, ?_, ?_, ?_⟩
  · intro id p found
    simp [start, Patchbay.new, Patchbay.observe] at found
  · intro x member
    simp [start, Patchbay.new, Patchbay.observe] at member
  · exact fun id _ _ => ⟨rfl, rfl⟩
  · intro id p _ found
    simp [start, Patchbay.new, Patchbay.observe] at found

variable {s : Listening ι ο η} {bay' : Patchbay ι ο η} {id : PortId}

theorem Steady.touched (steady : s.Steady settings polled) (proper : bay'.Proper)
    {change : Patchbay.Port ι ο η → Patchbay.Port ι ο η} {hears : Bool}
    (touches : s.bay.Touches bay' id change hears) (loud : hears = true → ¬ polled id)
    (left : polled id → ∀ p, Patchbay.Undisturbed p (change p))
    (other : ¬ polled id → ∀ p, p.input = none → (change p).input = none) :
    ({ s with bay := bay' } : Listening ι ο η).Steady settings polled := by
  refine ⟨proper, touches.settings.trans steady.common, touches.observed.trans steady.observed,
    ?_, ?_, ?_, ?_⟩
  · intro id' q found apart
    obtain ⟨p, before, rfl⟩ := touches.port found
    have unattached := steady.unattached id' p before apart
    split
    · next same => exact other (PortId.index_inj same ▸ apart) p unattached
    · exact unattached
  · intro x member
    rcases touches.waiting x member with old | ⟨spoken, p, found, source⟩
    · exact steady.waiting x old
    · rw [source, steady.proper.source found]
      exact loud spoken
  · intro id' chosen missing
    apply steady.absent id' chosen
    rw [touches.ports, List.getElem?_modify] at missing
    exact Option.map_eq_none_iff.mp missing
  · intro id' q chosen found
    obtain ⟨p, before, rfl⟩ := touches.port found
    have follows := steady.follows id' p chosen before
    split
    · next same => exact follows.undisturbed (left (PortId.index_inj same ▸ chosen) p)
    · exact follows

theorem Steady.addPort (steady : s.Steady settings polled) {name : String} {output : Option ο}
    (added : s.bay.addPort name output = .ok (bay', id)) :
    ({ s with bay := bay' } : Listening ι ο η).Steady settings polled := by
  have proper := steady.proper.addPort added
  have ports := fun (id' : PortId) q => Patchbay.addPort_port added (i := id'.index) (q := q)
  obtain ⟨-, rfl⟩ := Patchbay.addPort_ok added
  refine ⟨proper, steady.common, steady.observed, ?_, steady.waiting, ?_, ?_⟩
  · intro id' q found apart
    rcases ports id' q found with old | ⟨-, rfl⟩
    · exact steady.unattached id' q old apart
    · rfl
  · intro id' chosen missing
    apply steady.absent id' chosen
    rw [List.getElem?_eq_none_iff] at missing ⊢
    rw [List.length_append] at missing
    omega
  · intro id' q chosen found
    rcases ports id' q found with old | ⟨last, rfl⟩
    · exact steady.follows id' q chosen old
    · -- Nothing is on record for a port that was not there.
      obtain ⟨chunks, heard⟩ :=
        steady.absent id' chosen (List.getElem?_eq_none (Nat.le_of_eq last.symm))
      change Follows settings _ (s.chunks id') (s.heardFrom id')
      rw [chunks, heard]
      refine ⟨rfl, rfl, ?_, rfl, ?_⟩
      · rw [← steady.common]; rfl
      · rw [← steady.common]; rfl

theorem Follows.room {p : Patchbay.Port ι ο η} {chunks : List (List UInt8)} {heard : List Message}
    (follows : Follows settings p chunks heard) : p.inlet.queue.room = depth settings := by
  unfold Fifo.room
  rw [follows.queue, follows.capacity]
  rfl

variable [ByteInput ι]

/-- A pass cuts the new chunk to what the empty queue holds, and decodes what is left of it. -/
theorem Follows.pass {p q : Patchbay.Port ι ο η} {chunks : List (List UInt8)}
    {heard : List Message} (follows : Follows settings p chunks heard)
    (passed : q.inlet = p.passed.inlet) :
    Follows settings q (chunks ++ [p.arriving]) (heard ++ p.decoded.2) := by
  obtain ⟨-, handlers, decoder, queue, capacity, lost, -, -⟩ := p.passed_spec
  have room := follows.room
  have decoded : p.decoded = p.inlet.decoder.feedAll (p.arriving.take (depth settings)) := by
    unfold Patchbay.Port.decoded Patchbay.Port.read
    rw [follows.queue, room, List.nil_append]
  refine ⟨?_, ?_, ?_, ?_, ?_⟩
  · rw [passed, handlers]; exact follows.kept
  · rw [passed, queue]
  · rw [passed, capacity]; exact follows.capacity
  · rw [passed, lost, room, follows.lost, List.map_append, List.sum_append]
    rfl
  · rw [List.flatMap_append, Decoder.feedAll_append, follows.read]
    dsimp only
    rw [List.flatMap_singleton, ← decoded, passed, decoder]

variable [ByteOutput ο]

theorem heardFrom_poll (s : Listening ι ο η) (id : PortId) :
    s.poll.heardFrom id =
      s.heardFrom id ++ (s.bay.poll.2.seen.filter (·.1 = id)).map (·.2) := by
  unfold heardFrom poll
  rw [List.filter_append, List.map_append]

theorem Steady.poll (steady : s.Steady settings polled) : s.poll.Steady settings polled := by
  -- What waited came from other ports, so of these ports only the new messages are seen.
  have shown : ∀ id, polled id → s.poll.heardFrom id =
      s.heardFrom id ++ (s.bay.ports[id.index]?).elim [] fun p => p.decoded.2 := by
    intro id chosen
    rw [heardFrom_poll, Patchbay.poll_seen_from steady.proper steady.observed]
    · exact fun x member same => steady.waiting x member (same ▸ chosen)
    · exact fun p found => (steady.follows id p chosen found).kept
  refine ⟨steady.proper.poll, steady.common, steady.observed, ?_, ?_, ?_, ?_⟩
  · intro id q found apart
    obtain ⟨p, before, -, input⟩ := Patchbay.poll_port found
    rw [input]
    exact p.passed_spec.input (steady.unattached id p before apart)
  · exact fun _ member => nomatch member
  · intro id chosen missing
    have before : s.bay.ports[id.index]? = none := by
      rw [List.getElem?_eq_none_iff] at missing ⊢
      rw [← Patchbay.length_poll]
      exact missing
    obtain ⟨chunks, heard⟩ := steady.absent id chosen before
    rw [shown id chosen, heard, before]
    refine ⟨?_, rfl⟩
    change s.chunks id ++ (s.bay.ports[id.index]?.map _).toList = []
    rw [chunks, before]
    rfl
  · intro id q chosen found
    obtain ⟨p, before, inlet, -⟩ := Patchbay.poll_port found
    have next := (steady.follows id p chosen before).pass inlet
    rw [shown id chosen, before]
    change Follows settings q (s.chunks id ++ (s.bay.ports[id.index]?.map _).toList) _
    rw [before]
    exact next

theorem Steady.step {a : Act ι ο η} (steady : s.Steady settings polled) (allowed : a.Allowed)
    (spares : a.Spares polled) : (s.step a).Steady settings polled := by
  have proper := steady.proper.act allowed
  cases about : a.port? with
  | some id =>
    have same : s.step a = { s with bay := s.bay.act a } := by
      cases a with
      | operation op =>
        cases op with
        | poll => exact nomatch about
        | _ => rfl
      | _ => rfl
    rw [same]
    refine steady.touched proper (Patchbay.act_touches about) ?_ ?_ ?_
    · exact Patchbay.hears_spared about spares
    · exact Patchbay.change_undisturbed about spares
    · exact fun other _ unattached => Patchbay.change_unattached about spares other unattached
  | none =>
    cases a with
    | operation op =>
      cases op with
      | addPort name output =>
        refine Patchbay.attempt_cases (P := fun bay' =>
          ({ s with bay := bay' } : Listening ι ο η).Steady settings polled) steady fun _ done => ?_
        obtain ⟨⟨bay', id⟩, added, rfl⟩ := Patchbay.map_ok done
        exact steady.addPort added
      | addRoute r =>
        refine Patchbay.attempt_cases (P := fun bay' =>
          ({ s with bay := bay' } : Listening ι ο η).Steady settings polled) steady fun _ added => ?_
        have next := steady.proper.addRoute added
        obtain ⟨-, rfl⟩ := Patchbay.addRoute_ok added
        exact ⟨next, steady.common, steady.observed, steady.unattached, steady.waiting,
          steady.absent, steady.follows⟩
      | observe on =>
        exact ⟨proper, steady.common, spares, steady.unattached, steady.waiting, steady.absent,
          steady.follows⟩
      | poll => exact steady.poll
      | _ => exact nomatch about
    | _ => exact nomatch about

theorem Steady.run {acts : List (Act ι ο η)} (steady : s.Steady settings polled)
    (spares : ∀ a ∈ acts, a.Allowed ∧ a.Spares polled) : (s.run acts).Steady settings polled := by
  induction acts generalizing s with
  | nil => exact steady
  | cons a rest ih =>
    obtain ⟨⟨allowed, now⟩, later⟩ := List.forall_mem_cons.mp spares
    exact ih (steady.step allowed now) later

theorem Steady.poll_counts (steady : s.Steady settings polled) :
    let chunks := s.bay.ports.map Patchbay.Port.arriving
    s.bay.poll.2.work.bytesIn =
        (chunks.map fun chunk => min (depth settings) chunk.length).sum ∧
      s.bay.poll.2.work.bytesDropped =
        (chunks.map fun chunk => chunk.length - depth settings).sum := by
  have cut : ∀ p ∈ s.bay.ports,
      min p.inlet.queue.room p.arriving.length = min (depth settings) p.arriving.length ∧
        p.arriving.length - p.inlet.queue.room = p.arriving.length - depth settings := by
    intro p member
    obtain ⟨i, found⟩ := List.mem_iff_getElem?.mp member
    obtain rfl : (PortId.ofSource p.inlet.source).index = i := steady.proper.sources i p found
    by_cases left : polled (.ofSource p.inlet.source)
    · rw [(steady.follows _ p left found).room]
      exact ⟨rfl, rfl⟩
    · have nothing := Patchbay.Port.arriving_unattached (steady.unattached _ p found left)
      rw [nothing]
      simp
  obtain ⟨taken, dropped⟩ := Patchbay.pump_counts s.bay
  dsimp only
  rw [List.map_map, List.map_map]
  refine ⟨taken.trans ?_, dropped.trans ?_⟩
  · exact congrArg List.sum (List.map_congr_left fun p member => (cut p member).1)
  · exact congrArg List.sum (List.map_congr_left fun p member => (cut p member).2)

end Listening

/--
Ports that are left to the passes, with any inputs, beside any others. After every act such a port has
an empty queue; of each chunk it has decoded the first bytes, as many as the queue holds, as a fresh
decoder would, and its queue has counted the others as lost. A pass counts the same bytes as taken and
dropped. So two runs that give a port the same bytes in chunks that fit, whatever else happens in
them, show the observer the same messages of it and leave it with the same counters.
-/
theorem sources_read_apart [ByteInput ι] [ByteOutput ο] (settings : Patchbay.Settings)
    (polled : PortId → Prop) (acts : List (Act ι ο η))
    (spares : ∀ a ∈ acts, a.Allowed ∧ a.Spares polled) :
    let depth := max 1 settings.queueCapacity
    let s := (Listening.start settings).run acts
    let fresh := Decoder.new settings.decoding
    let fitting := fun chunks : List (List UInt8) => ∀ chunk ∈ chunks, chunk.length ≤ depth
    (∀ id p, polled id → s.bay.ports[id.index]? = some p →
      p.inlet.queue.bytes = [] ∧
        p.inlet.queue.lost =
          ((s.chunks id).map fun chunk => chunk.length - depth).sum ∧
        fresh.feedAll ((s.chunks id).flatMap (·.take depth)) =
          (p.inlet.decoder, s.heardFrom id)) ∧
      (let chunks := s.bay.ports.map Patchbay.Port.arriving
        let work := s.bay.poll.2.work
        work.bytesIn = (chunks.map fun chunk => min depth chunk.length).sum ∧
          work.bytesDropped = (chunks.map fun chunk => chunk.length - depth).sum ∧
          work.bytesIn + work.bytesDropped = (chunks.map List.length).sum) ∧
      ∀ (polled' : PortId → Prop) (acts' : List (Act ι ο η)),
        (∀ a ∈ acts', a.Allowed ∧ a.Spares polled') →
        let s' := (Listening.start settings).run acts'
        ∀ id p p', polled id → polled' id → s.bay.ports[id.index]? = some p →
          s'.bay.ports[id.index]? = some p' → fitting (s.chunks id) → fitting (s'.chunks id) →
          (s.chunks id).flatten = (s'.chunks id).flatten →
            s.heardFrom id = s'.heardFrom id ∧
              p.inlet.decoder.counters = p'.inlet.decoder.counters := by
  intro depth s fresh fitting
  have steady := (Listening.start_steady settings polled).run spares
  refine ⟨?_, ?_, ?_⟩
  · intro id p left found
    have follows := steady.follows id p left found
    exact ⟨follows.queue, follows.lost, follows.read⟩
  · intro chunks work
    obtain ⟨taken, dropped⟩ := steady.poll_counts
    refine ⟨taken, dropped, ?_⟩
    change s.bay.poll.2.work.bytesIn + s.bay.poll.2.work.bytesDropped = _
    rw [taken, dropped, ← List.sum_map_add]
    refine congrArg List.sum (List.map_congr_left fun chunk _ => ?_)
    omega
  · intro polled' acts' spares' s' id p p' left left' found found' fits fits' same
    have steady' := (Listening.start_steady settings polled').run spares'
    have uncut : ∀ chunks : List (List UInt8), fitting chunks →
        chunks.flatMap (·.take (Listening.depth settings)) = chunks.flatten := by
      intro chunks fits
      rw [List.flatMap_def]
      refine congrArg List.flatten ?_
      refine (List.map_congr_left fun chunk member => ?_).trans (List.map_id chunks)
      exact List.take_of_length_le (fits chunk member)
    have read := (steady.follows id p left found).read
    have read' := (steady'.follows id p' left' found').read
    rw [uncut _ fits, same] at read
    rw [uncut _ fits'] at read'
    obtain ⟨decoder, heard⟩ := Prod.mk.inj (read.symm.trans read')
    exact ⟨heard, congrArg (·.counters) decoder⟩

/--
A note comes in two chunks here and in three there, beside a port whose chunks are too long and one
that is fed by hand.
-/
theorem sources_read_apart_overfull :
    let keys : PortId := { number := 0 }
    let pads : PortId := { number := 1 }
    let clock : PortId := { number := 2 }
    let polled := fun id : PortId => id ≠ clock
    let settings : Patchbay.Settings := { queueCapacity := 4 }
    let add : List (Act Script ByteBuffer Unit) :=
      [.operation (.addPort "keys" none), .operation (.addPort "pads" none),
        .operation (.addPort "clock" none)]
    let here : List (Act Script ByteBuffer Unit) :=
      [.operation (.attachInput keys { chunks := [[0x90, 60], [100]] }),
        .operation (.attachInput pads
          { chunks := [[0x91, 40, 1, 0xF8, 0x40], [0x91, 41], [1, 0x91, 42, 1, 0x91, 43]] }),
        .operation .poll, .operation (.produce { port := clock } [0xF8]),
        .operation (.feed clock Inlet.silent 0xFE), .operation .poll]
    let there : List (Act Script ByteBuffer Unit) :=
      [.operation (.attachInput keys { chunks := [[0x90], [], [60, 100]] }), .operation .poll,
        .operation .poll, .operation (.resetPort clock), .operation .poll]
    let s : Listening Script ByteBuffer Unit := (Listening.start settings).run (add ++ here)
    let s' : Listening Script ByteBuffer Unit := (Listening.start settings).run (add ++ there)
    (∀ a ∈ add ++ here, a.Allowed ∧ a.Spares polled) ∧
      (∀ a ∈ add ++ there, a.Allowed ∧ a.Spares polled) ∧
      s.heardFrom keys = s'.heardFrom keys ∧ s.heardFrom keys = [.noteOn 0 60 100] ∧
      s.heardFrom pads = [.noteOn 1 40 1, .realtime .clock] ∧
      (s.bay.ports[pads.index]?).map (·.inlet.queue.lost) = some 1 ∧
      s.bay.poll.2.work.bytesIn = 4 ∧ s.bay.poll.2.work.bytesDropped = 2 := by
  intro keys pads clock polled settings add here there s s'
  have keysLeft : polled keys := by decide
  have padsLeft : polled pads := by decide
  have clockNot : ¬ polled clock := fun apart => apart rfl
  have spares : ∀ a ∈ add ++ here, a.Allowed ∧ a.Spares polled := by
    simp only [here, add, List.cons_append, List.nil_append, List.forall_mem_cons]
    exact ⟨⟨trivial, trivial⟩, ⟨trivial, trivial⟩, ⟨trivial, trivial⟩, ⟨trivial, keysLeft⟩,
      ⟨trivial, padsLeft⟩, ⟨trivial, trivial⟩, ⟨trivial, clockNot⟩, ⟨trivial, clockNot⟩,
      ⟨trivial, trivial⟩, nofun⟩
  have spares' : ∀ a ∈ add ++ there, a.Allowed ∧ a.Spares polled := by
    simp only [there, add, List.cons_append, List.nil_append, List.forall_mem_cons]
    exact ⟨⟨trivial, trivial⟩, ⟨trivial, trivial⟩, ⟨trivial, trivial⟩, ⟨trivial, keysLeft⟩,
      ⟨trivial, trivial⟩, ⟨trivial, trivial⟩, ⟨trivial, clockNot⟩, ⟨trivial, trivial⟩, nofun⟩
  have present : (s.bay.ports[keys.index]?).isSome = true := by cbv
  have present' : (s'.bay.ports[keys.index]?).isSome = true := by cbv
  have beside : (s.bay.ports[pads.index]?).isSome = true := by cbv
  have chunks : s.chunks keys = [[0x90, 60], [100]] := by cbv
  have chunks' : s'.chunks keys = [[0x90], [], [60, 100]] := by cbv
  have long : s.chunks pads = [[0x91, 40, 1, 0xF8, 0x40], [0x91, 41]] := by cbv
  have next : s.bay.ports.map Patchbay.Port.arriving = [[], [1, 0x91, 42, 1, 0x91, 43], []] := by
    cbv
  obtain ⟨p, found⟩ := Option.isSome_iff_exists.mp present
  obtain ⟨p', found'⟩ := Option.isSome_iff_exists.mp present'
  obtain ⟨q, pad⟩ := Option.isSome_iff_exists.mp beside
  -- From here on the two runs are opaque: all that is used of them stands above.
  have whole := sources_read_apart settings polled (add ++ here) spares
  dsimp only at whole
  have first : (Listening.start settings).run (add ++ here) = s := rfl
  have second : (Listening.start settings).run (add ++ there) = s' := rfl
  rw [first] at whole
  obtain ⟨own, ⟨taken, dropped, -⟩, apart⟩ := whole
  have same := apart polled (add ++ there) spares' keys p
  rw [second] at same
  clear_value s s'
  obtain ⟨-, -, read⟩ := own keys p keysLeft found
  obtain ⟨-, lost, heard⟩ := own pads q padsLeft pad
  obtain ⟨same, -⟩ := same p' keysLeft keysLeft found found' (by rw [chunks]; decide)
    (by rw [chunks']; decide) (by rw [chunks, chunks']; rfl)
  rw [chunks] at read
  rw [long] at lost heard
  rw [next] at taken dropped
  refine ⟨spares, spares', same, ?_, ?_, ?_, taken, dropped⟩
  · exact (congrArg Prod.snd read).symm.trans (by decide)
  · exact (congrArg Prod.snd heard).symm.trans (by decide)
  · rw [pad]
    exact congrArg some (lost.trans (by decide))

end MidiPatch
