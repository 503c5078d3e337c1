import MidiPatch.Patchbay.Pass
import MidiPatch.Proofs.Reception

/-!
# What a pass reads

An inlet whose handlers put nothing back decodes its queue in one run, whatever the batches. So a
pass decodes, of every port, the bytes that were queued and those of the attached input that found
room behind them.
-/

namespace MidiPatch

namespace Fifo

theorem enqueue_room {q : Fifo} (room : q.bytes.length < q.capacity) (b : UInt8) :
    q.enqueue b = ({ q with bytes := q.bytes ++ [b] }, true) := by
  unfold enqueue
  rw [if_pos room]

theorem enqueue_full {q : Fifo} (full : q.capacity ≤ q.bytes.length) (b : UInt8) :
    q.enqueue b = ({ q with lost := q.lost + 1, lossFlag := !q.lossFlag }, false) := by
  unfold enqueue
  rw [if_neg (Nat.not_lt.mpr full)]

def room (q : Fifo) : Nat := q.capacity - q.bytes.length

/-- A queue takes the first bytes of a run, as many as it has room for, and counts the others. -/
structure Takes (q : Fifo) (run : List UInt8) (after : Fifo) (taken : Nat) : Prop where
  bytes : after.bytes = q.bytes ++ run.take q.room
  lost : after.lost = q.lost + (run.length - q.room)
  capacity : after.capacity = q.capacity
  taken : taken = min q.room run.length

theorem enqueueAll_takes (q : Fifo) (run : List UInt8) :
    q.Takes run (q.enqueueAll run).1 (q.enqueueAll run).2 := by
  induction run generalizing q with
  | nil => exact ⟨by simp, by simp, rfl, by simp⟩
  | cons b rest ih =>
    rw [enqueueAll_cons]
    -- A queue that is full stays full for the rest of the run.
    by_cases free : q.bytes.length < q.capacity
    · obtain ⟨bytes, lost, capacity, taken⟩ := ih { q with bytes := q.bytes ++ [b] }
      have less : ({ q with bytes := q.bytes ++ [b] } : Fifo).room + 1 = q.room := by
        simp only [room, List.length_append, List.length_singleton]
        omega
      rw [enqueue_room free]
      dsimp only at lost ⊢
      refine ⟨?_, ?_, capacity, ?_⟩
      · rw [bytes, ← less, List.take_succ_cons, List.append_assoc, List.singleton_append]
      · rw [lost, List.length_cons]
        omega
      · rw [taken, List.length_cons, Bool.toNat_true]
        omega
    · have full := Nat.not_lt.mp free
      obtain ⟨bytes, lost, capacity, taken⟩ :=
        ih { q with lost := q.lost + 1, lossFlag := !q.lossFlag }
      have none_left : q.room = 0 := Nat.sub_eq_zero_of_le full
      have still : ({ q with lost := q.lost + 1, lossFlag := !q.lossFlag } : Fifo).room = 0 :=
        none_left
      rw [enqueue_full full]
      dsimp only at bytes lost ⊢
      rw [still] at bytes lost taken
      refine ⟨?_, ?_, capacity, ?_⟩
      · rw [bytes, none_left, List.take_zero, List.take_zero]
      · rw [lost, none_left, List.length_cons]
        omega
      · rw [taken, none_left, Nat.zero_min, Nat.zero_min]
        rfl

end Fifo

namespace Inlet

variable {η : Type}

namespace Pass

/-- The pass after these bytes, when the handlers put nothing into the queue. -/
def after (p : Pass η) (bytes : List UInt8) : Pass η :=
  { inlet := { p.inlet with decoder := (p.inlet.decoder.feedAll bytes).1 }
    calls := p.calls ++
      (p.inlet.decoder.feedAll bytes).2.flatMap (p.inlet.handlers.calls p.inlet.source)
    messages := p.messages ++ (p.inlet.decoder.feedAll bytes).2 }

theorem callAll_silent (p : Pass η) (calls : List (Call η)) :
    calls.foldl (call silent) p = { p with calls := p.calls ++ calls } := by
  induction calls generalizing p with
  | nil => rw [List.append_nil]; rfl
  | cons c rest ih =>
    rw [List.foldl_cons, ih, ← List.singleton_append, ← List.append_assoc]
    rfl

theorem feed_silent (p : Pass η) (b : UInt8) : p.feed silent b = p.after [b] := by
  have one : p.inlet.decoder.feedAll [b] =
      ((p.inlet.decoder.feed b).1, (p.inlet.decoder.feed b).2.toList) := by
    simp [Decoder.feedAll]
  unfold feed after
  rw [one]
  cases p.inlet.decoder.feed b with
  | mk d m =>
    cases m with
    | none => simp
    | some m =>
      dsimp only
      rw [callAll_silent]
      simp

theorem after_after (p : Pass η) (bytes more : List UInt8) :
    (p.after bytes).after more = p.after (bytes ++ more) := by
  unfold after
  rw [Decoder.feedAll_append]
  simp

theorem feedAll_silent (p : Pass η) (bytes : List UInt8) :
    bytes.foldl (feed silent) p = p.after bytes := by
  induction bytes generalizing p with
  | nil => simp [after]
  | cons b rest ih => rw [List.foldl_cons, ih, feed_silent, after_after, List.singleton_append]

/-- Batches make no difference: the whole queue is decoded. -/
theorem drain_silent {batch : Nat} (positive : 0 < batch) (p : Pass η) :
    p.drain silent batch p.inlet.queue.bytes.length =
      ({ p with inlet.queue.bytes := [] } : Pass η).after p.inlet.queue.bytes := by
  induction length : p.inlet.queue.bytes.length using Nat.strongRecOn generalizing p with
  | ind remaining ih =>
    subst length
    rw [drain]
    split
    · next empty =>
      rw [List.length_eq_zero_iff.mp empty]
      obtain ⟨⟨source, name, ⟨capacity, bytes, lost, flag⟩, decoder, handlers⟩, calls, messages⟩ := p
      obtain rfl : bytes = [] := List.length_eq_zero_iff.mp empty
      simp [after]
    · next nonempty =>
      have taken : (p.inlet.queue.dequeueBatch
          (min p.inlet.queue.bytes.length batch)).2.length =
            min p.inlet.queue.bytes.length batch := by
        simp [Fifo.dequeueBatch]
      dsimp only
      rw [if_neg (by omega), feedAll_silent]
      have rest := ih
        (p.inlet.queue.bytes.length - min p.inlet.queue.bytes.length batch) (by omega)
        (({ p with inlet.queue :=
          (p.inlet.queue.dequeueBatch (min p.inlet.queue.bytes.length batch)).1 } : Pass η).after
            (p.inlet.queue.dequeueBatch (min p.inlet.queue.bytes.length batch)).2)
        (by simp [after, Fifo.dequeueBatch])
      rw [taken, rest]
      -- What was in the queue is this batch and what the next ones take.
      have cut : p.inlet.queue.bytes.take (min p.inlet.queue.bytes.length batch) ++
          p.inlet.queue.bytes.drop (min p.inlet.queue.bytes.length batch) =
            p.inlet.queue.bytes := List.take_append_drop _ _
      conv => rhs; rw [← cut]
      rw [← after_after]
      rfl

end Pass

theorem process_silent (i : Inlet η) :
    i.process silent =
      ({ inlet := { i with queue.bytes := [] } } : Pass η).after i.queue.bytes :=
  Pass.drain_silent (by decide) { inlet := i }

/-! ### Handlers that put bytes back -/

/-- Calls of handlers of this inlet. -/
structure Pass.Of (i : Inlet η) (p : Pass η) : Prop where
  source : p.inlet.source = i.source
  handlers : p.inlet.handlers = i.handlers
  calls : ∀ c ∈ p.calls, c.source = i.source

namespace Pass

variable {i : Inlet η} {p : Pass η} {echo : Echo η}

theorem Of.call {c : Call η} (own : p.Of i) (source : c.source = i.source) :
    (p.call echo c).Of i := by
  refine ⟨own.source, own.handlers, ?_⟩
  intro c' member
  rcases List.mem_append.mp member with old | new
  · exact own.calls c' old
  · rw [List.mem_singleton.mp new]; exact source

theorem Of.feed (own : p.Of i) (b : UInt8) : (p.feed echo b).Of i := by
  have source := own.source
  unfold Pass.feed
  cases p.inlet.decoder.feed b with
  | mk d m =>
    cases m with
    | none => exact ⟨own.source, own.handlers, own.calls⟩
    | some m =>
      refine List.foldlRecOn _ _ ⟨own.source, own.handlers, own.calls⟩ fun p own c member => ?_
      obtain ⟨h, -, rfl⟩ := List.mem_map.mp member
      exact own.call source

theorem Of.drain {batch remaining : Nat} (own : p.Of i) :
    (p.drain echo batch remaining).Of i :=
  drain_keeps (fun _ _ own => ⟨own.source, own.handlers, own.calls⟩) (fun _ b own => own.feed b) own

theorem Of.start (i : Inlet η) : Pass.Of i { inlet := i } := ⟨rfl, rfl, nofun⟩

end Pass

theorem feed_of (i : Inlet η) (echo : Echo η) (b : UInt8) : (i.feed echo b).Of i :=
  (Pass.Of.start i).feed b

theorem process_of (i : Inlet η) (echo : Echo η) : (i.process echo).Of i := (Pass.Of.start i).drain

end Inlet

/-! ### The ports of a patchbay -/

namespace Patchbay

variable {ι ο η : Type} [ByteInput ι]

namespace Port

/-- What the attached input of a port delivers when it is asked now. -/
def arriving (p : Port ι ο η) : List UInt8 :=
  match p.input, p.producerHeld with
  | some input, true => (ByteInput.poll input).2
  | _, _ => []

/-- The bytes that a pass decodes: the queued ones and those that find room behind them. -/
def read (p : Port ι ο η) : List UInt8 :=
  p.inlet.queue.bytes ++ p.arriving.take p.inlet.queue.room

/-- The state a pass leaves the decoder in, and the messages it completes. -/
def decoded (p : Port ι ο η) : Decoder × List Message := p.inlet.decoder.feedAll p.read

theorem arriving_unattached {p : Port ι ο η} (unattached : p.input = none) : p.arriving = [] := by
  unfold arriving
  rw [unattached]

theorem pump_cases (p : Port ι ο η) :
    (∃ input, p.pump.1 =
        { p with input, inlet.queue := (p.inlet.queue.enqueueAll p.arriving).1 } ∧
      (p.input = none → input = none)) ∧
      p.pump.2.1 = min p.inlet.queue.room p.arriving.length ∧
      p.pump.2.2 = p.arriving.length - p.inlet.queue.room := by
  obtain ⟨name, inlet, held, input, outlet⟩ := p
  match input, held with
  | none, _ => exact ⟨⟨none, rfl, fun _ => rfl⟩, (Nat.min_zero _).symm, (Nat.zero_sub _).symm⟩
  | some input, false =>
    exact ⟨⟨some input, rfl, nofun⟩, (Nat.min_zero _).symm, (Nat.zero_sub _).symm⟩
  | some input, true =>
    have taken := (inlet.queue.enqueueAll_takes (ByteInput.poll input).2).taken
    refine ⟨⟨some (ByteInput.poll input).1, rfl, nofun⟩, taken, ?_⟩
    change (ByteInput.poll input).2.length - (inlet.queue.enqueueAll (ByteInput.poll input).2).2 =
      (ByteInput.poll input).2.length - inlet.queue.room
    omega

/-- A port after its part of a pass, the delivery apart. -/
def passed (p : Port ι ο η) : Port ι ο η :=
  { p.pump.1 with inlet := (p.pump.1.inlet.process Inlet.silent).inlet }

theorem process_pumped (p : Port ι ο η) :
    (p.pump.1.inlet.process Inlet.silent).calls =
        p.decoded.2.flatMap (p.inlet.handlers.calls p.inlet.source) ∧
      (p.pump.1.inlet.process Inlet.silent).messages = p.decoded.2 := by
  obtain ⟨⟨input, pumped, -⟩, -, -⟩ := p.pump_cases
  rw [Inlet.process_silent, pumped]
  dsimp only [Inlet.Pass.after]
  rw [(p.inlet.queue.enqueueAll_takes p.arriving).bytes]
  exact ⟨rfl, rfl⟩

structure Passed (p q : Port ι ο η) : Prop where
  source : q.inlet.source = p.inlet.source
  handlers : q.inlet.handlers = p.inlet.handlers
  decoder : q.inlet.decoder = p.decoded.1
  queue : q.inlet.queue.bytes = []
  capacity : q.inlet.queue.capacity = p.inlet.queue.capacity
  lost : q.inlet.queue.lost = p.inlet.queue.lost + (p.arriving.length - p.inlet.queue.room)
  input : p.input = none → q.input = none
  outlet : q.outlet = p.outlet

theorem passed_spec (p : Port ι ο η) : p.Passed p.passed := by
  obtain ⟨⟨input, pumped, attached⟩, -, -⟩ := p.pump_cases
  obtain ⟨bytes, lost, capacity, -⟩ := p.inlet.queue.enqueueAll_takes p.arriving
  unfold passed
  rw [Inlet.process_silent, pumped]
  dsimp only [Inlet.Pass.after]
  rw [bytes]
  exact ⟨rfl, rfl, rfl, rfl, capacity, lost, attached, rfl⟩

end Port

variable (bay : Patchbay ι ο η)

theorem decoded_ports : bay.pump.1.decode.1.ports = bay.ports.map Port.passed := by
  unfold pump decode
  dsimp only
  rw [← List.map_prod_left_eq_zip, List.map_map, List.map_map, List.map_map]
  rfl

theorem decoded_undelivered :
    bay.pump.1.decode.1.undelivered = bay.undelivered ++
      heard (bay.ports.flatMap fun p =>
        p.decoded.2.flatMap (p.inlet.handlers.calls p.inlet.source)) := by
  unfold pump decode
  dsimp only
  rw [List.map_map, List.map_map, List.flatMap_map]
  refine congrArg (fun calls => bay.undelivered ++ heard calls) ?_
  exact congrArg (bay.ports.flatMap ·) (funext fun p => p.process_pumped.1)

theorem decoded_messages :
    bay.pump.1.decode.2.2 = (bay.ports.flatMap fun p => p.decoded.2).length := by
  unfold pump decode
  dsimp only
  rw [List.map_map, List.map_map, List.flatMap_map]
  refine congrArg List.length (congrArg (bay.ports.flatMap ·) (funext fun p => ?_))
  exact p.process_pumped.2

theorem pump_counts :
    bay.pump.2.1 = (bay.ports.map fun p => min p.inlet.queue.room p.arriving.length).sum ∧
      bay.pump.2.2 = (bay.ports.map fun p => p.arriving.length - p.inlet.queue.room).sum := by
  unfold pump
  dsimp only
  rw [List.foldl_map, List.foldl_map, List.sum_eq_foldl, List.sum_eq_foldl, List.foldl_map,
    List.foldl_map]
  refine ⟨congrArg (bay.ports.foldl · 0) (funext₂ fun n p => ?_),
    congrArg (bay.ports.foldl · 0) (funext₂ fun n p => ?_)⟩
  · exact congrArg (n + ·) p.pump_cases.2.1
  · exact congrArg (n + ·) p.pump_cases.2.2

end Patchbay

end MidiPatch
