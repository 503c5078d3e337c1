import MidiPatch.Patchbay.Basic
import MidiPatch.Proofs.Sending

/-!
# Outlets that carry whole messages only

An outlet that is never given raw bytes is at a boundary after each message, lets none wait, and a
decoder behind it reads back what the outlet was handed. Starting the stream over changes none of
this.
-/

namespace MidiPatch

namespace Outlet

variable {ο : Type} [ByteOutput ο]

def emitAll (o : Outlet ο) (ms : List Message) : Outlet ο :=
  ms.foldl (fun o m => (o.emitMessage m).1) o

@[simp] theorem emitAll_nil (o : Outlet ο) : o.emitAll [] = o := rfl

theorem emitAll_append (o : Outlet ο) (ms more : List Message) :
    o.emitAll (ms ++ more) = (o.emitAll ms).emitAll more := List.foldl_append ..

/-- An outlet that was handed `ms` and sent them after the bytes in `earlier`. -/
structure Carries [Recording ο] (options : Decoder.Options) (earlier : List UInt8)
    (ms : List Message) (o : Outlet ο) : Prop where
  safe : o.isSafe = true
  quiet : o.pending = []
  undeferred : o.counters.deferred = 0
  wire : ∃ bytes, o.written = earlier ++ bytes ∧
    Linked o ((Decoder.new options).feedAll bytes).1 ∧
    ((Decoder.new options).feedAll bytes).2 = ms.map (Message.clip (max 2 options.maxSysEx)) ∧
    ((Decoder.new options).feedAll bytes).1.counters.framingErrors = 0 ∧
    ((Decoder.new options).feedAll bytes).1.counters.aborted = 0

namespace Carries

variable [Recording ο] {o : Outlet ο} {options : Decoder.Options} {earlier : List UInt8}
  {ms : List Message}

theorem fresh (output : ο) {compress : Bool}
    (running : compress = true → options.runningStatus = true) :
    Carries options (Recording.written output) [] { output := output, compress := compress } := by
  have start : Receives { output := output, compress := compress } (.new options) :=
    receives_fresh output running
  exact ⟨rfl, rfl, rfl, [], (List.append_nil _).symm, start.linked, rfl, rfl, rfl⟩

theorem reset (carries : o.Carries options earlier ms) : o.reset.Carries options earlier ms := by
  obtain ⟨safe, quiet, undeferred, bytes, written, linked, read, framing, aborted⟩ := carries
  have restarted : o.reset = { o with boundary := {}, pending := [] } := by
    simp [Outlet.reset, flush, quiet, release]
  rw [restarted]
  exact ⟨rfl, rfl, undeferred, bytes, written,
    ⟨.fresh (linked.inStep.idle safe), linked.running⟩, read, framing, aborted⟩

variable [Accepting ο]

theorem emit {m : Message} (carries : o.Carries options earlier ms) (wf : m.WellFormed) :
    (o.emitMessage m).1.Carries options earlier (ms ++ [m]) := by
  obtain ⟨safe, quiet, undeferred, bytes, written, linked, read, framing, aborted⟩ := carries
  have at_once := AtRest.emit_eq ⟨safe, quiet⟩ m
  obtain ⟨last, next, again⟩ := linked.write safe wf
  obtain ⟨sent, -, -⟩ := sends_write o m
  obtain ⟨pending, deferred, -⟩ := write_eq o m
  rw [at_once]
  refine ⟨again, pending.trans quiet, deferred.trans undeferred,
    bytes ++ o.boundary.bytesOf o.compress m, ?_, ?_, ?_, ?_, ?_⟩
  · rw [sent, written, List.append_assoc]
  · rw [Decoder.feedAll_append, last]; exact next
  · rw [Decoder.feedAll_append, last, read, Decoder.feedAll_options, List.map_append]; rfl
  · rw [Decoder.feedAll_append, last]; exact framing
  · rw [Decoder.feedAll_append, last]; exact aborted

theorem emitAll {more : List Message} (carries : o.Carries options earlier ms)
    (wf : ∀ m ∈ more, m.WellFormed) : (o.emitAll more).Carries options earlier (ms ++ more) := by
  induction more generalizing o ms with
  | nil => rwa [List.append_nil]
  | cons m rest ih =>
    obtain ⟨now, later⟩ := List.forall_mem_cons.mp wf
    have rest_ := ih (carries.emit now) later
    rwa [List.append_assoc, List.singleton_append] at rest_

end Carries

end Outlet

end MidiPatch
