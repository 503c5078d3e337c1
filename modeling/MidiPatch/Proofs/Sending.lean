import MidiPatch.Link.Memory
import MidiPatch.Outlet.Basic
import MidiPatch.Proofs.Tracking

/-!
# What an outlet sends

Over an output that accepts every byte, the bytes an outlet writes and the boundary it keeps belong
together (`Sends`). `Linked` is what an outlet and the decoder behind it agree on between messages;
writing and releasing messages keeps it, and the decoder reads the messages back.
-/

namespace MidiPatch

/-- Outputs of which the accepted bytes are known. -/
class Recording (ο : Type) [ByteOutput ο] where
  written : ο → List UInt8
  written_send : ∀ (output : ο) (bytes : List UInt8),
    written (ByteOutput.send output bytes).1 =
      match (ByteOutput.send output bytes).2 with
      | .ok () => written output ++ bytes
      | .error _ => written output

class Accepting (ο : Type) [ByteOutput ο] : Prop where
  accepts : ∀ (output : ο) (bytes : List UInt8), (ByteOutput.send output bytes).2 = .ok ()

instance : Recording ByteBuffer where
  written := ByteBuffer.bytes
  written_send _ _ := rfl

instance : Accepting ByteBuffer where
  accepts _ _ := rfl

instance {ο : Type} [ByteOutput ο] [Recording ο] : Recording (Closable ο) where
  written c := Recording.written c.output
  written_send c bytes := by
    obtain ⟨output, isOpen⟩ := c
    cases isOpen with
    | false => rfl
    | true => exact Recording.written_send output bytes

/-- One for a send that was refused. -/
def refusals : Except LinkError Unit → Nat
  | .ok () => 0
  | .error _ => 1

namespace Outlet

variable {ο : Type} [ByteOutput ο]

/-! ### One byte and one message -/

@[simp] theorem sendByte_pending (o : Outlet ο) (b : UInt8) :
    (o.sendByte b).pending = o.pending := rfl

@[simp] theorem sendByte_deferred (o : Outlet ο) (b : UInt8) :
    (o.sendByte b).counters.deferred = o.counters.deferred := rfl

theorem sendByte_errors (o : Outlet ο) (b : UInt8) :
    (o.sendByte b).counters.sendErrors =
      o.counters.sendErrors + refusals (ByteOutput.send o.output [b]).2 := by
  change (match (ByteOutput.send o.output [b]).2 with
    | .ok () => o.counters.sendErrors
    | .error _ => o.counters.sendErrors + 1) = _
  cases (ByteOutput.send o.output [b]).2 with
  | ok => rfl
  | error e => rfl

theorem sendAll_pending (o : Outlet ο) (bytes : List UInt8) :
    (bytes.foldl sendByte o).pending = o.pending := by
  induction bytes generalizing o with
  | nil => rfl
  | cons b rest ih => rw [List.foldl_cons, ih, sendByte_pending]

theorem sendAll_deferred (o : Outlet ο) (bytes : List UInt8) :
    (bytes.foldl sendByte o).counters.deferred = o.counters.deferred := by
  induction bytes generalizing o with
  | nil => rfl
  | cons b rest ih => rw [List.foldl_cons, ih, sendByte_deferred]

theorem sendAll_boundary (o : Outlet ο) (bytes : List UInt8) :
    (bytes.foldl sendByte o).boundary = o.boundary.run bytes := by
  induction bytes generalizing o with
  | nil => rfl
  | cons b rest ih => exact ih (o.sendByte b)

theorem sendAll_compress (o : Outlet ο) (bytes : List UInt8) :
    (bytes.foldl sendByte o).compress = o.compress := by
  induction bytes generalizing o with
  | nil => rfl
  | cons b rest ih => exact ih (o.sendByte b)

theorem write_eq (o : Outlet ο) (m : Message) :
    (o.write m).pending = o.pending ∧ (o.write m).counters.deferred = o.counters.deferred ∧
      (o.write m).output = ((o.boundary.bytesOf o.compress m).foldl sendByte o).output ∧
      (o.write m).boundary = ((o.boundary.bytesOf o.compress m).foldl sendByte o).boundary ∧
      (o.write m).compress = ((o.boundary.bytesOf o.compress m).foldl sendByte o).compress :=
  ⟨sendAll_pending o _, sendAll_deferred o _, rfl, rfl, rfl⟩

theorem write_boundary (o : Outlet ο) (m : Message) :
    (o.write m).boundary = o.boundary.run (o.boundary.bytesOf o.compress m) :=
  sendAll_boundary o _

theorem write_compress (o : Outlet ο) (m : Message) : (o.write m).compress = o.compress :=
  sendAll_compress o _

theorem write_realtime_boundary (o : Outlet ο) (k : Realtime) :
    (o.write (.realtime k)).boundary = o.boundary := by
  rw [write_boundary, Boundary.bytesOf_realtime, Boundary.run_cons, Boundary.next_realtime,
    Boundary.run_nil]

/-- A whole message leaves the stream between messages. -/
theorem write_isSafe {o : Outlet ο} {m : Message} (safe : o.isSafe = true) (wf : m.WellFormed) :
    (o.write m).isSafe = true := by
  cases plain : m.isRealtime with
  | true =>
    cases m with
    | realtime k => rw [isSafe, write_realtime_boundary]; exact safe
    | _ => exact nomatch plain
  | false =>
    rw [isSafe, write_boundary]
    exact (InStep.rests wf plain).safe

/-- An outlet between messages that keeps none waiting. -/
structure AtRest (o : Outlet ο) : Prop where
  safe : o.isSafe = true
  quiet : o.pending = []

theorem AtRest.emit_eq {o : Outlet ο} (rest : o.AtRest) (m : Message) :
    (o.emitMessage m).1 = o.write m := by
  simp [emitMessage, mustWait, rest.safe, rest.quiet]

theorem AtRest.write {o : Outlet ο} {m : Message} (rest : o.AtRest) (wf : m.WellFormed) :
    (o.write m).AtRest :=
  ⟨write_isSafe rest.safe wf, (write_eq o m).1.trans rest.quiet⟩

variable [Recording ο]

/-- Everything an outlet's output has accepted. -/
def written (o : Outlet ο) : List UInt8 := Recording.written o.output

/-- `o'` follows `o` by sending `bytes`. -/
structure Sends (o o' : Outlet ο) (bytes : List UInt8) : Prop where
  written : o'.written = o.written ++ bytes
  boundary : o'.boundary = o.boundary.run bytes
  compress : o'.compress = o.compress

theorem Sends.refl (o : Outlet ο) : Sends o o [] := ⟨by simp, rfl, rfl⟩

theorem Sends.trans {o o' o'' : Outlet ο} {bytes more : List UInt8} (first : Sends o o' bytes)
    (second : Sends o' o'' more) : Sends o o'' (bytes ++ more) :=
  ⟨by rw [second.written, first.written, List.append_assoc],
    by rw [second.boundary, first.boundary, Boundary.run_append],
    second.compress.trans first.compress⟩

theorem Sends.drop {o o' : Outlet ο} {bytes : List UInt8} (sends : Sends o o' bytes) :
    o'.written.drop o.written.length = bytes := by
  rw [sends.written, List.drop_left]

variable [Accepting ο]

theorem sends_byte (o : Outlet ο) (b : UInt8) : Sends o (o.sendByte b) [b] := by
  refine ⟨?_, rfl, rfl⟩
  have kept := Recording.written_send o.output [b]
  rw [Accepting.accepts] at kept
  exact kept

theorem sends_all (o : Outlet ο) (bytes : List UInt8) : Sends o (bytes.foldl sendByte o) bytes := by
  induction bytes generalizing o with
  | nil => exact .refl o
  | cons b rest ih => exact (sends_byte o b).trans (ih (o.sendByte b))

theorem sends_write (o : Outlet ο) (m : Message) :
    Sends o (o.write m) (o.boundary.bytesOf o.compress m) := by
  obtain ⟨written, boundary, compress⟩ := sends_all o (o.boundary.bytesOf o.compress m)
  obtain ⟨-, -, output, same, kept⟩ := write_eq o m
  exact ⟨by rw [Outlet.written, output]; exact written, same.trans boundary, kept.trans compress⟩

theorem sends_release (o : Outlet ο) (ms : List Message) :
    ∃ bytes, Sends o (o.release ms) bytes := by
  induction ms generalizing o with
  | nil => exact ⟨[], (List.append_nil _).symm, rfl, rfl⟩
  | cons m rest ih =>
    unfold release
    split
    · obtain ⟨bytes, later⟩ := ih (o.write m)
      exact ⟨_, (sends_write o m).trans later⟩
    · exact ⟨[], (List.append_nil _).symm, rfl, rfl⟩

end Outlet

/-! ### An outlet and the decoder behind it -/

/-- What an outlet may rely on when it writes whole messages. -/
structure Linked {ο : Type} (o : Outlet ο) (d : Decoder) : Prop where
  inStep : InStep o.boundary d
  running : o.compress = true → d.options.runningStatus = true

namespace Linked

variable {ο : Type} [ByteOutput ο] {o : Outlet ο} {d : Decoder} {m : Message}

/-- At a boundary a message is written so that it is read back, and leaves a boundary behind. -/
theorem write (linked : Linked o d) (safe : o.isSafe = true) (wf : m.WellFormed) :
    d.feedAll (o.boundary.bytesOf o.compress m) = (d.took m, [m.clip d.options.maxSysEx]) ∧
      Linked (o.write m) (d.took m) ∧ (o.write m).isSafe = true := by
  have read := linked.inStep.receives safe linked.running wf
  have running : (o.write m).compress = true → (d.took m).options.runningStatus = true := by
    rw [Outlet.write_compress]; exact linked.running
  refine ⟨read, ⟨?_, running⟩, Outlet.write_isSafe safe wf⟩
  cases plain : m.isRealtime with
  | true =>
    cases m with
    | realtime k =>
      rw [Outlet.write_realtime_boundary]
      exact linked.inStep.realtime k
    | _ => exact nomatch plain
  | false =>
    have rests : (o.write m).boundary.Rests m := by
      rw [Outlet.write_boundary]; exact InStep.rests wf plain
    exact .took (linked.inStep.idle safe) plain rests

theorem write_realtime (linked : Linked o d) (k : Realtime) :
    d.feedAll (o.boundary.bytesOf o.compress (.realtime k)) =
        (d.took (.realtime k), [.realtime k]) ∧
      Linked (o.write (.realtime k)) (d.took (.realtime k)) ∧
      (o.write (.realtime k)).boundary = o.boundary := by
  have boundary := Outlet.write_realtime_boundary o k
  rw [Boundary.bytesOf_realtime]
  refine ⟨Decoder.feedAll_realtime d k, ⟨?_, ?_⟩, boundary⟩
  · rw [boundary]; exact linked.inStep.realtime k
  · rw [Outlet.write_compress]; exact linked.running

variable [Recording ο] [Accepting ο]

theorem release (linked : Linked o d) (safe : o.isSafe = true) {ms : List Message}
    (wf : ∀ m ∈ ms, m.WellFormed) :
    ∃ bytes, o.Sends (o.release ms) bytes ∧
      d.feedAll bytes = (ms.foldl Decoder.took d, ms.map (Message.clip d.options.maxSysEx)) ∧
      Linked (o.release ms) (ms.foldl Decoder.took d) ∧ (o.release ms).isSafe = true ∧
      (o.release ms).pending = [] := by
  induction ms generalizing o d with
  | nil =>
    exact ⟨[], ⟨(List.append_nil _).symm, rfl, rfl⟩, rfl, ⟨linked.inStep, linked.running⟩, safe,
      rfl⟩
  | cons m rest ih =>
    obtain ⟨read, next, again⟩ := linked.write safe (wf m (by simp))
    obtain ⟨bytes, sends, later, last, finally_, empty⟩ :=
      ih next again fun m' member => wf m' (by simp [member])
    rw [Outlet.release, if_pos safe]
    refine ⟨_, (Outlet.sends_write o m).trans sends, ?_, last, finally_, empty⟩
    rw [Decoder.feedAll_append, read, later]
    rfl

end Linked

/-- The decoder has read all that went out, raw bytes included. -/
structure Receives {ο : Type} (o : Outlet ο) (d : Decoder) : Prop where
  valid : d.Valid
  tracks : Tracks o.boundary d
  running : o.compress = true → d.options.runningStatus = true

namespace Receives

variable {ο : Type} [ByteOutput ο] [Recording ο] {o o' : Outlet ο} {d : Decoder}

omit [ByteOutput ο] [Recording ο] in
theorem linked (h : Receives o d) : Linked o d := ⟨.of_tracks h.tracks h.valid, h.running⟩

theorem sends {bytes : List UInt8} (h : Receives o d) (sends : o.Sends o' bytes) :
    Receives o' (d.feedAll bytes).1 := by
  refine ⟨(Decoder.feedAll_valid h.valid bytes).1, ?_, ?_⟩
  · rw [sends.boundary]; exact h.tracks.feedAll h.valid bytes
  · rw [sends.compress, Decoder.feedAll_options]; exact h.running

end Receives

theorem receives_fresh {ο : Type} (output : ο) {compress : Bool} {options : Decoder.Options}
    (running : compress = true → options.runningStatus = true) :
    Receives { output := output, compress := compress } (.new options) :=
  ⟨Decoder.valid_new options, .start options, running⟩

end MidiPatch
