import MidiPatch.Link.Reassembled
import MidiPatch.Usb.Link
import MidiPatch.Proofs.Carrying

/-!
# Whole messages through a reassembling output

An outlet writes bytes, and a reassembling output behind it puts the messages together again. The
sink at the end is offered each message as the outlet was handed it, in the call that handed it
over. Whether status bytes were left out on the way, or messages refused, makes no difference.
-/

namespace MidiPatch

section Offers

variable {σ : Type} [MessageOutput σ]

/-- A sink that is offered messages one by one, and how many of them it refuses. -/
def offerAll (sink : σ) : List Message → σ × Nat
  | [] => (sink, 0)
  | m :: ms =>
    let (next, answer) := MessageOutput.send sink m
    let (last, refused) := offerAll next ms
    (last, refusals answer + refused)

theorem offerAll_append (sink : σ) (ms more : List Message) :
    offerAll sink (ms ++ more) =
      ((offerAll (offerAll sink ms).1 more).1,
        (offerAll sink ms).2 + (offerAll (offerAll sink ms).1 more).2) := by
  induction ms generalizing sink with
  | nil => simp [offerAll]
  | cons m rest ih => simp [offerAll, ih, Nat.add_assoc]

end Offers

namespace Reassembled

variable {σ : Type} [MessageOutput σ]

theorem put_offers (r : Reassembled σ) (b : UInt8) :
    (r.put b).1 =
        { decoder := (r.decoder.feed b).1
          sink := (offerAll r.sink (r.decoder.feed b).2.toList).1 } ∧
      refusals (r.put b).2 = (offerAll r.sink (r.decoder.feed b).2.toList).2 := by
  unfold put
  cases r.decoder.feed b with
  | mk d m =>
    cases m with
    | none => exact ⟨rfl, rfl⟩
    | some m => exact ⟨rfl, rfl⟩

theorem putAll_one (r : Reassembled σ) (b : UInt8) : r.putAll [b] = r.put b := by
  unfold putAll
  cases r.put b with
  | mk next answer =>
    cases answer with
    | ok => rfl
    | error e => rfl

end Reassembled

namespace Outlet

variable {σ : Type} [MessageOutput σ]

/-- The decoder behind repeats the statuses that the outlet leaves out. -/
def reassembled (sink : σ) (compress : Bool) (limit : Nat) : Outlet (Reassembled σ) :=
  { output := .new sink { runningStatus := compress, maxSysEx := limit }, compress := compress }

/-- `o'` follows `o`: its decoder is `d`, and its sink was offered `ms`. -/
structure Offers (o o' : Outlet (Reassembled σ)) (d : Decoder) (ms : List Message) : Prop where
  decoder : o'.output.decoder = d
  sink : o'.output.sink = (offerAll o.output.sink ms).1
  errors : o'.counters.sendErrors = o.counters.sendErrors + (offerAll o.output.sink ms).2

theorem Offers.trans {o o' o'' : Outlet (Reassembled σ)} {d d' : Decoder} {ms more : List Message}
    (first : Offers o o' d ms) (second : Offers o' o'' d' more) : Offers o o'' d' (ms ++ more) := by
  refine ⟨second.decoder, ?_, ?_⟩
  · rw [second.sink, first.sink, offerAll_append]
  · rw [second.errors, first.errors, first.sink, offerAll_append, Nat.add_assoc]

theorem offers_byte (o : Outlet (Reassembled σ)) (b : UInt8) :
    Offers o (o.sendByte b) (o.output.decoder.feed b).1 (o.output.decoder.feed b).2.toList := by
  obtain ⟨output, refused⟩ := o.output.put_offers b
  have sent : ByteOutput.send o.output [b] = o.output.put b := o.output.putAll_one b
  have after : (o.sendByte b).output = (o.output.put b).1 := congrArg Prod.fst sent
  refine ⟨?_, ?_, ?_⟩
  · rw [after, output]
  · rw [after, output]
  · rw [sendByte_errors, sent, refused]

theorem offers_all (o : Outlet (Reassembled σ)) (bytes : List UInt8) :
    Offers o (bytes.foldl sendByte o) (o.output.decoder.feedAll bytes).1
      (o.output.decoder.feedAll bytes).2 := by
  induction bytes generalizing o with
  | nil => exact ⟨rfl, rfl, rfl⟩
  | cons b rest ih =>
    have first := offers_byte o b
    have later := ih (o.sendByte b)
    rw [first.decoder] at later
    exact first.trans later

/-- An outlet between messages, in step with the decoder of its own output. -/
structure Packs (limit : Nat) (o : Outlet (Reassembled σ)) : Prop where
  rest : o.AtRest
  linked : Linked o o.output.decoder
  limit : o.output.decoder.options.maxSysEx = limit

omit [MessageOutput σ] in
theorem packs_reassembled (sink : σ) (compress : Bool) (limit : Nat) :
    Packs (max 2 limit) (reassembled sink compress limit) := by
  have start : Receives (reassembled sink compress limit)
      (.new { runningStatus := compress, maxSysEx := limit }) := receives_fresh _ id
  exact ⟨⟨rfl, rfl⟩, start.linked, rfl⟩

variable {limit : Nat} {o : Outlet (Reassembled σ)}

theorem Packs.emit {m : Message} (packs : o.Packs limit) (clean : m.Clean limit) :
    (o.emitMessage m).1.Packs limit ∧
      Offers o (o.emitMessage m).1 (o.output.decoder.took m) [m] := by
  obtain ⟨rest, linked, same⟩ := packs
  obtain ⟨read, next, -⟩ := linked.write rest.safe clean.wellFormed
  have sent := offers_all o (o.boundary.bytesOf o.compress m)
  rw [read, same, clean.clip] at sent
  have offers : Offers o (o.write m) (o.output.decoder.took m) [m] :=
    ⟨sent.decoder, sent.sink, sent.errors⟩
  rw [rest.emit_eq m]
  refine ⟨⟨rest.write clean.wellFormed, ?_, ?_⟩, offers⟩
  · rw [offers.decoder]; exact next
  · rw [offers.decoder, Decoder.took_options, same]

theorem Packs.emitAll {ms : List Message} (packs : o.Packs limit)
    (clean : ∀ m ∈ ms, m.Clean limit) :
    (o.emitAll ms).Packs limit ∧
      Offers o (o.emitAll ms) (ms.foldl Decoder.took o.output.decoder) ms := by
  induction ms generalizing o with
  | nil => exact ⟨packs, rfl, rfl, rfl⟩
  | cons m rest ih =>
    obtain ⟨now, later⟩ := List.forall_mem_cons.mp clean
    obtain ⟨next, first⟩ := packs.emit now
    obtain ⟨last, second⟩ := ih next later
    rw [first.decoder] at second
    exact ⟨last, first.trans second⟩

end Outlet

theorem offerAll_packets (buffer : ByteBuffer) (cable : UInt8) (ms : List Message) :
    (offerAll ({ output := buffer, cable := cable } : Usb.Writer ByteBuffer) ms).1.output.bytes =
      buffer.bytes ++ ms.flatMap fun m => (Usb.packetsOf cable m).flatMap Usb.Packet.bytes := by
  induction ms generalizing buffer with
  | nil => simp [offerAll]
  | cons m rest ih =>
    have later := ih { bytes := buffer.bytes ++ (Usb.packetsOf cable m).flatMap Usb.Packet.bytes }
    rw [List.flatMap_cons, ← List.append_assoc]
    exact later

/--
A sink behind a reassembling output is offered the messages handed to the outlet, each in its own
call, whether or not statuses are left out. Each refusal is counted and changes nothing else. So a
sink that writes packets writes the packets of the messages.
-/
theorem reassembled_offers_each {σ : Type} [MessageOutput σ] (sink : σ) (compress : Bool)
    (limit : Nat) (ms : List Message)
    (clean : ∀ m ∈ ms, m.WellFormed ∧ m.isTruncated = false ∧ m.runLength ≤ limit) :
    (∀ earlier m later, earlier ++ m :: later = ms →
      let o := (Outlet.reassembled sink compress limit).emitAll earlier
      let offer := MessageOutput.send o.output.sink m
      (o.emitMessage m).1.output.sink = offer.1 ∧
        (o.emitMessage m).1.counters.sendErrors =
          o.counters.sendErrors + refusals offer.2) ∧
      ((Outlet.reassembled sink compress limit).emitAll ms).output.sink = (offerAll sink ms).1 ∧
      ((Outlet.reassembled sink compress limit).emitAll ms).counters.sendErrors =
        (offerAll sink ms).2 ∧
      ∀ (buffer : ByteBuffer) (cable : UInt8) (compress' : Bool),
        let writer : Usb.Writer ByteBuffer := { output := buffer, cable := cable }
        ((Outlet.reassembled writer compress' limit).emitAll ms).output.sink.output.bytes =
          buffer.bytes ++ ms.flatMap fun m => (Usb.packetsOf cable m).flatMap Usb.Packet.bytes := by
  have clean' : ∀ m ∈ ms, m.Clean (max 2 limit) := by
    intro m member
    obtain ⟨wellFormed, whole, fits⟩ := clean m member
    exact ⟨wellFormed, whole, Nat.le_trans fits (Nat.le_max_right 2 limit)⟩
  have start := Outlet.packs_reassembled sink compress limit
  obtain ⟨-, offers⟩ := start.emitAll clean'
  refine ⟨?_, offers.sink, ?_, ?_⟩
  · intro earlier m later split o offer
    have before : ∀ m' ∈ earlier, m'.Clean (max 2 limit) := by
      intro m' member
      exact clean' m' (split ▸ List.mem_append_left _ member)
    have now : m.Clean (max 2 limit) := clean' m (split ▸ by simp)
    obtain ⟨-, one⟩ := (start.emitAll before).1.emit now
    exact ⟨one.sink, one.errors⟩
  · exact offers.errors.trans (Nat.zero_add _)
  · intro buffer cable compress' writer
    obtain ⟨-, written⟩ := (Outlet.packs_reassembled writer compress' limit).emitAll clean'
    rw [written.sink]
    exact offerAll_packets buffer cable ms

/-- A sink with room for two messages refuses the later ones, and is offered them all the same. -/
theorem reassembled_offers_each_when_full :
    let ms : List Message :=
      [.noteOn 0 60 100, .noteOn 0 62 100, .realtime .clock, .noteOn 0 64 100]
    let sink : MessageLog := { room := some 2 }
    (∀ m ∈ ms, m.WellFormed ∧ m.isTruncated = false ∧ m.runLength ≤ 2) ∧
      ((Outlet.reassembled sink true 2).emitAll ms).output.sink =
        { messages := [.noteOn 0 60 100, .noteOn 0 62 100], room := some 0 } ∧
      ((Outlet.reassembled sink true 2).emitAll ms).counters.sendErrors = 2 ∧
      ((Outlet.reassembled ({ output := {}, cable := 1 } : Usb.Writer ByteBuffer) true 2).emitAll
        ms).output.sink.output.bytes =
          [0x19, 0x90, 60, 100, 0x19, 0x90, 62, 100, 0x1F, 0xF8, 0, 0, 0x19, 0x90, 64, 100] := by
  intro ms sink
  have clean : ∀ m ∈ ms, m.WellFormed ∧ m.isTruncated = false ∧ m.runLength ≤ 2 := by decide
  obtain ⟨-, offered, errors, packets⟩ := reassembled_offers_each sink true 2 ms clean
  refine ⟨clean, offered.trans (by decide), errors.trans (by decide), ?_⟩
  exact (packets {} 1 true).trans (by decide)

end MidiPatch
