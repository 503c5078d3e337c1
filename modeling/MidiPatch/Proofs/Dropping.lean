import MidiPatch.Proofs.Reassembly
import MidiPatch.Proofs.Resumption

/-!
# What a refusal costs

An output of whole messages may refuse any of them. A reassembling output then reports the refusal
and leaves the rest of its slice unread, so a refused message can take others with it. It costs no
more than itself exactly if the bytes that are left unread would have made no difference.
-/

namespace MidiPatch

/-! ### What a sink is offered -/

/-- A sink that keeps the messages it is offered, refused ones included. -/
structure Tapped (σ : Type) where
  sink : σ
  offered : List Message := []

variable {σ : Type} [MessageOutput σ]

instance : MessageOutput (Tapped σ) where
  send t m :=
    let (sink, answer) := MessageOutput.send t.sink m
    ({ sink, offered := t.offered ++ [m] }, answer)

theorem offerAll_offered (t : Tapped σ) (ms : List Message) :
    (offerAll t ms).1.offered = t.offered ++ ms := by
  induction ms generalizing t with
  | nil => exact (List.append_nil _).symm
  | cons m rest ih =>
    have first : (MessageOutput.send t m).1.offered = t.offered ++ [m] := rfl
    calc (offerAll t (m :: rest)).1.offered
        = (MessageOutput.send t m).1.offered ++ rest := ih _
      _ = t.offered ++ m :: rest := by rw [first, List.append_assoc]; rfl

/-! ### One slice -/

/-- Bytes after which a decoder gives nothing and goes on as if it had not read them. -/
structure Decoder.Traceless (d : Decoder) (bytes : List UInt8) : Prop where
  silent : (d.feedAll bytes).2 = []
  standing : (d.feedAll bytes).1.standing = d.standing

namespace Reassembled

variable {r : Reassembled σ}

/-- The bytes of a slice that are read: those up to the one that completes a refused message. -/
def heeded (r : Reassembled σ) : List UInt8 → List UInt8
  | [] => []
  | b :: rest =>
    match r.put b with
    | (next, .ok ()) => b :: next.heeded rest
    | (_, .error _) => [b]

/-- The bytes of a slice that are left unread. -/
def dropped (r : Reassembled σ) (slice : List UInt8) : List UInt8 :=
  slice.drop (r.heeded slice).length

theorem heeded_dropped (r : Reassembled σ) (slice : List UInt8) :
    r.heeded slice ++ r.dropped slice = slice := by
  have before : ∀ (slice : List UInt8) (r : Reassembled σ), r.heeded slice <+: slice := by
    intro slice
    induction slice with
    | nil => exact fun r => List.prefix_refl []
    | cons b rest ih =>
      intro r
      rw [heeded]
      split
      · exact List.cons_prefix_cons.mpr ⟨rfl, ih _⟩
      · exact ⟨rest, rfl⟩
  exact (List.prefix_iff_eq_append.mp (before slice r)).symm ▸ rfl

theorem heeded_one (r : Reassembled σ) (b : UInt8) : r.heeded [b] = [b] := by
  rw [heeded]
  split
  · rfl
  · rfl

/-- The state of an output after some bytes, if it reads them all. -/
def reading (r : Reassembled σ) (bytes : List UInt8) : Reassembled σ where
  decoder := (r.decoder.feedAll bytes).1
  sink := (offerAll r.sink (r.decoder.feedAll bytes).2).1

theorem reading_append (r : Reassembled σ) (bytes more : List UInt8) :
    r.reading (bytes ++ more) = (r.reading bytes).reading more := by
  unfold reading
  rw [Decoder.feedAll_append, offerAll_append]

theorem send_reads (r : Reassembled σ) (slice : List UInt8) :
    (ByteOutput.send r slice).1 = r.reading (r.heeded slice) := by
  change (r.putAll slice).1 = _
  induction slice generalizing r with
  | nil => rfl
  | cons b rest ih =>
    have one : (r.put b).1 = r.reading [b] := by
      rw [(r.put_offers b).1, reading, Decoder.feedAll_cons, Decoder.feedAll_nil, List.append_nil]
    rw [putAll, heeded]
    cases put : r.put b with
    | mk next answer =>
      rw [put] at one
      cases answer with
      | error e => exact one
      | ok =>
        change (next.putAll rest).1 = r.reading ([b] ++ next.heeded rest)
        rw [ih next, reading_append, ← one]

theorem send_refused_iff (r : Reassembled σ) (slice : List UInt8) :
    (∃ e, (ByteOutput.send r slice).2 = .error e) ↔
      0 < (offerAll r.sink (r.decoder.feedAll slice).2).2 := by
  change (∃ e, (r.putAll slice).2 = .error e) ↔ _
  induction slice generalizing r with
  | nil =>
    constructor
    · rintro ⟨e, same⟩
      exact nomatch same
    · intro some
      exact absurd some (Nat.lt_irrefl 0)
  | cons b rest ih =>
    obtain ⟨state, refused⟩ := r.put_offers b
    rw [putAll, Decoder.feedAll_cons, offerAll_append]
    cases put : r.put b with
    | mk next answer =>
      rw [put] at state refused
      obtain rfl : next = _ := state
      cases answer with
      | error e =>
        change 1 = _ at refused
        rw [← refused]
        exact ⟨fun _ => by omega, fun _ => ⟨e, rfl⟩⟩
      | ok =>
        change 0 = _ at refused
        rw [← refused, Nat.zero_add]
        exact ih _

/-! ### Slice after slice -/

/-- The state of an output after slices, whatever it answered. -/
def after (r : Reassembled σ) (slices : List (List UInt8)) : Reassembled σ :=
  slices.foldl (fun r slice => (ByteOutput.send r slice).1) r

/-- The bytes that are read of slices. -/
def kept (r : Reassembled σ) : List (List UInt8) → List UInt8
  | [] => []
  | slice :: rest => r.heeded slice ++ (ByteOutput.send r slice).1.kept rest

theorem after_concat (r : Reassembled σ) (slices : List (List UInt8)) (slice : List UInt8) :
    r.after (slices ++ [slice]) = (ByteOutput.send (r.after slices) slice).1 := by
  rw [after, List.foldl_concat]
  rfl

theorem after_reads (r : Reassembled σ) (slices : List (List UInt8)) :
    r.after slices = r.reading (r.kept slices) := by
  induction slices generalizing r with
  | nil => rfl
  | cons slice rest ih =>
    rw [kept, reading_append, ← send_reads]
    exact ih _

theorem after_bytewise (r : Reassembled σ) (bytes : List UInt8) :
    r.after (bytes.map ([·])) = r.reading bytes := by
  induction bytes generalizing r with
  | nil => rfl
  | cons b rest ih =>
    have one : (ByteOutput.send r [b]).1 = r.reading [b] := by rw [send_reads, heeded_one]
    calc r.after ((b :: rest).map ([·])) = (ByteOutput.send r [b]).1.after (rest.map ([·])) := rfl
      _ = (r.reading [b]).reading rest := by rw [one, ih]
      _ = r.reading (b :: rest) := (reading_append r [b] rest).symm

/-! ### Nothing more is lost -/

variable {options : Decoder.Options}

/-- The sink was offered what the bytes spell, and the decoder goes on from where they end. -/
structure Whole (options : Decoder.Options) (r : Reassembled (Tapped σ)) (bytes : List UInt8) :
    Prop where
  offered : r.sink.offered = ((Decoder.new options).feedAll bytes).2
  standing : r.decoder.standing = ((Decoder.new options).feedAll bytes).1.standing

theorem reading_offered (r : Reassembled (Tapped σ)) (bytes : List UInt8) :
    (r.reading bytes).sink.offered = r.sink.offered ++ (r.decoder.feedAll bytes).2 :=
  offerAll_offered ..

theorem whole_iff {r : Reassembled (Tapped σ)} (reached : r.decoder.Reached options)
    (bytes : List UInt8) :
    (∀ more : List UInt8, (r.after (more.map ([·]))).sink.offered =
      ((Decoder.new options).feedAll (bytes ++ more)).2) ↔ Whole options r bytes := by
  have alike := Decoder.reads_alike_iff ((Decoder.reached_new options).feedAll bytes) reached
  simp only [after_bytewise, reading_offered, Decoder.feedAll_append]
  constructor
  · intro same
    have offered : r.sink.offered = ((Decoder.new options).feedAll bytes).2 := by
      simpa using same []
    refine ⟨offered, alike.mp fun more => ?_⟩
    have later := same more
    rw [offered] at later
    exact List.append_cancel_left later
  · intro whole more
    rw [whole.offered, alike.mpr whole.standing more]

/-- A slice loses no more than refused messages if the bytes left unread make no difference. -/
theorem Whole.send_iff {r : Reassembled (Tapped σ)} {bytes : List UInt8}
    (whole : Whole options r bytes) (reached : r.decoder.Reached options) (slice : List UInt8) :
    Whole options (ByteOutput.send r slice).1 (bytes ++ slice) ↔
      (r.decoder.feedAll (r.heeded slice)).1.Traceless (r.dropped slice) := by
  have twin : Decoder.Twin ((Decoder.new options).feedAll bytes).1 r.decoder :=
    Decoder.twin_of_standing ((Decoder.reached_new options).feedAll bytes) reached whole.standing
  obtain ⟨twin, heard⟩ := twin.feedAll (r.heeded slice)
  obtain ⟨last, unheard⟩ := twin.feedAll (r.dropped slice)
  have parts : bytes ++ slice = bytes ++ r.heeded slice ++ r.dropped slice := by
    rw [List.append_assoc, heeded_dropped]
  rw [send_reads, parts]
  constructor
  · intro next
    have offered := next.offered
    have standing := next.standing
    rw [reading_offered, whole.offered, heard, Decoder.feedAll_append, Decoder.feedAll_append]
      at offered
    rw [Decoder.feedAll_append, Decoder.feedAll_append] at standing
    refine ⟨?_, last.standing.trans standing.symm⟩
    rw [unheard]
    exact List.self_eq_append_right.mp offered
  · intro traceless
    constructor
    · rw [reading_offered, whole.offered, heard, Decoder.feedAll_append, Decoder.feedAll_append,
        ← unheard, traceless.silent, List.append_nil]
    · rw [Decoder.feedAll_append, Decoder.feedAll_append]
      exact traceless.standing.symm.trans last.standing

omit [MessageOutput σ] in
theorem whole_new (sink : σ) (options : Decoder.Options) :
    Whole options (.new { sink } options : Reassembled (Tapped σ)) [] := ⟨rfl, rfl⟩

/--
A sink behind a reassembling output is offered the messages of the bytes that are read: a call
reports an error exactly if a message of its slice was refused, and leaves the rest of that slice
unread. So the sink is offered the messages of all bytes, at every point and whatever follows,
exactly if the bytes that are left unread complete no message and leave the decoder where it stood.
-/
theorem refusal_costs_itself_iff (sink : σ) (options : Decoder.Options)
    (slices : List (List UInt8)) :
    let start : Reassembled (Tapped σ) := .new { sink } options
    (start.after slices).sink.offered = ((Decoder.new options).feedAll (start.kept slices)).2 ∧
      (∀ earlier slice later, earlier ++ slice :: later = slices →
        let r := start.after earlier
        (∃ e, (ByteOutput.send r slice).2 = .error e) ↔
          0 < (offerAll r.sink (r.decoder.feedAll slice).2).2) ∧
      ((∀ earlier later, earlier ++ later = slices → ∀ more : List UInt8,
          ((start.after earlier).after (more.map ([·]))).sink.offered =
            ((Decoder.new options).feedAll (earlier.flatten ++ more)).2) ↔
        ∀ earlier slice later, earlier ++ slice :: later = slices →
          let r := start.after earlier
          (r.decoder.feedAll (r.heeded slice)).1.Traceless (r.dropped slice)) := by
  intro start
  have reached : ∀ slices, (start.after slices).decoder.Reached options := by
    intro slices
    rw [after_reads]
    exact (Decoder.reached_new options).feedAll _
  have next : ∀ earlier slice, Whole options (start.after earlier) earlier.flatten →
      (Whole options (start.after (earlier ++ [slice])) (earlier ++ [slice]).flatten ↔
        ((start.after earlier).decoder.feedAll ((start.after earlier).heeded slice)).1.Traceless
          ((start.after earlier).dropped slice)) := by
    intro earlier slice whole
    rw [after_concat, List.flatten_concat]
    exact whole.send_iff (reached earlier) slice
  refine ⟨?_, fun earlier slice _ _ => send_refused_iff _ slice, ?_, ?_⟩
  · rw [after_reads, reading_offered]
    rfl
  · intro same earlier slice later split
    have before := (whole_iff (reached earlier) _).mp (same earlier (slice :: later) split)
    have after := same (earlier ++ [slice]) later (by rw [List.append_assoc]; exact split)
    exact (next earlier slice before).mp ((whole_iff (reached _) _).mp after)
  · intro traceless earlier
    -- From the front: each slice adds to what was whole before it.
    have whole : ∀ later, earlier ++ later = slices →
        Whole options (start.after earlier) earlier.flatten := by
      induction earlier using List.reverseRecOn with
      | nil => exact fun _ _ => whole_new sink options
      | append_singleton earlier slice ih =>
        intro later split
        rw [List.append_assoc] at split
        exact (next earlier slice (ih _ split)).mpr (traceless earlier slice later split)
    intro later split
    exact (whole_iff (reached earlier) _).mpr (whole later split)

/--
A sink that is full refuses a program change, and the note that begins in the same slice is lost
with it. Byte by byte it is not.
-/
theorem refusal_takes_next_message :
    let start : Reassembled (Tapped MessageLog) := .new { sink := { room := some 0 } } {}
    let slices : List (List UInt8) := [[0xC0, 5, 0x90, 60], [64]]
    (start.after slices).sink.offered = [.programChange 0 5] ∧
      ((Decoder.new {}).feedAll slices.flatten).2 = [.programChange 0 5, .noteOn 0 60 64] ∧
      (start.after slices).sink.offered ≠ ((Decoder.new {}).feedAll slices.flatten).2 ∧
      (start.after (slices.flatten.map ([·]))).sink.offered =
        ((Decoder.new {}).feedAll slices.flatten).2 := by
  decide

end Reassembled

end MidiPatch
