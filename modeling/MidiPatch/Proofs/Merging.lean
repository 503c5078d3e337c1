import MidiPatch.Proofs.Serving

/-!
# Merging whole messages into a raw stream

A decoder behind a shared outlet reads the messages of the raw stream and the whole messages written
so far, each in order and unchanged. It stands in the raw stream where a decoder of its own would.
-/

namespace MidiPatch

open Wire

/-! ### Interleavings -/

inductive Interleaving {α : Type} : List α → List α → List α → Prop
  | nil : Interleaving [] [] []
  | left {x : α} {xs ys zs : List α} (rest : Interleaving xs ys zs) :
      Interleaving (x :: xs) ys (x :: zs)
  | right {y : α} {xs ys zs : List α} (rest : Interleaving xs ys zs) :
      Interleaving xs (y :: ys) (y :: zs)

namespace Interleaving

variable {α : Type} {xs ys zs xs' ys' zs' : List α}

theorem append (first : Interleaving xs ys zs) (second : Interleaving xs' ys' zs') :
    Interleaving (xs ++ xs') (ys ++ ys') (zs ++ zs') := by
  induction first with
  | nil => exact second
  | left _ ih => exact .left ih
  | right _ ih => exact .right ih

theorem only_left (xs : List α) : Interleaving xs [] xs := by
  induction xs with
  | nil => exact .nil
  | cons x xs ih => exact .left ih

theorem only_right (ys : List α) : Interleaving [] ys ys := by
  induction ys with
  | nil => exact .nil
  | cons y ys ih => exact .right ih

end Interleaving

/-! ### Two decoders in the same message -/

namespace Decoder

/-- Two decoders that hold the same part of the same message. -/
structure Alike (d d' : Decoder) : Prop where
  limit : d'.options.maxSysEx = d.options.maxSysEx
  phase : d'.phase = d.phase
  held : d'.held = d.held
  cut : d'.cut = d.cut

/-- A data byte that means something only inside a message. -/
def Firm (d : Decoder) (b : UInt8) : Prop :=
  b < 0x80 → d.options.runningStatus = false ∨ d.phase ≠ .idle

variable {d d' : Decoder}

theorem Alike.finish (h : Alike d d') (bytes : List UInt8) :
    Alike (d.finish bytes).1 (d'.finish bytes).1 ∧ (d'.finish bytes).2 = (d.finish bytes).2 := by
  unfold Decoder.finish
  cases Message.ofBytes? bytes with
  | none => exact ⟨⟨h.limit, rfl, rfl, rfl⟩, rfl⟩
  | some m => exact ⟨⟨h.limit, rfl, rfl, rfl⟩, rfl⟩

theorem Alike.extend (h : Alike d d') (b : UInt8) :
    Alike (d.extend b).1 (d'.extend b).1 ∧ (d'.extend b).2 = (d.extend b).2 := by
  have finished := h.finish (d.held ++ [b])
  obtain ⟨limit, phase, held, cut⟩ := h
  unfold Decoder.extend
  rw [phase, held, limit, cut]
  cases here : d.phase with
  | idle => exact ⟨⟨limit, phase, held, cut⟩, rfl⟩
  | secondOfTwo => exact finished
  | secondOfThree => exact ⟨⟨limit, rfl, rfl, rfl⟩, rfl⟩
  | thirdOfThree => exact finished
  | inSysEx =>
    dsimp only
    split
    · exact ⟨⟨limit, rfl, rfl, rfl⟩, rfl⟩
    · split
      · exact ⟨⟨limit, phase, held, cut⟩, rfl⟩
      · exact ⟨⟨limit, rfl, rfl, rfl⟩, rfl⟩

/-- Apart from the status to repeat, the state decides what a firm byte completes. -/
theorem Alike.feed {b : UInt8} (h : Alike d d') (firm : d.Firm b) (firm' : d'.Firm b) :
    Alike (d.feed b).1 (d'.feed b).1 ∧ (d'.feed b).2 = (d.feed b).2 := by
  have aborted : Alike d.abort d'.abort := by
    rw [abort_eq, abort_eq]; exact ⟨h.limit, rfl, rfl, rfl⟩
  cases byteClass b with
  | data low =>
    by_cases idle : d.phase = .idle
    · have idle' := h.phase.trans idle
      rw [feed_stray low idle (.inr ((firm low).resolve_right (absurd idle))),
        feed_stray low idle' (.inr ((firm' low).resolve_right (absurd idle')))]
      exact ⟨⟨h.limit, h.phase, h.held, h.cut⟩, rfl⟩
    · rw [feed_open low idle, feed_open low (h.phase ▸ idle)]
      exact h.extend b
  | two length =>
    rw [feed_two d length, feed_two d' length]
    exact ⟨⟨aborted.limit, rfl, rfl, aborted.cut⟩, rfl⟩
  | three length =>
    rw [feed_three d length, feed_three d' length]
    exact ⟨⟨aborted.limit, rfl, rfl, aborted.cut⟩, rfl⟩
  | tune =>
    rw [feed_tune, feed_tune]
    exact ⟨⟨aborted.limit, aborted.phase, aborted.held, aborted.cut⟩, rfl⟩
  | opens =>
    rw [feed_opens, feed_opens]
    refine ⟨⟨aborted.limit, rfl, ?_, ?_⟩, rfl⟩
    · simp [capture]
    · simp [capture]
  | closes =>
    by_cases inside : d.phase = .inSysEx
    · rw [feed_closes_run inside, feed_closes_run (h.phase.trans inside)]
      refine ⟨⟨h.limit, rfl, rfl, rfl⟩, ?_⟩
      simp only [finishSysEx, complete, h.held, h.cut]
    · rw [feed_closes_stray inside, feed_closes_stray (h.phase ▸ inside)]
      exact ⟨⟨aborted.limit, aborted.phase, aborted.held, aborted.cut⟩, rfl⟩
  | undefined unused =>
    rw [feed_unused d unused, feed_unused d' unused]
    exact ⟨⟨aborted.limit, aborted.phase, aborted.held, aborted.cut⟩, rfl⟩
  | realtime k =>
    rw [feed_realtime, feed_realtime]
    exact ⟨⟨h.limit, h.phase, h.held, h.cut⟩, rfl⟩

theorem Alike.took_left (h : Alike d d') (ms : List Message) : Alike (ms.foldl took d) d' := by
  induction ms generalizing d with
  | nil => exact h
  | cons m rest ih => exact ih ⟨h.limit, h.phase, h.held, h.cut⟩

/-- No data byte of the stream reaches the decoder between messages and is taken for a repeat. -/
def Steady : Decoder → List UInt8 → Prop
  | _, [] => True
  | d, b :: rest => d.Firm b ∧ Steady (d.feed b).1 rest

/-- No data byte of the stream reaches the decoder between messages. -/
def Unbroken : Decoder → List UInt8 → Prop
  | _, [] => True
  | d, b :: rest => (b < 0x80 → d.phase ≠ .idle) ∧ Unbroken (d.feed b).1 rest

instance decidableUnbroken : (d : Decoder) → (bytes : List UInt8) → Decidable (d.Unbroken bytes)
  | _, [] => isTrue trivial
  | d, b :: rest =>
    have := decidableUnbroken (d.feed b).1 rest
    inferInstanceAs (Decidable ((b < 0x80 → d.phase ≠ .idle) ∧ Unbroken (d.feed b).1 rest))

theorem steady_of_off {bytes : List UInt8} (off : d.options.runningStatus = false) :
    d.Steady bytes := by
  induction bytes generalizing d with
  | nil => trivial
  | cons b rest ih => exact ⟨fun _ => .inl off, ih (by rw [feed_options]; exact off)⟩

theorem steady_of_unbroken {bytes : List UInt8} (alike : Alike d d')
    (off : d.options.runningStatus = false) (unbroken : d.Unbroken bytes) : d'.Steady bytes := by
  -- The two decoders differ in what they may repeat, and an unbroken stream repeats nothing.
  induction bytes generalizing d d' with
  | nil => trivial
  | cons b rest ih =>
    obtain ⟨now, later⟩ := unbroken
    have firm : d'.Firm b := fun low => .inr (alike.phase ▸ now low)
    exact ⟨firm, ih (alike.feed (fun _ => .inl off) firm).1 (by rw [feed_options]; exact off) later⟩

end Decoder

/-! ### The merged stream -/

/-- The decoder behind the outlet stands in the raw stream where a decoder of its own would. -/
structure Merged {ο : Type} (o : Outlet ο) (d own : Decoder) : Prop where
  receives : Receives o d
  alike : Decoder.Alike d own
  options : own.options = d.options
  quiet : o.isSafe = true → o.pending = []
  waiting : ∀ m ∈ o.pending, m.Clean d.options.maxSysEx ∧ m.isRealtime = false

namespace Merged

variable {ο : Type} [ByteOutput ο] [Recording ο] [Accepting ο] {o : Outlet ο} {d own : Decoder}

/-- What offers add to the stream that goes out, to the raw stream, and to the messages sent. -/
def Advances (o : Outlet ο) (d own : Decoder) (offers : List Offer) : Prop :=
  ∃ bytes sent, o.Sends (o.serveAll offers) bytes ∧
    o.pending ++ withoutRealtime (Offer.messages offers) = sent ++ (o.serveAll offers).pending ∧
    Interleaving (withoutRealtime (own.feedAll (Offer.rawBytes offers)).2) sent
      (withoutRealtime (d.feedAll bytes).2) ∧
    Merged (o.serveAll offers) (d.feedAll bytes).1 (own.feedAll (Offer.rawBytes offers)).1

omit [ByteOutput ο] [Recording ο] [Accepting ο] in
theorem attends (merged : Merged o d own) : Attends o d :=
  ⟨merged.receives, merged.quiet, fun m member =>
    ⟨(merged.waiting m member).1.wellFormed, (merged.waiting m member).2⟩⟩

omit [Accepting ο] in
theorem advances_of {offer : Offer} {bytes : List UInt8} {d' : Decoder} {heard : List Message}
    (merged : Merged o d own) (sent : List Message) (serves : Serves o d offer bytes d' heard)
    (line : o.pending ++ withoutRealtime (Offer.messages [offer]) = sent ++ (o.serve offer).pending)
    (mixed : Interleaving (withoutRealtime (own.feedAll (Offer.rawBytes [offer])).2) sent
      (withoutRealtime heard))
    (alike : Decoder.Alike d' (own.feedAll (Offer.rawBytes [offer])).1)
    (waiting : ∀ m ∈ (o.serve offer).pending, m.Clean d.options.maxSysEx ∧ m.isRealtime = false) :
    Advances o d own [offer] := by
  refine ⟨bytes, sent, serves.sends, line, ?_, ?_⟩
  · rw [serves.reads]; exact mixed
  · rw [serves.reads]
    refine ⟨serves.attends.receives, alike, ?_, serves.attends.quiet, ?_⟩
    · rw [Decoder.feedAll_options, merged.options, serves.options]
    · rw [serves.options]; exact waiting

theorem advances_realtime (merged : Merged o d own) (k : Realtime) :
    Advances o d own [.whole (.realtime k)] := by
  obtain ⟨serves, -, pending⟩ := merged.attends.realtime k
  refine merged.advances_of [] serves ?_ .nil (merged.alike.took_left [_]) ?_
  · rw [pending]; simp [Offer.messages, Offer.whole?, withoutRealtime, Message.isRealtime]
  · rw [pending]; exact merged.waiting

theorem advances_plain {m : Message} (merged : Merged o d own) (plain : m.isRealtime = false)
    (clean : m.Clean d.options.maxSysEx) : Advances o d own [.whole m] := by
  have offered : withoutRealtime (Offer.messages [.whole m]) = [m] := by
    simp [Offer.messages, Offer.whole?, withoutRealtime, plain]
  cases safe : o.isSafe with
  | false =>
    obtain ⟨serves, -, pending⟩ := merged.attends.waits safe clean.wellFormed plain
    refine merged.advances_of [] serves ?_ .nil merged.alike ?_
    · rw [pending, offered]; rfl
    · rw [pending]
      intro m' member
      rcases List.mem_append.mp member with old | new
      · exact merged.waiting m' old
      · rw [List.mem_singleton.mp new]; exact ⟨clean, plain⟩
  | true =>
    obtain ⟨serves, -, pending⟩ := merged.attends.goes safe clean.wellFormed plain
    refine merged.advances_of [m] serves ?_ ?_ (merged.alike.took_left [_]) ?_
    · rw [pending, offered, merged.quiet safe]; rfl
    · have line : withoutRealtime [m] = [m] := by simp [withoutRealtime, plain]
      rw [clean.clip, line]
      exact .only_right [m]
    · rw [pending]; exact nofun

theorem advances_raw {b : UInt8} (merged : Merged o d own) (firm : own.Firm b) :
    Advances o d own [.raw b] := by
  have firm' : d.Firm b := by
    unfold Decoder.Firm at firm ⊢
    rwa [merged.options, merged.alike.phase] at firm
  obtain ⟨alike, same⟩ := merged.alike.feed firm' firm
  have own_fed : own.feedAll (Offer.rawBytes [.raw b]) = ((own.feed b).1, (d.feed b).2.toList) := by
    change own.feedAll [b] = _
    rw [Decoder.feedAll_cons, same, Decoder.feedAll_nil, List.append_nil]
  have nothing : o.pending ++ withoutRealtime (Offer.messages [.raw b]) = o.pending :=
    List.append_nil _
  cases safe : (o.sendByte b).isSafe with
  | false =>
    obtain ⟨serves, pending⟩ := merged.attends.raw_open safe
    refine merged.advances_of [] serves ?_ ?_ ?_ ?_
    · rw [nothing, pending]; rfl
    · rw [own_fed]; exact .only_left _
    · rw [own_fed]; exact alike
    · rw [pending]; exact merged.waiting
  | true =>
    have clipped : o.pending.map (Message.clip d.options.maxSysEx) = o.pending :=
      map_clip_of_clean fun m member => (merged.waiting m member).1
    have line : withoutRealtime o.pending = o.pending :=
      List.filter_eq_self.mpr fun m member => by simp [(merged.waiting m member).2]
    -- What waited goes out behind the raw byte, which leaves the decoder between messages.
    obtain ⟨bytes, serves, -, pending⟩ := merged.attends.raw_done safe
    rw [clipped] at serves
    refine merged.advances_of o.pending serves ?_ ?_ ?_ ?_
    · rw [nothing, pending, List.append_nil]
    · rw [own_fed, withoutRealtime_append, line]
      simpa using (Interleaving.only_left _).append (.only_right o.pending)
    · rw [own_fed]; exact alike.took_left _
    · rw [pending]; exact nofun

theorem advances_message {m : Message} (merged : Merged o d own)
    (clean : m.Clean d.options.maxSysEx) : Advances o d own [.whole m] := by
  cases plain : m.isRealtime with
  | true =>
    cases m with
    | realtime k => exact merged.advances_realtime k
    | _ => exact nomatch plain
  | false => exact merged.advances_plain plain clean

theorem advances (merged : Merged o d own) {offers : List Offer}
    (clean : ∀ m ∈ Offer.messages offers, m.Clean d.options.maxSysEx)
    (steady : own.Steady (Offer.rawBytes offers)) : Advances o d own offers := by
  induction offers generalizing o d own with
  | nil => exact ⟨[], [], .refl o, List.append_nil _, .nil, merged⟩
  | cons offer rest ih =>
    obtain ⟨first, later⟩ : Advances o d own [offer] ∧
        (own.feedAll (Offer.rawBytes [offer])).1.Steady (Offer.rawBytes rest) := by
      cases offer with
      | raw b => exact ⟨merged.advances_raw steady.1, steady.2⟩
      | whole m =>
        exact ⟨merged.advances_message (clean m (by simp [Offer.messages, Offer.whole?])), steady⟩
    have raws : Offer.rawBytes (offer :: rest) = Offer.rawBytes [offer] ++ Offer.rawBytes rest :=
      Offer.rawBytes_append [offer] rest
    have wholes : Offer.messages (offer :: rest) = Offer.messages [offer] ++ Offer.messages rest :=
      Offer.messages_append [offer] rest
    obtain ⟨bytes, sent, sends, line, mixed, after⟩ := first
    have clean' : ∀ m ∈ Offer.messages rest, m.Clean (d.feedAll bytes).1.options.maxSysEx := by
      rw [Decoder.feedAll_options]
      exact fun m member => clean m (wholes ▸ List.mem_append_right _ member)
    obtain ⟨bytes', sent', sends', line', mixed', after'⟩ := ih after clean' later
    have served : o.serveAll (offer :: rest) = (o.serveAll [offer]).serveAll rest := rfl
    rw [Advances, served, wholes, raws, Decoder.feedAll_append]
    refine ⟨bytes ++ bytes', sent ++ sent', sends.trans sends', ?_, ?_, ?_⟩
    · rw [withoutRealtime_append, ← List.append_assoc, line, List.append_assoc, line',
        List.append_assoc]
    · rw [Decoder.feedAll_append, withoutRealtime_append, withoutRealtime_append]
      exact mixed.append mixed'
    · rw [Decoder.feedAll_append]
      exact after'

end Merged

/--
A shared outlet damages neither the raw stream nor the whole messages: what the decoder behind it
reads is an interleaving of what it would read in the raw stream alone and of the messages sent.
-/
theorem merge_keeps_both {ο : Type} [ByteOutput ο] [Recording ο] [Accepting ο] (output : ο)
    (compress : Bool) (options : Decoder.Options) (offers : List Offer)
    (clean : ∀ m ∈ Offer.messages offers,
      m.WellFormed ∧ m.isTruncated = false ∧ m.runLength ≤ options.maxSysEx)
    (mode : compress = false ∧ options.runningStatus = false ∨
      options.runningStatus = true ∧
        (Decoder.new { options with runningStatus := false }).Unbroken (Offer.rawBytes offers)) :
    ∃ bytes sent,
      let o : Outlet ο := Outlet.serveAll { output := output, compress := compress } offers
      o.written = Recording.written output ++ bytes ∧
      withoutRealtime (Offer.messages offers) = sent ++ o.pending ∧
      (o.isSafe = true → o.pending = []) ∧
      Interleaving (withoutRealtime ((Decoder.new options).feedAll (Offer.rawBytes offers)).2) sent
        (withoutRealtime ((Decoder.new options).feedAll bytes).2) := by
  have running : compress = true → (Decoder.new options).options.runningStatus = true := by
    rcases mode with ⟨plain, -⟩ | ⟨on, -⟩
    · rw [plain]; exact nofun
    · exact fun _ => on
  have steady : (Decoder.new options).Steady (Offer.rawBytes offers) := by
    rcases mode with ⟨-, off⟩ | ⟨-, unbroken⟩
    · exact Decoder.steady_of_off off
    · have alike : Decoder.Alike (.new { options with runningStatus := false }) (.new options) :=
        ⟨rfl, rfl, rfl, rfl⟩
      exact Decoder.steady_of_unbroken alike rfl unbroken
  have start : Merged ({ output := output, compress := compress } : Outlet ο) (.new options)
      (.new options) :=
    ⟨receives_fresh output running, ⟨rfl, rfl, rfl, rfl⟩, rfl, fun _ => rfl, nofun⟩
  have clean' : ∀ m ∈ Offer.messages offers, m.Clean (Decoder.new options).options.maxSysEx :=
    fun m member =>
      have ⟨wellFormed, whole, fits⟩ := clean m member
      ⟨wellFormed, whole, Nat.le_trans fits (Nat.le_max_right 2 _)⟩
  obtain ⟨bytes, sent, sends, line, mixed, after⟩ := start.advances clean' steady
  exact ⟨bytes, sent, sends.written, line, after.quiet, mixed⟩

/-- A program change and a run wait for a note; a clock does not, and the status is left out. -/
theorem merge_keeps_both_in_note :
    let offers : List Offer :=
      [.raw 0x90, .whole (.programChange 0 5), .raw 60, .whole (.realtime .clock),
        .whole (.sysEx { data := [0xF0, 1, 2, 0xF7] }), .raw 100, .whole (.noteOn 0 60 0),
        .whole (.noteOn 0 62 1), .raw 0xF4, .raw 0x80, .raw 60]
    (∀ m ∈ Offer.messages offers, m.WellFormed ∧ m.isTruncated = false ∧ m.runLength ≤ 8) ∧
      (Decoder.new { maxSysEx := 8 }).Unbroken (Offer.rawBytes offers) ∧
      ∃ bytes sent,
        let o : Outlet ByteBuffer := Outlet.serveAll { output := {}, compress := true } offers
        o.written = [] ++ bytes ∧
        withoutRealtime (Offer.messages offers) = sent ++ o.pending ∧
        (o.isSafe = true → o.pending = []) ∧
        Interleaving
          (withoutRealtime ((Decoder.new { runningStatus := true, maxSysEx := 8 }).feedAll
            (Offer.rawBytes offers)).2)
          sent
          (withoutRealtime ((Decoder.new { runningStatus := true, maxSysEx := 8 }).feedAll
            bytes).2) :=
  ⟨by decide, by decide,
    merge_keeps_both ({} : ByteBuffer) true { runningStatus := true, maxSysEx := 8 }
      [.raw 0x90, .whole (.programChange 0 5), .raw 60, .whole (.realtime .clock),
        .whole (.sysEx { data := [0xF0, 1, 2, 0xF7] }), .raw 100, .whole (.noteOn 0 60 0),
        .whole (.noteOn 0 62 1), .raw 0xF4, .raw 0x80, .raw 60]
      (by decide) (.inr ⟨rfl, by decide⟩)⟩

end MidiPatch
