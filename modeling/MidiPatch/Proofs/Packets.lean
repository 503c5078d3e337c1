import MidiPatch.Link.Memory
import MidiPatch.Usb.Link
import MidiPatch.Proofs.Recovery

/-!
# Messages in packets

The payload of the packets of a message is the bytes of the message, and a reader finds the packets
however the stream is cut. So what writers of several cables put into one stream, their packets mixed
in any way, comes out of a reader of one cable as the messages of that cable.
-/

namespace MidiPatch

open Wire

/-- What a link hands over when it is asked `n` times, call by call. -/
def pollEach {ι : Type} [ByteInput ι] (link : ι) : Nat → List (List UInt8)
  | 0 => []
  | n + 1 => (ByteInput.poll link).2 :: pollEach (ByteInput.poll link).1 n

theorem pollEach_script (chunks : List (List UInt8)) :
    pollEach ({ chunks } : Script) chunks.length = chunks := by
  induction chunks with
  | nil => rfl
  | cons chunk rest ih => exact congrArg (chunk :: ·) ih

namespace Usb

/-! ### The payload of packets -/

namespace Packet

structure Fits (p : Packet) : Prop where
  cable : p.cable < 16
  codeIndex : p.codeIndex < 16

theorem header_parts : ∀ cable < 16, ∀ codeIndex < 16,
    let header := ((UInt8.ofNat cable &&& 0x0F) <<< 4) ||| (UInt8.ofNat codeIndex &&& 0x0F)
    header >>> 4 = UInt8.ofNat cable ∧ header &&& 0x0F = UInt8.ofNat codeIndex := by
  decide +kernel

/-- The four bytes of a packet say all there is in it. -/
theorem exists_bytes {p : Packet} (fits : p.Fits) :
    ∃ h a b c, p.bytes = [h, a, b, c] ∧ ofBytes h a b c = p := by
  obtain ⟨cable, codeIndex, first, second, third⟩ := p
  obtain ⟨low, small⟩ := fits
  have parts := header_parts cable.toNat low codeIndex.toNat small
  rw [UInt8.ofNat_toNat, UInt8.ofNat_toNat] at parts
  obtain ⟨upper, lower⟩ := parts
  refine ⟨_, first, second, third, rfl, ?_⟩
  rw [ofBytes, upper, lower]

end Packet

theorem payloadLength_codeIndexOf (s : UInt8) :
    (lengthOf s = .one → payloadLength (codeIndexOf s) = 1) ∧
      (lengthOf s = .two → payloadLength (codeIndexOf s) = 2) ∧
      (lengthOf s = .three → payloadLength (codeIndexOf s) = 3) ∧ codeIndexOf s < 16 := by
  revert s
  exact forall_byte (by decide +kernel)

theorem payload_single (cable : UInt8) {m : Message} (fixed : ∀ x, m ≠ .sysEx x) :
    (Packet.filled cable (codeIndexOf m.status) m.encode).payload = m.encode := by
  have length := m.length_encode fixed
  obtain ⟨one, two, three, -⟩ := payloadLength_codeIndexOf m.status
  unfold Packet.payload Packet.data Packet.filled
  cases known : lengthOf m.status with
  | one =>
    rw [known] at length
    obtain ⟨a, bytes⟩ := List.length_eq_one_iff.mp (Option.some.inj length).symm
    rw [one known, bytes]; rfl
  | two =>
    rw [known] at length
    obtain ⟨a, b, bytes⟩ := List.length_eq_two.mp (Option.some.inj length).symm
    rw [two known, bytes]; rfl
  | three =>
    rw [known] at length
    obtain ⟨a, b, c, bytes⟩ := List.length_eq_three.mp (Option.some.inj length).symm
    rw [three known, bytes]; rfl
  | undefined => rw [known] at length; exact nomatch length

/-- `ps` are packets of this cable that carry `bytes`. -/
structure Carrying (cable : UInt8) (ps : List Packet) (bytes : List UInt8) : Prop where
  payload : ps.flatMap Packet.payload = bytes
  cable : ∀ p ∈ ps, p.cable = cable
  codeIndex : ∀ p ∈ ps, p.codeIndex < 16

theorem carrying_one {cable codeIndex : UInt8} {bytes : List UInt8} (small : codeIndex < 16)
    (payload : (Packet.filled cable codeIndex bytes).payload = bytes) :
    Carrying cable [.filled cable codeIndex bytes] bytes := by
  refine ⟨(List.append_nil _).trans payload, ?_, ?_⟩
  · intro p member
    rw [List.mem_singleton.mp member]; rfl
  · intro p member
    rw [List.mem_singleton.mp member]; exact small

theorem Carrying.append {cable : UInt8} {ps qs : List Packet} {bytes more : List UInt8}
    (first : Carrying cable ps bytes) (second : Carrying cable qs more) :
    Carrying cable (ps ++ qs) (bytes ++ more) := by
  refine ⟨?_, ?_, ?_⟩
  · rw [List.flatMap_append, first.payload, second.payload]
  · exact fun p member => (List.mem_append.mp member).elim (first.cable p) (second.cable p)
  · exact fun p member => (List.mem_append.mp member).elim (first.codeIndex p) (second.codeIndex p)

theorem payloadLength_of_run :
    payloadLength 0x4 = 3 ∧ payloadLength 0x5 = 1 ∧ payloadLength 0x6 = 2 ∧
      payloadLength 0x7 = 3 := by decide

theorem carrying_run (cable : UInt8) (bytes : List UInt8) :
    Carrying cable (packetsOfRun cable bytes) bytes := by
  obtain ⟨inside, one, two, three⟩ := payloadLength_of_run
  have carrying : ∀ codeIndex < 16, ∀ short : List UInt8,
      (Packet.filled cable codeIndex short).data.take (payloadLength codeIndex) = short →
      Carrying cable [.filled cable codeIndex short] short := fun _ small _ => carrying_one small
  fun_induction packetsOfRun cable bytes with
  | case1 => exact ⟨rfl, nofun, nofun⟩
  | case2 a b c d rest ih =>
    have first := carrying 0x4 (by decide) [a, b, c] (by rw [inside]; rfl)
    exact first.append ih
  | case3 short nonempty long =>
    match short with
    | [] => exact absurd rfl nonempty
    | [a] => exact carrying 0x5 (by decide) [a] (by rw [one]; rfl)
    | [a, b] => exact carrying 0x6 (by decide) [a, b] (by rw [two]; rfl)
    | [a, b, c] => exact carrying 0x7 (by decide) [a, b, c] (by rw [three]; rfl)
    | a :: b :: c :: d :: rest => exact absurd rfl (long a b c d rest)

/-- The packets of a message carry its bytes, whatever its fields or the run it holds. -/
theorem carrying_message (cable : UInt8) (m : Message) :
    Carrying cable (packetsOf cable m) m.encode := by
  have single : (∀ x, m ≠ .sysEx x) →
      Carrying cable [.filled cable (codeIndexOf m.status) m.encode] m.encode := fun fixed =>
    carrying_one (payloadLength_codeIndexOf m.status).2.2.2 (payload_single cable fixed)
  cases m with
  | sysEx x => exact carrying_run cable x.data
  | _ => exact single nofun

/-! ### Reading packets -/

theorem unpack_four (filter : Option UInt8) (h a b c : UInt8) (rest : List UInt8) :
    unpack filter (h :: a :: b :: c :: rest) =
      ((if passes filter (Packet.ofBytes h a b c).cable then (Packet.ofBytes h a b c).payload
          else []) ++ (unpack filter rest).1,
        (unpack filter rest).2) := by
  change ((if passes filter (Packet.ofBytes h a b c).cable then
    (Packet.ofBytes h a b c).payload ++ (unpack filter rest).1 else (unpack filter rest).1), _) = _
  split <;> rfl

theorem length_incomplete {bytes : List UInt8}
    (incomplete : ∀ h a b c rest, bytes = h :: a :: b :: c :: rest → False) : bytes.length < 4 := by
  match bytes with
  | [] | [_] | [_, _] | [_, _, _] => simp
  | h :: a :: b :: c :: rest => exact absurd rfl (incomplete h a b c rest)

theorem unpack_short (filter : Option UInt8) {bytes : List UInt8} (short : bytes.length < 4) :
    unpack filter bytes = ([], bytes) := by
  match bytes, short with
  | [], _ | [_], _ | [_, _], _ | [_, _, _], _ => rfl

theorem unpack_packets (filter : Option UInt8) {ps : List Packet} (fits : ∀ p ∈ ps, p.Fits) :
    unpack filter (ps.flatMap Packet.bytes) =
      ((ps.filter fun p => passes filter p.cable).flatMap Packet.payload, []) := by
  induction ps with
  | nil => rfl
  | cons p rest ih =>
    obtain ⟨now, later⟩ := List.forall_mem_cons.mp fits
    obtain ⟨h, a, b, c, bytes, read⟩ := p.exists_bytes now
    rw [List.flatMap_cons, bytes]
    simp only [List.cons_append, List.nil_append]
    rw [unpack_four, read, ih later, List.filter_cons]
    split
    · rw [List.flatMap_cons]
    · rfl

theorem unpack_append (filter : Option UInt8) (bytes more : List UInt8) :
    unpack filter (bytes ++ more) =
      ((unpack filter bytes).1 ++ (unpack filter ((unpack filter bytes).2 ++ more)).1,
        (unpack filter ((unpack filter bytes).2 ++ more)).2) := by
  induction bytes using unpack.induct filter with
  | case1 h a b c rest _ _ _ ih =>
    rw [unpack_four, List.append_assoc, List.cons_append, List.cons_append, List.cons_append,
      List.cons_append, unpack_four, ih]
  | case2 short incomplete =>
    rw [unpack_short filter (length_incomplete incomplete), List.nil_append]

theorem length_held (filter : Option UInt8) (bytes : List UInt8) :
    (unpack filter bytes).2.length < 4 := by
  induction bytes using unpack.induct filter with
  | case1 h a b c rest _ _ _ ih => rw [unpack_four]; exact ih
  | case2 short incomplete =>
    have few := length_incomplete incomplete
    rw [unpack_short filter few]
    exact few

/-- However the bytes are cut into reads, the reader gives what is in all of them. -/
theorem pollEach_reader {ι : Type} [ByteInput ι] (r : Reader ι) (held : r.held.length < 4)
    (n : Nat) :
    (pollEach r n).flatten = (unpack r.cable (r.held ++ (pollEach r.inner n).flatten)).1 := by
  -- Induction on the reads: what one leaves incomplete goes in front of the next.
  induction n generalizing r with
  | zero =>
    rw [pollEach, pollEach, List.flatten_nil, List.append_nil, unpack_short r.cable held]
  | succ n ih =>
    have next := ih (ByteInput.poll r).1 (length_held r.cable _)
    have joined := unpack_append r.cable (r.held ++ (ByteInput.poll r.inner).2)
      (pollEach (ByteInput.poll r.inner).1 n).flatten
    rw [pollEach, pollEach, List.flatten_cons, List.flatten_cons, next, ← List.append_assoc, joined]
    rfl

theorem pollEach_chunks (filter : Option UInt8) (chunks : List (List UInt8)) :
    (pollEach ({ inner := { chunks }, cable := filter } : Reader Script) chunks.length).flatten =
      (unpack filter chunks.flatten).1 := by
  have read := pollEach_reader ({ inner := { chunks }, cable := filter } : Reader Script)
    (Nat.zero_lt_succ 3) chunks.length
  rw [pollEach_script] at read
  exact read

/-! ### Writers of several cables -/

/-- Writes messages to one buffer, each through the writer of its cable. -/
def writeEach (buffer : ByteBuffer) : List (UInt8 × Message) → ByteBuffer
  | [] => buffer
  | (cable, m) :: rest =>
    writeEach (MessageOutput.send ({ output := buffer, cable } : Writer ByteBuffer) m).1.output rest

def packetsOfAll (items : List (UInt8 × Message)) : List Packet :=
  items.flatMap fun x => packetsOf x.1 x.2

theorem writeEach_bytes (buffer : ByteBuffer) (items : List (UInt8 × Message)) :
    (writeEach buffer items).bytes = buffer.bytes ++ (packetsOfAll items).flatMap Packet.bytes := by
  induction items generalizing buffer with
  | nil => exact (List.append_nil _).symm
  | cons x rest ih =>
    rw [writeEach, ih, packetsOfAll, packetsOfAll, List.flatMap_cons, List.flatMap_append,
      ← List.append_assoc]
    rfl

theorem payload_packetsOfAll (items : List (UInt8 × Message)) :
    (packetsOfAll items).flatMap Packet.payload = (items.map (·.2)).flatMap Message.encode := by
  induction items with
  | nil => rfl
  | cons x rest ih =>
    rw [packetsOfAll, List.flatMap_cons, List.flatMap_append, (carrying_message x.1 x.2).payload,
      List.map_cons, List.flatMap_cons]
    exact congrArg (x.2.encode ++ ·) ih

theorem fits_packetsOfAll {items : List (UInt8 × Message)} (low : ∀ x ∈ items, x.1 < 16) :
    ∀ p ∈ packetsOfAll items, p.Fits := by
  intro p member
  obtain ⟨x, given, made⟩ := List.mem_flatMap.mp member
  have carrying := carrying_message x.1 x.2
  exact ⟨carrying.cable p made ▸ low x given, carrying.codeIndex p made⟩

/-- The packets of the messages, those of different cables mixed in any way. -/
def Mixes (packets : List Packet) (items : List (UInt8 × Message)) : Prop :=
  ∀ cable, packets.filter (·.cable = cable) = packetsOfAll (items.filter (·.1 = cable))

theorem Mixes.fits {packets : List Packet} {items : List (UInt8 × Message)}
    (mixes : Mixes packets items) (low : ∀ x ∈ items, x.1 < 16) : ∀ p ∈ packets, p.Fits := by
  intro p member
  have own : p ∈ packets.filter (·.cable = p.cable) := List.mem_filter.mpr ⟨member, by simp⟩
  rw [mixes] at own
  exact fits_packetsOfAll (fun x given => low x (List.mem_filter.mp given).1) p own

theorem feedAll_unmarked (options : Decoder.Options) {ms : List Message}
    (fits : ∀ m ∈ ms, m.WellFormed ∧ m.runLength ≤ max 2 options.maxSysEx) :
    ((Decoder.new options).feedAll (ms.flatMap Message.encode)).2 = ms.map Message.unmarked := by
  rw [Decoder.feedAll_messages _ fun m member => (fits m member).1]
  exact List.map_congr_left fun m member => Message.clip_of_fits (fits m member).1 (fits m member).2

/--
Writers of several cables share one stream, and a reader is handed it in any pieces. Of packets mixed
in any way, a reader of one cable gives the bytes of the messages of that cable, in order; a reader of
all cables gives the bytes of all messages written one after the other. A decoder reads well-formed
messages back from these bytes, apart from their cut marks.
-/
theorem packets_carry_messages (items : List (UInt8 × Message)) (low : ∀ x ∈ items, x.1 < 16)
    (chunks : List (List UInt8)) (options : Decoder.Options) :
    let read := fun filter =>
      (pollEach ({ inner := { chunks }, cable := filter } : Reader Script) chunks.length).flatten
    let decoded := fun bytes => ((Decoder.new options).feedAll bytes).2
    let fit := fun ms : List Message =>
      ∀ m ∈ ms, m.WellFormed ∧ m.runLength ≤ max 2 options.maxSysEx
    (writeEach {} items).bytes = (packetsOfAll items).flatMap Packet.bytes ∧
      (∀ packets, Mixes packets items → chunks.flatten = packets.flatMap Packet.bytes →
        ∀ cable,
          let own := (items.filter (·.1 = cable)).map (·.2)
          read (some cable) = own.flatMap Message.encode ∧
            (fit own → decoded (read (some cable)) = own.map Message.unmarked)) ∧
      (chunks.flatten = (writeEach {} items).bytes →
        let all := items.map (·.2)
        read none = all.flatMap Message.encode ∧
          (fit all → decoded (read none) = all.map Message.unmarked)) := by
  intro read decoded fit
  have written : (writeEach {} items).bytes = (packetsOfAll items).flatMap Packet.bytes :=
    (writeEach_bytes {} items).trans (List.nil_append _)
  refine ⟨written, ?_, ?_⟩
  · intro packets mixes split cable own
    have bytes : read (some cable) = own.flatMap Message.encode := by
      have own_packets : (packets.filter fun p => passes (some cable) p.cable) =
          packetsOfAll (items.filter (·.1 = cable)) := by
        simpa [passes, eq_comm] using mixes cable
      calc read (some cable)
          = (unpack (some cable) chunks.flatten).1 := pollEach_chunks (some cable) chunks
        _ = (packetsOfAll (items.filter (·.1 = cable))).flatMap Packet.payload := by
          rw [split, unpack_packets _ (mixes.fits low), own_packets]
        _ = own.flatMap Message.encode := payload_packetsOfAll _
    refine ⟨bytes, fun fits => ?_⟩
    rw [bytes]
    exact feedAll_unmarked options fits
  · intro split all
    have bytes : read none = all.flatMap Message.encode := by
      have every : ((packetsOfAll items).filter fun p => passes none p.cable) =
          packetsOfAll items := List.filter_eq_self.mpr fun _ _ => rfl
      calc read none
          = (unpack none chunks.flatten).1 := pollEach_chunks none chunks
        _ = (packetsOfAll items).flatMap Packet.payload := by
          rw [split, written, unpack_packets _ (fits_packetsOfAll low), every]
        _ = all.flatMap Message.encode := payload_packetsOfAll items
    refine ⟨bytes, fun fits => ?_⟩
    rw [bytes]
    exact feedAll_unmarked options fits

/-- A run on one cable is interrupted by a note on another, and reads end inside packets. -/
theorem packets_carry_messages_mixed :
    let items : List (UInt8 × Message) :=
      [(1, .sysEx { data := [0xF0, 1, 2, 3, 0xF7] }), (2, .noteOn 0 60 100), (1, .tuneRequest)]
    let packets : List Packet :=
      [.filled 1 4 [0xF0, 1, 2], .filled 2 9 [0x90, 60, 100], .filled 1 6 [3, 0xF7],
        .filled 1 5 [0xF6]]
    let chunks : List (List UInt8) :=
      [[0x14, 0xF0], [1, 2, 0x29, 0x90, 60], [], [100, 0x16, 3, 0xF7, 0, 0x15, 0xF6, 0, 0]]
    (∀ x ∈ items, x.1 < 16) ∧ Mixes packets items ∧
      chunks.flatten = packets.flatMap Packet.bytes ∧
      (pollEach ({ inner := { chunks }, cable := some 1 } : Reader Script) 4).flatten =
        [0xF0, 1, 2, 3, 0xF7, 0xF6] ∧
      ((Decoder.new {}).feedAll
        (pollEach ({ inner := { chunks }, cable := some 1 } : Reader Script) 4).flatten).2 =
          [.sysEx { data := [0xF0, 1, 2, 3, 0xF7] }, .tuneRequest] := by
  intro items packets chunks
  have low : ∀ x ∈ items, x.1 < 16 := by
    simp only [items, List.forall_mem_cons]
    exact ⟨by decide, by decide, by decide, nofun⟩
  have mixes : Mixes packets items := by
    intro cable
    by_cases one : cable = 1
    · subst one; decide
    · by_cases two : cable = 2
      · subst two; decide
      · have none : packets.filter (·.cable = cable) = [] := by
          simp [packets, Packet.filled, Ne.symm one, Ne.symm two]
        simp [none, items, packetsOfAll, Ne.symm one, Ne.symm two]
  have split : chunks.flatten = packets.flatMap Packet.bytes := by decide
  obtain ⟨-, mixed, -⟩ := packets_carry_messages items low chunks {}
  obtain ⟨bytes, decoded⟩ := mixed packets mixes split 1
  refine ⟨low, mixes, split, bytes.trans (by decide), (decoded ?_).trans (by decide)⟩
  have own : (items.filter (·.1 = 1)).map (·.2) =
      [.sysEx { data := [0xF0, 1, 2, 3, 0xF7] }, .tuneRequest] := by decide
  rw [own]
  simp only [List.forall_mem_cons]
  exact ⟨⟨by decide, by decide⟩, ⟨trivial, by decide⟩, nofun⟩

end Usb

end MidiPatch
