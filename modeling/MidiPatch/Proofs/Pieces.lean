import MidiPatch.Proofs.Packets

/-!
# Packets in pieces

A reader gives the payload of each complete packet of a stream that passes its filter, whatever the
bytes are and wherever the reads cut them: a packet comes out of the poll that brings its last byte,
and what is held is the part of a packet at the end (`packets_found_in_pieces`).
-/

namespace MidiPatch

/-! ### One poll after the other -/

section

variable {ι : Type} [ByteInput ι]

/-- A link that was asked `n` times. -/
def polled (link : ι) : Nat → ι
  | 0 => link
  | n + 1 => (ByteInput.poll (polled link n)).1

/-- All that a link hands over when it is asked `n` times. -/
def received (link : ι) (n : Nat) : List UInt8 := (pollEach link n).flatten

theorem polled_succ (link : ι) (n : Nat) :
    polled link (n + 1) = polled (ByteInput.poll link).1 n := by
  induction n with
  | zero => rfl
  | succ n ih => rw [polled, ih, polled]

theorem pollEach_succ (link : ι) (n : Nat) :
    pollEach link (n + 1) = pollEach link n ++ [(ByteInput.poll (polled link n)).2] := by
  induction n generalizing link with
  | zero => rfl
  | succ n ih => rw [pollEach, ih, pollEach, polled_succ, List.cons_append]

theorem received_succ (link : ι) (n : Nat) :
    received link (n + 1) = received link n ++ (ByteInput.poll (polled link n)).2 := by
  rw [received, pollEach_succ, List.flatten_append, List.flatten_singleton, received]

end

/-- The numbers below `m` are those below `k` and the others. -/
theorem range_split {k m : Nat} (below : k ≤ m) :
    List.range m = List.range k ++ (List.range m).filter (k ≤ ·) := by
  obtain ⟨d, rfl⟩ := Nat.exists_eq_add_of_le below
  have low : (List.range k).filter (k ≤ ·) = [] := by
    simp only [List.filter_eq_nil_iff, List.mem_range, decide_eq_true_eq]
    omega
  have high : ((List.range d).map (k + ·)).filter (k ≤ ·) = (List.range d).map (k + ·) := by
    simp [List.filter_eq_self]
  rw [List.range_add, List.filter_append, low, high, List.nil_append]

namespace Usb

/-! ### The packets of a stream -/

/--
The MIDI bytes of packet `i` of a stream, if its cable passes: as many of its last three bytes as the
low half of the first one says.
-/
def carriedAt (filter : Option UInt8) (bytes : List UInt8) (i : Nat) : List UInt8 :=
  match (bytes.drop (4 * i)).take 4 with
  | [h, a, b, c] =>
    if filter.all (· = h >>> 4) then [a, b, c].take (payloadLength (h &&& 0x0F)) else []
  | _ => []

/-- Later bytes do not change a packet that is complete. -/
theorem carriedAt_append (filter : Option UInt8) {bytes : List UInt8} {i : Nat}
    (complete : i < bytes.length / 4) (more : List UInt8) :
    carriedAt filter (bytes ++ more) i = carriedAt filter bytes i := by
  unfold carriedAt
  rw [List.drop_append_of_le_length (by omega),
    List.take_append_of_le_length (by rw [List.length_drop]; omega)]

theorem unpack_eq (filter : Option UInt8) (bytes : List UInt8) :
    unpack filter bytes = ((List.range (bytes.length / 4)).flatMap (carriedAt filter bytes),
      bytes.drop (bytes.length - bytes.length % 4)) := by
  induction bytes using unpack.induct filter with
  | case1 h a b c rest _ _ _ ih =>
    have count : (h :: a :: b :: c :: rest).length / 4 = rest.length / 4 + 1 := by
      simp only [List.length_cons]
      omega
    have held : (h :: a :: b :: c :: rest).length - (h :: a :: b :: c :: rest).length % 4 =
        (rest.length - rest.length % 4) + 4 := by
      simp only [List.length_cons]
      omega
    rw [unpack_four, ih, count, held, List.range_succ_eq_map, List.flatMap_cons, List.flatMap_map]
    rfl
  | case2 short incomplete =>
    have few := length_incomplete incomplete
    rw [unpack_short filter few, Nat.div_eq_of_lt few, Nat.mod_eq_of_lt few, Nat.sub_self]
    rfl

/-! ### A reader between polls -/

variable {ι : Type} [ByteInput ι]

/-- Between polls a reader holds the part of a packet at the end of what its link handed over. -/
theorem polled_reader (link : ι) (filter : Option UInt8) (n : Nat) :
    polled ({ inner := link, cable := filter } : Reader ι) n =
      { inner := polled link n, cable := filter, held := (unpack filter (received link n)).2 } := by
  induction n with
  | zero => rfl
  | succ n ih =>
    rw [received_succ, unpack_append]
    rw [polled, ih]
    rfl

theorem poll_reader (link : ι) (filter : Option UInt8) (n : Nat) :
    (unpack filter (received link (n + 1))).1 = (unpack filter (received link n)).1 ++
      (ByteInput.poll (polled ({ inner := link, cable := filter } : Reader ι) n)).2 := by
  rw [received_succ, unpack_append, polled_reader]
  rfl

/--
A reader of one cable, or of all, is asked for bytes any number of times, and each time its link hands
over whatever it likes (any chunks at all, if it is a script: `pollEach_script`). What the reader has
given is what the complete packets of the whole stream carry, in order. The next poll gives what those
packets carry whose last byte it brings, and the bytes behind the last complete packet are held.
-/
theorem packets_found_in_pieces (link : ι) (filter : Option UInt8) (n : Nat) :
    let reader : Reader ι := { inner := link, cable := filter }
    let stream := received link n
    let longer := received link (n + 1)
    received reader n = (List.range (stream.length / 4)).flatMap (carriedAt filter stream) ∧
      (ByteInput.poll (polled reader n)).2 =
        ((List.range (longer.length / 4)).filter fun i => stream.length ≤ 4 * i + 3).flatMap
          (carriedAt filter longer) ∧
      (polled reader n).held = stream.drop (stream.length - stream.length % 4) := by
  intro reader stream longer
  refine ⟨?all, ?next, ?held⟩
  case all =>
    calc received reader n
        = (unpack filter stream).1 := pollEach_reader reader (Nat.zero_lt_succ 3) n
      _ = (List.range (stream.length / 4)).flatMap (carriedAt filter stream) := by rw [unpack_eq]
  case next =>
    have grown : longer = stream ++ (ByteInput.poll (polled link n)).2 := received_succ link n
    have below : stream.length / 4 ≤ longer.length / 4 := by
      rw [grown, List.length_append]
      omega
    have same : (List.range (stream.length / 4)).flatMap (carriedAt filter longer) =
        (List.range (stream.length / 4)).flatMap (carriedAt filter stream) := by
      refine List.flatMap_congr fun i inside => ?_
      rw [grown]
      exact carriedAt_append filter (List.mem_range.mp inside) _
    -- A packet was complete before if its last byte, number `4 * i + 3`, had been there.
    have late : ∀ i, decide (stream.length ≤ 4 * i + 3) = decide (stream.length / 4 ≤ i) := by
      intro i
      rw [decide_eq_decide]
      omega
    have both := poll_reader link filter n
    rw [unpack_eq filter longer, unpack_eq filter stream] at both
    dsimp only at both
    rw [range_split below, List.flatMap_append, same] at both
    simp only [late]
    exact (List.append_cancel_left both).symm
  case held => rw [polled_reader, unpack_eq]

/-- Of three packets the second is on another cable and the third is not complete. -/
example :
    let chunks : List (List UInt8) := [[0x09, 0x90, 0x40], [0x64, 0x1F, 0xF8, 0, 0, 0x0F]]
    let reader : Reader Script := { inner := { chunks }, cable := some 0 }
    pollEach reader 2 = [[], [0x90, 0x40, 0x64]] ∧ (polled reader 2).held = [0x0F] := by decide

end Usb

end MidiPatch
