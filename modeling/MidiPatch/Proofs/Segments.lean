import MidiPatch.Proofs.Decoding

/-!
# Segments of a stream

A stream without realtime bytes is some leading data bytes and then segments, each a status byte
with the data bytes up to the next one. Here is what each segment is worth: its messages, and what
goes wrong in it.
-/

namespace MidiPatch

open Wire

structure Segment where
  status : UInt8
  data : List UInt8
  deriving DecidableEq, Repr

namespace Segment

/-- The leading data bytes of a stream, and its segments. -/
def cut : List UInt8 → List UInt8 × List Segment
  | [] => ([], [])
  | b :: rest =>
    let (data, segments) := cut rest
    if isStatus b then ([], { status := b, data := data } :: segments) else (b :: data, segments)

def bytes (g : Segment) : List UInt8 := g.status :: g.data

/-- Whether data bytes after the first message repeat the status. -/
def repeats (running : Bool) (g : Segment) : Bool := running && isChannelStatus g.status

/-- The full groups of `k` bytes at the front. -/
def groups (k : Nat) (data : List UInt8) : List (List UInt8) :=
  (List.range (data.length / k)).map fun i => (data.drop (k * i)).take k

/-- The messages of fixed length, each with its status byte. -/
def packets (running : Bool) (g : Segment) : List (List UInt8) :=
  match (lengthOf g.status).bytes? with
  | none => []
  | some n =>
    if g.repeats running then (groups (n - 1) g.data).map (g.status :: ·)
    else if n - 1 ≤ g.data.length then [g.status :: g.data.take (n - 1)]
    else []

/-- What is kept of the run that a segment opens. -/
def run (limit : Nat) (g : Segment) : SysEx :=
  { data := sysExBegin :: g.data.take (limit - 2) ++ [sysExEnd]
    truncated := limit - 2 < g.data.length }

/-- Whether a message is open after the last byte. -/
def unfinished (running : Bool) (g : Segment) : Bool :=
  match (lengthOf g.status).bytes? with
  | none => g.status == sysExBegin
  | some n =>
    g.data.length < n - 1 || (g.repeats running && g.data.length % (n - 1) != 0)

def overlong (limit : Nat) (g : Segment) : Bool :=
  g.status == sysExBegin && limit - 2 < g.data.length

/-- Only the end byte closes a run. -/
def closedBy (after : Option UInt8) (g : Segment) : Bool :=
  g.status == sysExBegin && after == some sysExEnd

def closing (limit : Nat) (after : Option UInt8) (g : Segment) : List Message :=
  if g.closedBy after then [.sysEx (g.run limit)] else []

def messages (options : Decoder.Options) (after : Option UInt8) (g : Segment) : List Message :=
  (g.packets options.runningStatus).filterMap Message.ofBytes? ++ g.closing options.maxSysEx after

/-- Whether the next status byte cuts a message short. -/
def abortedBy (running : Bool) (after : Option UInt8) (g : Segment) : Bool :=
  after.isSome && g.unfinished running && !g.closedBy after

/-- How many bytes belong to no message. -/
def strays (running : Bool) (before : Option UInt8) (g : Segment) : Nat :=
  match (lengthOf g.status).bytes? with
  | some n => if g.repeats running then 0 else g.data.length - (n - 1)
  | none =>
    if g.status = sysExBegin then 0
    else if g.status = sysExEnd ∧ before = some sysExBegin then g.data.length
    else g.data.length + 1

end Segment

/-- A segment with the status bytes of its neighbours. -/
structure Placed where
  before : Option UInt8
  segment : Segment
  after : Option UInt8
  deriving DecidableEq, Repr

def Segment.place (before : Option UInt8) : List Segment → List Placed
  | [] => []
  | g :: rest =>
    { before := before, segment := g, after := rest.head?.map status } :: place (some g.status) rest

/-! ### Cutting -/

namespace Segment

/-- A status byte that is not realtime, and data bytes after it. -/
structure Proper (g : Segment) : Prop where
  status : 0x80 ≤ g.status ∧ g.status < 0xF8
  data : ∀ b ∈ g.data, b < 0x80

theorem cut_cons_data {b : UInt8} (rest : List UInt8) (data : b < 0x80) :
    cut (b :: rest) = (b :: (cut rest).1, (cut rest).2) := by
  simp [cut, isStatus_of_lt data]

theorem cut_cons_status {s : UInt8} (rest : List UInt8) (status : 0x80 ≤ s) :
    cut (s :: rest) = ([], { status := s, data := (cut rest).1 } :: (cut rest).2) := by
  simp [cut, isStatus_of_le status]

theorem cut_bytes (w : List UInt8) : (cut w).1 ++ (cut w).2.flatMap bytes = w := by
  induction w with
  | nil => rfl
  | cons b rest ih =>
    rcases UInt8.lt_or_le b 0x80 with data | status
    · rw [cut_cons_data rest data, List.cons_append, ih]
    · rw [cut_cons_status rest status, List.nil_append, List.flatMap_cons, bytes,
        List.cons_append, ih]

theorem cut_proper {w : List UInt8} (plain : ∀ b ∈ w, b < 0xF8) :
    (∀ b ∈ (cut w).1, b < 0x80) ∧ ∀ g ∈ (cut w).2, g.Proper := by
  induction w with
  | nil => exact ⟨nofun, nofun⟩
  | cons b rest ih =>
    obtain ⟨lead, proper⟩ := ih fun c member => plain c (List.mem_cons_of_mem b member)
    rcases UInt8.lt_or_le b 0x80 with data | status
    · rw [cut_cons_data rest data]
      exact ⟨List.forall_mem_cons.mpr ⟨data, lead⟩, proper⟩
    · rw [cut_cons_status rest status]
      exact ⟨nofun, List.forall_mem_cons.mpr ⟨⟨⟨status, plain b List.mem_cons_self⟩, lead⟩, proper⟩⟩

/-! ### Groups -/

theorem groups_of_short {k : Nat} {data : List UInt8} (short : data.length < k) :
    groups k data = [] := by
  rw [groups, Nat.div_eq_of_lt short]; rfl

theorem groups_of_le {k : Nat} {data : List UInt8} (pos : 0 < k) (long : k ≤ data.length) :
    groups k data = data.take k :: groups k (data.drop k) := by
  have count : data.length / k = (data.length - k) / k + 1 := by
    rw [Nat.div_eq_sub_div pos long]
  rw [groups, groups, count, List.range_succ_eq_map, List.map_cons, List.map_map, List.length_drop]
  congr 1
  refine List.map_congr_left fun i _ => ?_
  rw [Function.comp, List.drop_drop, Nat.mul_succ, Nat.add_comm]

theorem mem_groups {k : Nat} {data group : List UInt8} (member : group ∈ groups k data) :
    group.length = k ∧ ∀ b ∈ group, b ∈ data := by
  obtain ⟨i, counted, rfl⟩ := List.mem_map.mp member
  have room : k * i + k ≤ data.length := by
    have below := Nat.mul_le_mul_left k (Nat.succ_le_of_lt (List.mem_range.mp counted))
    exact Nat.le_trans below (Nat.mul_div_le data.length k)
  refine ⟨?_, fun b inside => List.mem_of_mem_drop (List.mem_of_mem_take inside)⟩
  rw [List.length_take, List.length_drop]
  omega

theorem place_segments (before : Option UInt8) (segments : List Segment) :
    (place before segments).map Placed.segment = segments := by
  induction segments generalizing before with
  | nil => rfl
  | cons g rest ih => rw [place, List.map_cons, ih]

/-- The status byte before a segment matters only to an end byte. -/
theorem strays_apart {running : Bool} {before : Option UInt8} {g : Segment}
    (apart : ¬ (g.status = sysExEnd ∧ before = some sysExBegin)) :
    g.strays running before = g.strays running none := by
  have alone : ¬ (g.status = sysExEnd ∧ (none : Option UInt8) = some sysExBegin) := by simp
  rw [strays, strays, if_neg apart, if_neg alone]

end Segment

/-! ### Messages of fixed length -/

theorem Message.exists_of_fixed {s : UInt8} {n : Nat} {data : List UInt8}
    (fixed : (lengthOf s).bytes? = some n) (low : s < 0xF8) (count : data.length = n - 1)
    (plain : ∀ b ∈ data, b < 0x80) : ∃ m, Message.Spells m s data := by
  cases byteClass s with
  | data high => rw [length_of_data high] at fixed; exact nomatch fixed
  | two length =>
    rw [length] at fixed
    obtain rfl := Option.some.inj fixed
    obtain ⟨a, rfl⟩ := List.length_eq_one_iff.mp count
    exact exists_of_two length (plain a (by simp))
  | three length =>
    rw [length] at fixed
    obtain rfl := Option.some.inj fixed
    match data, count with
    | [a, b], _ => exact exists_of_three length (plain a (by simp)) (plain b (by simp))
  | tune =>
    obtain rfl := Option.some.inj fixed
    obtain rfl := List.length_eq_zero_iff.mp count
    exact ⟨.tuneRequest, rfl, trivial, rfl, rfl⟩
  | opens => exact nomatch fixed
  | closes => exact nomatch fixed
  | undefined unused => rcases unused with rfl | rfl <;> exact nomatch fixed
  | realtime k => cases k <;> exact absurd low (by decide)

theorem Segment.packets_read {g : Segment} {running : Bool} (proper : g.Proper) :
    ∀ bytes ∈ g.packets running, ∃ m,
      Message.ofBytes? bytes = some m ∧ m.WellFormed ∧ m.encode = bytes := by
  intro bytes member
  unfold packets at member
  cases fixed : (lengthOf g.status).bytes? with
  | none => rw [fixed] at member; exact nomatch member
  | some n =>
    have data : ∃ data, bytes = g.status :: data ∧ data.length = n - 1 ∧ ∀ b ∈ data, b < 0x80 := by
      rw [fixed] at member
      dsimp only at member
      split at member
      · obtain ⟨group, inside, rfl⟩ := List.mem_map.mp member
        obtain ⟨count, from_⟩ := mem_groups inside
        exact ⟨group, rfl, count, fun b inside => proper.data b (from_ b inside)⟩
      · split at member
        next long =>
          exact ⟨_, List.mem_singleton.mp member, List.length_take_of_le long,
            fun b inside => proper.data b (List.mem_of_mem_take inside)⟩
        next => exact nomatch member
    obtain ⟨data, rfl, count, plain⟩ := data
    obtain ⟨m, read, wf, -, encoded⟩ := Message.exists_of_fixed fixed proper.status.2 count plain
    exact ⟨m, read, wf, encoded⟩

end MidiPatch
