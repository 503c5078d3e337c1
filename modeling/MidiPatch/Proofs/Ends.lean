import MidiPatch.Proofs.Draining

/-!
# The two ends of a queue

A queue has a producer at one end and a consumer at the other. A call for many bytes goes byte by
byte, so each party may be interrupted by the other after any byte. Whatever the interleaving, the
bytes let in are the bytes taken out and then those still queued, in order, and every other byte was
turned away by a full queue and counted.
-/

namespace MidiPatch

namespace Fifo

/-- How many bytes a call of the consumer may still take out. -/
inductive Demand
  | atMost (limit : Nat)
  | everything
  deriving DecidableEq, Repr

namespace Demand

def isMet : Demand → Bool
  | atMost limit => limit == 0
  | everything => false

def afterOne : Demand → Demand
  | atMost limit => atMost (limit - 1)
  | everything => everything

/-- What a call takes out of a queue when it is not interrupted. -/
def wanted (bytes : List UInt8) : Demand → List UInt8
  | atMost limit => bytes.take limit
  | everything => bytes

end Demand

/-- A queue and its two parties, each in the middle of a call or between two calls. -/
structure Ends where
  queue : Fifo
  /-- The bytes that the call of the producer has not come to yet. -/
  unsent : List UInt8 := []
  /-- How many bytes of that call were let in. -/
  count : Nat := 0
  /-- What the call of the consumer may still take out. -/
  demand : Demand := .atMost 0
  /-- What that call took out. -/
  batch : List UInt8 := []
  accepted : List UInt8 := []
  refused : List UInt8 := []
  removed : List UInt8 := []
  deriving DecidableEq, Repr

namespace Ends

/-- One move of either party. A call starts with `write` or `read`, and each byte is a move. -/
inductive Move
  | write (bytes : List UInt8)
  | put
  | read (demand : Demand)
  | take
  deriving DecidableEq, Repr

def start (capacity : Nat) : Ends := { queue := .new capacity }

/-- Puts in the next byte of the producer's call. -/
def put (s : Ends) : Ends :=
  match s.unsent with
  | [] => s
  | b :: rest =>
    match s.queue.enqueue b with
    | (queue, true) =>
      { s with queue, unsent := rest, count := s.count + 1, accepted := s.accepted ++ [b] }
    | (queue, false) => { s with queue, unsent := rest, refused := s.refused ++ [b] }

/-- Takes out one byte for the consumer's call, which is over when there is none. -/
def take (s : Ends) : Ends :=
  if s.demand.isMet then s
  else
    match s.queue.dequeue with
    | (queue, some b) =>
      { s with
        queue, demand := s.demand.afterOne, batch := s.batch ++ [b], removed := s.removed ++ [b] }
    | (queue, none) => { s with queue, demand := .atMost 0 }

/-- Neither party starts a call before its last one is over. -/
def step (s : Ends) : Move → Ends
  | .write bytes => if s.unsent = [] then { s with unsent := bytes, count := 0 } else s
  | .put => s.put
  | .read demand => if s.demand.isMet then { s with demand, batch := [] } else s
  | .take => s.take

def run (s : Ends) (moves : List Move) : Ends := moves.foldl step s

theorem run_replicate_succ (s : Ends) (n : Nat) (m : Move) :
    s.run (.replicate (n + 1) m) = (s.step m).run (.replicate n m) := rfl

/-- All that a move can do. -/
inductive Does (s : Ends) : Move → Ends → Prop
  | nothing (m : Move) : Does s m s
  | writes {bytes : List UInt8} (free : s.unsent = []) :
      Does s (.write bytes) { s with unsent := bytes, count := 0 }
  | puts {b : UInt8} {rest : List UInt8} (next : s.unsent = b :: rest)
      (room : s.queue.bytes.length < s.queue.capacity) :
      Does s .put
        { s with
          queue.bytes := s.queue.bytes ++ [b], unsent := rest, count := s.count + 1
          accepted := s.accepted ++ [b] }
  | loses {b : UInt8} {rest : List UInt8} (next : s.unsent = b :: rest)
      (full : s.queue.capacity ≤ s.queue.bytes.length) :
      Does s .put
        { s with
          queue := { s.queue with lost := s.queue.lost + 1, lossFlag := !s.queue.lossFlag }
          unsent := rest, refused := s.refused ++ [b] }
  | reads {demand : Demand} (free : s.demand.isMet = true) :
      Does s (.read demand) { s with demand, batch := [] }
  | takes {b : UInt8} {rest : List UInt8} (open_ : s.demand.isMet = false)
      (oldest : s.queue.bytes = b :: rest) :
      Does s .take
        { s with
          queue.bytes := rest, demand := s.demand.afterOne, batch := s.batch ++ [b]
          removed := s.removed ++ [b] }
  | stops (open_ : s.demand.isMet = false) (empty : s.queue.bytes = []) :
      Does s .take { s with demand := .atMost 0 }

theorem put_does (s : Ends) : s.Does .put s.put := by
  unfold put
  split
  · exact .nothing .put
  · next b rest next =>
    rcases Nat.lt_or_ge s.queue.bytes.length s.queue.capacity with room | full
    · rw [enqueue_room room]
      exact .puts next room
    · rw [enqueue_full full]
      exact .loses next full

theorem take_met {s : Ends} (met : s.demand.isMet = true) : s.take = s := if_pos met

theorem take_oldest {s : Ends} {b : UInt8} {rest : List UInt8} (open_ : s.demand.isMet = false)
    (oldest : s.queue.bytes = b :: rest) :
    s.take =
      { s with
        queue.bytes := rest, demand := s.demand.afterOne, batch := s.batch ++ [b]
        removed := s.removed ++ [b] } := by
  unfold take dequeue
  rw [open_, oldest]
  rfl

theorem take_empty {s : Ends} (open_ : s.demand.isMet = false) (empty : s.queue.bytes = []) :
    s.take = { s with demand := .atMost 0 } := by
  obtain ⟨⟨capacity, bytes, lost, flag⟩, unsent, count, demand, batch⟩ := s
  obtain rfl : bytes = [] := empty
  exact if_neg (by rw [open_]; exact Bool.false_ne_true)

theorem take_does (s : Ends) : s.Does .take s.take := by
  cases open_ : s.demand.isMet with
  | true =>
    rw [take_met open_]
    exact .nothing .take
  | false =>
    cases bytes : s.queue.bytes with
    | nil =>
      rw [take_empty open_ bytes]
      exact .stops open_ bytes
    | cons b rest =>
      rw [take_oldest open_ bytes]
      exact .takes open_ bytes

theorem step_does (s : Ends) (m : Move) : s.Does m (s.step m) := by
  cases m with
  | write bytes =>
    rw [step]
    split
    · next free => exact .writes free
    · exact .nothing _
  | put => exact s.put_does
  | read demand =>
    rw [step]
    split
    · next free => exact .reads free
    · exact .nothing _
  | take => exact s.take_does

/-! ### What holds at any time -/

structure Balanced (capacity : Nat) (s : Ends) : Prop where
  order : s.accepted = s.removed ++ s.queue.bytes
  fixed : s.queue.capacity = capacity
  bounded : s.queue.bytes.length ≤ capacity
  lost : s.queue.lost = s.refused.length
  flag : s.queue.lossFlag = true ↔ Odd s.queue.lost

theorem balanced_start (capacity : Nat) : (start capacity).Balanced (max 1 capacity) :=
  ⟨rfl, rfl, Nat.zero_le _, rfl, by simp [start, new]⟩

variable {capacity : Nat} {s t : Ends} {m : Move}

theorem Does.balanced (does : s.Does m t) (balanced : s.Balanced capacity) :
    t.Balanced capacity := by
  obtain ⟨order, fixed, bounded, lost, flag⟩ := balanced
  cases does with
  | nothing => exact ⟨order, fixed, bounded, lost, flag⟩
  | writes => exact ⟨order, fixed, bounded, lost, flag⟩
  | puts next room =>
    refine ⟨?_, fixed, ?_, lost, flag⟩
    · simp only [order, List.append_assoc]
    · simp only [List.length_append, List.length_singleton]
      omega
  | loses next full =>
    refine ⟨order, fixed, bounded, ?_, ?_⟩
    · simp only [lost, List.length_append, List.length_singleton]
    · simp only [Nat.odd_add_one, ← flag, Bool.not_eq_true', Bool.not_eq_true]
  | reads => exact ⟨order, fixed, bounded, lost, flag⟩
  | @takes b rest open_ oldest =>
    refine ⟨?_, fixed, ?_, lost, flag⟩
    · simp only [order, oldest, List.append_assoc, List.singleton_append]
    · rw [oldest, List.length_cons] at bounded
      exact Nat.le_of_succ_le bounded
  | stops => exact ⟨order, fixed, bounded, lost, flag⟩

theorem Balanced.run (balanced : s.Balanced capacity) (moves : List Move) :
    (s.run moves).Balanced capacity :=
  List.foldlRecOn moves step balanced fun s balanced m _ => (s.step_does m).balanced balanced

/-- Only a full queue turns a byte away. -/
theorem Does.refused_full (does : s.Does m t) (balanced : s.Balanced capacity)
    (refused : t.refused ≠ s.refused) : s.queue.length = capacity := by
  cases does with
  | loses next full =>
    rw [balanced.fixed] at full
    exact Nat.le_antisymm balanced.bounded full
  | _ => exact absurd rfl refused

/-! ### Calls that may be interrupted -/

theorem step_write (free : s.unsent = []) (bytes : List UInt8) :
    s.step (.write bytes) = { s with unsent := bytes, count := 0 } := if_pos free

theorem step_read (free : s.demand.isMet = true) (demand : Demand) :
    s.step (.read demand) = { s with demand, batch := [] } := if_pos free

theorem Does.lost_le (does : s.Does m t) : s.queue.lost ≤ t.queue.lost := by
  cases does with
  | loses => exact Nat.le_succ _
  | _ => exact Nat.le_refl _

theorem run_lost_le (s : Ends) (moves : List Move) : s.queue.lost ≤ (s.run moves).queue.lost :=
  List.foldlRecOn (motive := fun t : Ends => s.queue.lost ≤ t.queue.lost) moves step
    (Nat.le_refl _) fun t le m _ => le.trans (t.step_does m).lost_le

theorem Does.counted (does : s.Does m t) (same_call : ∀ bytes, m ≠ .write bytes) :
    t.count + t.queue.lost + t.unsent.length = s.count + s.queue.lost + s.unsent.length := by
  cases does with
  | @writes bytes => exact absurd rfl (same_call bytes)
  | puts next | loses next =>
    rw [next, List.length_cons]
    dsimp only
    omega
  | _ => rfl

theorem run_counted (s : Ends) {moves : List Move} (same_call : ∀ bytes, .write bytes ∉ moves) :
    (s.run moves).count + (s.run moves).queue.lost + (s.run moves).unsent.length =
      s.count + s.queue.lost + s.unsent.length := by
  refine List.foldlRecOn (motive := fun t : Ends => t.count + t.queue.lost + t.unsent.length = _)
    moves step rfl fun t counted m member => ?_
  refine ((t.step_does m).counted ?_).trans counted
  rintro bytes rfl
  exact same_call bytes member

theorem call_counted (s : Ends) (bytes : List UInt8) {moves : List Move}
    (same_call : ∀ bytes, .write bytes ∉ moves) :
    let t := ({ s with unsent := bytes, count := 0 } : Ends).run moves
    t.count + (t.queue.lost - s.queue.lost) + t.unsent.length = bytes.length := by
  intro t
  have counted : t.count + t.queue.lost + t.unsent.length = 0 + s.queue.lost + bytes.length :=
    run_counted _ same_call
  have more : s.queue.lost ≤ t.queue.lost :=
    run_lost_le { s with unsent := bytes, count := 0 } moves
  omega

theorem Does.batched {before : List UInt8} (does : s.Does m t)
    (same_call : ∀ demand, m ≠ .read demand) (batched : s.removed = before ++ s.batch) :
    t.removed = before ++ t.batch := by
  cases does with
  | @reads demand => exact absurd rfl (same_call demand)
  | takes => rw [batched, List.append_assoc]
  | _ => exact batched

theorem run_batched {before : List UInt8} {moves : List Move}
    (same_call : ∀ demand, .read demand ∉ moves) (batched : s.removed = before ++ s.batch) :
    (s.run moves).removed = before ++ (s.run moves).batch := by
  refine List.foldlRecOn (motive := fun t : Ends => t.removed = before ++ t.batch)
    moves step batched fun t batched m member => ?_
  refine (t.step_does m).batched ?_ batched
  rintro demand rfl
  exact same_call demand member

/-! ### Calls that are not interrupted -/

theorem put_next {b : UInt8} {rest : List UInt8} (next : s.unsent = b :: rest) :
    s.put.queue = (s.queue.enqueue b).1 ∧ s.put.count = s.count + (s.queue.enqueue b).2.toNat ∧
      s.put.unsent = rest ∧ s.put.removed = s.removed := by
  unfold put
  rw [next]
  dsimp only
  cases s.queue.enqueue b with
  | mk queue found_room => cases found_room <;> exact ⟨rfl, rfl, rfl, rfl⟩

theorem run_puts {bytes : List UInt8} (unsent : s.unsent = bytes) :
    let t := s.run (.replicate bytes.length .put)
    t.queue = (s.queue.enqueueAll bytes).1 ∧ t.count = s.count + (s.queue.enqueueAll bytes).2 ∧
      t.unsent = [] ∧ t.removed = s.removed := by
  induction bytes generalizing s with
  | nil => exact ⟨rfl, rfl, unsent, rfl⟩
  | cons b rest ih =>
    obtain ⟨queue, count, next, removed⟩ := put_next unsent
    obtain ⟨last_queue, last_count, over_, last_removed⟩ := ih next
    rw [queue] at last_queue last_count
    rw [List.length_cons, run_replicate_succ, enqueueAll_cons]
    refine ⟨last_queue, ?_, over_, last_removed.trans removed⟩
    refine last_count.trans ?_
    rw [count]
    omega

theorem run_takes_met (n : Nat) (met : s.demand.isMet = true) :
    s.run (.replicate n .take) = s := by
  induction n with
  | zero => rfl
  | succ n ih =>
    rw [run_replicate_succ, step, take_met met]
    exact ih

/-- The first bytes of a call go in, as many as there is room for. -/
theorem Balanced.call_puts (balanced : s.Balanced capacity) (bytes : List UInt8) :
    let t := ({ s with unsent := bytes, count := 0 } : Ends).run (.replicate bytes.length .put)
    let room := min (capacity - s.queue.length) bytes.length
    t.unsent = [] ∧ t.accepted = s.accepted ++ bytes.take room ∧ t.count = room ∧
      (t.queue, t.count) = s.queue.enqueueAll bytes := by
  intro t room
  have writes : ({ s with unsent := bytes, count := 0 } : Ends).unsent = bytes := rfl
  obtain ⟨queue, count, finished, removed⟩ := run_puts writes
  have opened : ({ s with unsent := bytes, count := 0 } : Ends).Balanced capacity :=
    ⟨balanced.order, balanced.fixed, balanced.bounded, balanced.lost, balanced.flag⟩
  have after : t.Balanced capacity := opened.run _
  have takes := s.queue.enqueueAll_takes bytes
  have same : s.queue.room = capacity - s.queue.length := by rw [Fifo.room, balanced.fixed]; rfl
  refine ⟨finished, ?_, ?_, ?_⟩
  · calc t.accepted = t.removed ++ t.queue.bytes := after.order
      _ = s.removed ++ (s.queue.bytes ++ bytes.take s.queue.room) := by
        rw [removed, queue, takes.bytes]
      _ = s.accepted ++ bytes.take room := by
        rw [← List.append_assoc, ← balanced.order, same, ← List.take_eq_take_min]
  · rw [count, takes.taken, same]
    exact Nat.zero_add _
  · exact Prod.ext queue (count.trans (Nat.zero_add _))

theorem Demand.wanted_nil (demand : Demand) : demand.wanted [] = [] := by
  cases demand with
  | atMost limit => exact List.take_nil
  | everything => rfl

theorem Demand.wanted_cons {demand : Demand} (open_ : demand.isMet = false) (b : UInt8)
    (rest : List UInt8) :
    demand.wanted (b :: rest) = b :: demand.afterOne.wanted rest := by
  cases demand with
  | atMost limit =>
    cases limit with
    | zero => exact nomatch open_
    | succ limit => rfl
  | everything => rfl

theorem Demand.wanted_met {demand : Demand} (met : demand.isMet = true) (bytes : List UInt8) :
    demand.wanted bytes = [] := by
  cases demand with
  | atMost limit => rw [of_decide_eq_true met]; rfl
  | everything => exact nomatch met

/-- One move for every byte, and one that finds no more. -/
theorem run_takes {bytes : List UInt8} (queued : s.queue.bytes = bytes) :
    let t := s.run (.replicate (bytes.length + 1) .take)
    t.demand.isMet = true ∧ t.batch = s.batch ++ s.demand.wanted bytes ∧
      t.queue = { s.queue with bytes := bytes.drop (s.demand.wanted bytes).length } := by
  induction bytes generalizing s with
  | nil =>
    change s.take.demand.isMet = true ∧ s.take.batch = _ ∧ s.take.queue = _
    rw [Demand.wanted_nil, List.append_nil, List.drop_nil, ← queued]
    cases open_ : s.demand.isMet with
    | true => rw [take_met open_]; exact ⟨open_, rfl, rfl⟩
    | false => rw [take_empty open_ queued]; exact ⟨rfl, rfl, rfl⟩
  | cons b rest ih =>
    cases open_ : s.demand.isMet with
    | true =>
      rw [run_takes_met _ open_, Demand.wanted_met open_, List.append_nil, List.length_nil,
        List.drop_zero, ← queued]
      exact ⟨open_, rfl, rfl⟩
    | false =>
      rw [List.length_cons, run_replicate_succ, step, take_oldest open_ queued,
        Demand.wanted_cons open_]
      obtain ⟨met, batch, queue⟩ := @ih
        { s with
          queue.bytes := rest, demand := s.demand.afterOne, batch := s.batch ++ [b]
          removed := s.removed ++ [b] } rfl
      refine ⟨met, ?_, queue⟩
      rw [batch, List.append_assoc]
      rfl

/--
At any time of any run: what was let in is what was taken out and what is queued, in order, and the
queue is within its capacity; what was turned away is counted, and only a full queue turns a byte
away. A call of the producer lets in or loses each of its bytes, and a call of the consumer gives
what is taken out meanwhile, whatever the other party does. When it does nothing, the first bytes go
in that there is room for, and the oldest come out.
-/
theorem ends_share_history (capacity : Nat) (moves : List Move) :
    let s := (start capacity).run moves
    s.accepted = s.removed ++ s.queue.bytes ∧ s.queue.length ≤ max 1 capacity ∧
      s.queue.lost = s.refused.length ∧ (s.queue.lossFlag = true ↔ Odd s.queue.lost) ∧
      (∀ m, (s.step m).refused ≠ s.refused → s.queue.length = max 1 capacity) ∧
      (∀ bytes later, s.unsent = [] → (∀ other, .write other ∉ later) →
        let t := (s.step (.write bytes)).run later
        t.count + (t.queue.lost - s.queue.lost) + t.unsent.length = bytes.length) ∧
      (∀ demand later, s.demand.isMet = true → (∀ other, .read other ∉ later) →
        let t := (s.step (.read demand)).run later
        t.removed = s.removed ++ t.batch) ∧
      (∀ bytes, s.unsent = [] →
        let t := (s.step (.write bytes)).run (.replicate bytes.length .put)
        let room := min (max 1 capacity - s.queue.length) bytes.length
        t.unsent = [] ∧ t.accepted = s.accepted ++ bytes.take room ∧ t.count = room ∧
          (t.queue, t.count) = s.queue.enqueueAll bytes) ∧
      ∀ demand, s.demand.isMet = true →
        let t := (s.step (.read demand)).run (.replicate (s.queue.length + 1) .take)
        t.demand.isMet = true ∧
          (∀ limit, demand = .atMost limit →
            t.batch = s.queue.bytes.take (min limit s.queue.length) ∧
              (t.queue, t.batch) = s.queue.dequeueBatch limit) ∧
          (demand = .everything → t.batch = s.queue.bytes ∧
            (t.queue, t.batch.length) = s.queue.clear) := by
  intro s
  have balanced : s.Balanced (max 1 capacity) := (balanced_start capacity).run moves
  refine ⟨balanced.order, balanced.bounded, balanced.lost, balanced.flag,
    fun m => (s.step_does m).refused_full balanced, ?_, ?_, ?_, ?_⟩
  · intro bytes later free same_call
    rw [step_write free]
    exact s.call_counted bytes same_call
  · intro demand later free same_call
    rw [step_read free]
    exact run_batched same_call (List.append_nil _).symm
  · intro bytes free
    rw [step_write free]
    exact balanced.call_puts bytes
  · intro demand free
    rw [step_read free]
    obtain ⟨met, batch, queue⟩ := run_takes (s := { s with demand, batch := [] }) rfl
    refine ⟨met, ?_, ?_⟩
    · rintro limit rfl
      have rest : s.queue.bytes.drop (s.queue.bytes.take limit).length =
          s.queue.bytes.drop limit := by simp
      refine ⟨batch.trans List.take_eq_take_min, Prod.ext (queue.trans ?_) batch⟩
      exact congrArg (fun bytes => { s.queue with bytes }) rest
    · rintro rfl
      have rest : s.queue.bytes.drop s.queue.bytes.length = [] := List.drop_length
      refine ⟨batch, Prod.ext (queue.trans ?_) (congrArg List.length batch)⟩
      exact congrArg (fun bytes => { s.queue with bytes }) rest

/-- A queue for two bytes: the consumer interrupts a call for four and takes out all that got in. -/
example :
    let moves : List Move :=
      [.write [1, 2, 3, 4], .put, .read (.atMost 3), .take, .put, .put, .put, .take, .take]
    let s := (start 2).run moves
    s.accepted = [1, 2, 3] ∧ s.removed = [1, 2, 3] ∧ s.batch = [1, 2, 3] ∧ s.count = 3 ∧
      s.refused = [4] ∧ s.queue = { capacity := 2, lost := 1, lossFlag := true } := by
  decide

end Ends

end Fifo

end MidiPatch
