import MidiPatch.Proofs.Inlets

/-!
# Bytes that arrive while a queue is read

Handlers may put bytes into the queue of their own inlet while it is processed. The bytes that were
there at the start are decoded, each once and in order, however many are taken at a time; those let
in meanwhile are left in the queue, and those turned away are counted.
-/

namespace MidiPatch

namespace Inlet

variable {η : Type}

/-! ### Handlers change no more than the queue -/

namespace Pass

variable (echo : Echo η)

theorem callAll_queue (p : Pass η) (calls : List (Call η)) :
    ∃ queue, calls.foldl (call echo) p =
      { p with calls := p.calls ++ calls, inlet.queue := queue } := by
  induction calls generalizing p with
  | nil => exact ⟨p.inlet.queue, by simp⟩
  | cons c rest ih =>
    obtain ⟨queue, heard⟩ := ih (p.call echo c)
    exact ⟨queue, heard.trans (by simp [call])⟩

theorem feed_queue (p : Pass η) (b : UInt8) :
    ∃ queue, p.feed echo b = { p.after [b] with inlet.queue := queue } := by
  rw [← feed_silent]
  unfold feed
  cases p.inlet.decoder.feed b with
  | mk d m =>
    cases m with
    | none => exact ⟨p.inlet.queue, rfl⟩
    | some m =>
      dsimp only
      rw [callAll_silent]
      exact callAll_queue echo _ _

end Pass

/-- A pass with a record of what went through its decoder and its queue. -/
structure Recorded (η : Type) where
  pass : Pass η
  /-- The bytes given to the decoder. -/
  fed : List UInt8 := []
  /-- The bytes that handlers put into the queue, each with its answer. -/
  offers : List (UInt8 × Bool) := []
  /-- How many batches were taken out of the queue. -/
  rounds : Nat := 0

namespace Recorded

def offer (r : Recorded η) (b : UInt8) : Recorded η :=
  let (queue, taken) := r.pass.inlet.queue.enqueue b
  { r with pass.inlet.queue := queue, offers := r.offers ++ [(b, taken)] }

def call (echo : Echo η) (r : Recorded η) (c : Call η) : Recorded η :=
  (echo (r.pass.calls ++ [c])).foldl offer { r with pass.calls := r.pass.calls ++ [c] }

def feed (echo : Echo η) (r : Recorded η) (b : UInt8) : Recorded η :=
  let (decoder, m) := r.pass.inlet.decoder.feed b
  let r := { r with
    pass.inlet.decoder := decoder
    pass.messages := r.pass.messages ++ m.toList
    fed := r.fed ++ [b] }
  match m with
  | none => r
  | some m => (r.pass.inlet.handlers.calls r.pass.inlet.source m).foldl (call echo) r

def take (r : Recorded η) (limit : Nat) : Recorded η × List UInt8 :=
  let (queue, bytes) := r.pass.inlet.queue.dequeueBatch limit
  ({ r with pass.inlet.queue := queue, rounds := r.rounds + 1 }, bytes)

def drain (echo : Echo η) (batch : Nat) (remaining : Nat) (r : Recorded η) : Recorded η :=
  if remaining = 0 then r
  else
    let (r', bytes) := r.take (min remaining batch)
    if bytes.length = 0 then r
    else drain echo batch (remaining - bytes.length) (bytes.foldl (feed echo) r')
termination_by remaining
decreasing_by omega

/-- The bytes that found room. -/
def accepted (r : Recorded η) : List UInt8 := (r.offers.filter (·.2)).map (·.1)

def refused (r : Recorded η) : List UInt8 := (r.offers.filter (!·.2)).map (·.1)

/-! ### The record changes nothing -/

variable {echo : Echo η}

theorem offerAll_pass (r : Recorded η) (bytes : List UInt8) :
    (bytes.foldl offer r).pass =
      { r.pass with inlet.queue := (r.pass.inlet.queue.enqueueAll bytes).1 } := by
  induction bytes generalizing r with
  | nil => rfl
  | cons b rest ih =>
    rw [List.foldl_cons, ih]
    rfl

theorem call_pass (r : Recorded η) (c : Call η) : (r.call echo c).pass = r.pass.call echo c :=
  offerAll_pass _ _

theorem callAll_pass (r : Recorded η) (calls : List (Call η)) :
    (calls.foldl (call echo) r).pass = calls.foldl (Pass.call echo) r.pass :=
  (List.foldl_hom pass fun r c => (r.call_pass c).symm).symm

theorem feed_pass (r : Recorded η) (b : UInt8) : (r.feed echo b).pass = r.pass.feed echo b := by
  unfold feed Pass.feed
  cases r.pass.inlet.decoder.feed b with
  | mk d m =>
    cases m with
    | none => rfl
    | some m => exact callAll_pass _ _

theorem feedAll_pass (r : Recorded η) (bytes : List UInt8) :
    (bytes.foldl (feed echo) r).pass = bytes.foldl (Pass.feed echo) r.pass :=
  (List.foldl_hom pass fun r b => (r.feed_pass b).symm).symm

theorem drain_pass (batch remaining : Nat) (r : Recorded η) :
    (r.drain echo batch remaining).pass = r.pass.drain echo batch remaining := by
  induction remaining using Nat.strongRecOn generalizing r with
  | ind remaining ih =>
    rw [drain, Pass.drain, take]
    split
    · rfl
    · dsimp only
      split
      · rfl
      · rw [ih _ (by omega), feedAll_pass]

/-! ### What goes through the queue -/

variable {r : Recorded η}

/-- The queue holds what the loop is still to take, and then what found room meanwhile. -/
structure Ledger (lost : Nat) (rest : List UInt8) (r : Recorded η) : Prop where
  queue : r.pass.inlet.queue.bytes = rest ++ r.accepted
  lost : r.pass.inlet.queue.lost = lost + r.refused.length

namespace Ledger

variable {lost : Nat} {rest : List UInt8}

theorem offer (ledger : r.Ledger lost rest) (b : UInt8) : (r.offer b).Ledger lost rest := by
  obtain ⟨queue, count⟩ := ledger
  by_cases free : r.pass.inlet.queue.bytes.length < r.pass.inlet.queue.capacity
  · simp only [Recorded.offer, Fifo.enqueue_room free]
    exact ⟨by simp [queue, accepted], by simp [count, refused]⟩
  · simp only [Recorded.offer, Fifo.enqueue_full (Nat.not_lt.mp free)]
    exact ⟨by simp [queue, accepted], by simp [count, refused, Nat.add_assoc]⟩

theorem call (ledger : r.Ledger lost rest) (c : Call η) : (r.call echo c).Ledger lost rest :=
  List.foldlRecOn _ _ ⟨ledger.queue, ledger.lost⟩ fun _ ledger b _ => ledger.offer b

theorem feed (ledger : r.Ledger lost rest) (b : UInt8) : (r.feed echo b).Ledger lost rest := by
  unfold Recorded.feed
  cases r.pass.inlet.decoder.feed b with
  | mk d m =>
    cases m with
    | none => exact ⟨ledger.queue, ledger.lost⟩
    | some m =>
      exact List.foldlRecOn _ _ ⟨ledger.queue, ledger.lost⟩ fun _ ledger c _ => ledger.call c

end Ledger

/-- Each call of a handler offered its bytes, all of them and in order. -/
def Offered (echo : Echo η) (r : Recorded η) : Prop :=
  r.offers.map (·.1) = (withPast [] r.pass.calls).flatMap fun (past, c) => echo (past ++ [c])

theorem offerAll_offers (r : Recorded η) (bytes : List UInt8) :
    (bytes.foldl offer r).offers.map (·.1) = r.offers.map (·.1) ++ bytes := by
  induction bytes generalizing r with
  | nil => simp
  | cons b rest ih => simp [ih, offer]

theorem Offered.call (offered : r.Offered echo) (c : Call η) : (r.call echo c).Offered echo := by
  unfold Offered at *
  rw [call_pass, Pass.call, withPast_snoc, List.flatMap_append, List.flatMap_singleton, ← offered]
  exact offerAll_offers _ _

theorem Offered.feed (offered : r.Offered echo) (b : UInt8) : (r.feed echo b).Offered echo := by
  unfold Recorded.feed
  cases r.pass.inlet.decoder.feed b with
  | mk d m =>
    cases m with
    | none => exact offered
    | some m => exact List.foldlRecOn _ _ offered fun _ offered c _ => offered.call c

theorem callAll_fed (echo : Echo η) (r : Recorded η) (calls : List (Call η)) :
    (calls.foldl (call echo) r).fed = r.fed ∧ (calls.foldl (call echo) r).rounds = r.rounds := by
  refine List.foldlRecOn (motive := fun r' : Recorded η => r'.fed = r.fed ∧ r'.rounds = r.rounds)
    _ _ ⟨rfl, rfl⟩ fun r' same c _ => ?_
  exact List.foldlRecOn (motive := fun r' : Recorded η => r'.fed = r.fed ∧ r'.rounds = r.rounds)
    _ _ same fun _ same _ _ => same

theorem feed_fed (echo : Echo η) (r : Recorded η) (b : UInt8) :
    (r.feed echo b).fed = r.fed ++ [b] ∧ (r.feed echo b).rounds = r.rounds := by
  unfold feed
  cases r.pass.inlet.decoder.feed b with
  | mk d m =>
    cases m with
    | none => exact ⟨rfl, rfl⟩
    | some m => exact callAll_fed echo _ _

theorem feedAll_fed (echo : Echo η) (r : Recorded η) (bytes : List UInt8) :
    (bytes.foldl (feed echo) r).fed = r.fed ++ bytes ∧
      (bytes.foldl (feed echo) r).rounds = r.rounds := by
  induction bytes generalizing r with
  | nil => simp
  | cons b rest ih =>
    obtain ⟨fed, rounds⟩ := r.feed_fed echo b
    simp [ih, fed, rounds]

/-- The record of a pass over an inlet. Of its queue the loop has not taken `rest` out yet. -/
structure Keeps (start : Inlet η) (echo : Echo η) (rest : List UInt8) (r : Recorded η) : Prop where
  pass : ∃ queue, r.pass = { ({ inlet := start } : Pass η).after r.fed with inlet.queue := queue }
  ledger : r.Ledger start.queue.lost rest
  offered : r.Offered echo

namespace Keeps

variable {start : Inlet η} {rest : List UInt8}

theorem feed (keeps : r.Keeps start echo rest) (b : UInt8) :
    (r.feed echo b).Keeps start echo rest := by
  refine ⟨?_, keeps.ledger.feed b, keeps.offered.feed b⟩
  obtain ⟨queue, before⟩ := keeps.pass
  obtain ⟨queue', after⟩ := r.pass.feed_queue echo b
  refine ⟨queue', ?_⟩
  rw [feed_pass, after, before, (r.feed_fed echo b).1, ← Pass.after_after]
  rfl

theorem take (keeps : r.Keeps start echo rest) {n : Nat} (enough : n ≤ rest.length) :
    (r.take n).2 = rest.take n ∧ (r.take n).1.Keeps start echo (rest.drop n) := by
  have queue := keeps.ledger.queue
  refine ⟨?_, ⟨?_, ⟨?_, keeps.ledger.lost⟩, keeps.offered⟩⟩
  · change r.pass.inlet.queue.bytes.take n = _
    rw [queue, List.take_append_of_le_length enough]
  · obtain ⟨queue, before⟩ := keeps.pass
    exact ⟨(r.pass.inlet.queue.dequeueBatch n).1, by rw [Recorded.take, before]⟩
  · change r.pass.inlet.queue.bytes.drop n = _
    rw [queue, List.drop_append_of_le_length enough]
    rfl

theorem feedAll (keeps : r.Keeps start echo rest) (bytes : List UInt8) :
    (bytes.foldl (Recorded.feed echo) r).Keeps start echo rest :=
  List.foldlRecOn _ _ keeps fun _ keeps b _ => keeps.feed b

end Keeps

theorem rounds_step {n batch : Nat} (positive : 0 < batch) (more : n ≠ 0) :
    1 + (n - min n batch + batch - 1) / batch = (n + batch - 1) / batch := by
  rcases Nat.le_total n batch with last | full
  · have one : (n + batch - 1) / batch = 1 := Nat.div_eq_of_lt_le (by omega) (by omega)
    rw [Nat.min_eq_left last, Nat.sub_self, Nat.div_eq_of_lt (by omega), one]
  · rw [Nat.min_eq_right full, Nat.add_comm 1, ← Nat.add_div_right _ positive]
    congr 1
    omega

/-- The loop takes what was queued at its start, and then it ends. -/
theorem Keeps.drain {start : Inlet η} {rest : List UInt8} {batch : Nat} (positive : 0 < batch)
    (keeps : r.Keeps start echo rest) :
    let last := r.drain echo batch rest.length
    last.Keeps start echo [] ∧ last.fed = r.fed ++ rest ∧
      last.rounds = r.rounds + (rest.length + batch - 1) / batch := by
  induction size : rest.length using Nat.strongRecOn generalizing r rest with
  | ind remaining ih =>
    subst size
    rw [drain]
    split
    · next none_left =>
      obtain rfl := List.length_eq_zero_iff.mp none_left
      exact ⟨keeps, by simp, by simp [Nat.div_eq_of_lt, positive]⟩
    · next more =>
      obtain ⟨taken, opened⟩ := keeps.take (Nat.min_le_left rest.length batch)
      have length : (rest.take (min rest.length batch)).length = min rest.length batch := by
        rw [List.length_take]
        omega
      dsimp only
      rw [taken, length, if_neg (by omega)]
      obtain ⟨last, all, rounds⟩ := ih (rest.length - min rest.length batch) (by omega)
        (opened.feedAll (rest.take (min rest.length batch))) List.length_drop
      obtain ⟨fed, same⟩ := (r.take (min rest.length batch)).1.feedAll_fed echo
        (rest.take (min rest.length batch))
      refine ⟨last, ?_, ?_⟩
      · rw [all, fed, List.append_assoc, List.take_append_drop]
        rfl
      · rw [rounds, same, ← rounds_step positive more, ← Nat.add_assoc]
        rfl

end Recorded

/-- A pass with its record, taking at most `batch` bytes out of the queue at a time. -/
def recorded (i : Inlet η) (echo : Echo η) (batch : Nat) : Recorded η :=
  Recorded.drain echo batch i.queue.length { pass := { inlet := i } }

/--
Processing decodes what is in the queue at the start, each byte once and in order, whatever the size
of the batches and whatever the handlers put into the queue meanwhile. It ends after as many batches
as the queue was long. What it leaves is what found room, in order, and all else is counted.
-/
theorem process_takes_snapshot (i : Inlet η) (echo : Echo η) {batch : Nat} (positive : 0 < batch) :
    let q := i.queue
    let r := i.recorded echo batch
    let p := r.pass
    (p = Pass.drain echo batch q.length { inlet := i } ∧ (batch = batchSize → p = i.process echo)) ∧
    (r.fed = q.bytes ∧ r.rounds = (q.length + batch - 1) / batch) ∧
    (p.inlet.decoder, p.messages) = i.decoder.feedAll q.bytes ∧
    p.calls = p.messages.flatMap (i.handlers.calls i.source) ∧
    (r.offers.map (·.1) = (withPast [] p.calls).flatMap fun (past, c) => echo (past ++ [c])) ∧
    p.inlet.queue.bytes = r.accepted ∧ p.inlet.queue.lost = q.lost + r.refused.length := by
  intro q r p
  have pass : p = Pass.drain echo batch q.length { inlet := i } := Recorded.drain_pass _ _ _
  have start : Recorded.Keeps i echo q.bytes { pass := { inlet := i } } :=
    ⟨⟨i.queue, by simp [Pass.after]⟩, ⟨by simp [Recorded.accepted, q], rfl⟩, rfl⟩
  obtain ⟨⟨⟨queue, known⟩, ledger, offered⟩, fed, rounds⟩ := start.drain positive
  have state : p = { ({ inlet := i } : Pass η).after q.bytes with inlet.queue := queue } := by
    rw [List.nil_append] at fed
    rw [← fed]
    exact known
  refine ⟨⟨pass, ?_⟩, ⟨fed, ?_⟩, ?_, ?_, offered, ledger.queue, ledger.lost⟩
  · rintro rfl
    exact pass
  · exact rounds.trans (Nat.zero_add _)
  · rw [state]
    rfl
  · rw [state]
    rfl

/-- Three clocks in a full queue. -/
def crowded : Inlet Unit :=
  { source := ⟨0⟩, name := "busy", queue := { capacity := 3, bytes := [0xF8, 0xF8, 0xF8] }
    decoder := .new {}, handlers := { catchAll := some () } }

/-- Each clock is answered with two bytes, and there is room for three of them. -/
theorem process_takes_snapshot_of_crowded :
    let r := crowded.recorded (fun _ => [0xFA, 0xFB]) 2
    0 < 2 ∧ (r.fed = [0xF8, 0xF8, 0xF8] ∧ r.rounds = 2) ∧
      r.pass.messages = [.realtime .clock, .realtime .clock, .realtime .clock] ∧
      r.pass.inlet.queue.bytes = [0xFA, 0xFB, 0xFA] ∧ r.pass.inlet.queue.lost = 3 := by
  have accepted : (crowded.recorded (fun _ => [0xFA, 0xFB]) 2).accepted = [0xFA, 0xFB, 0xFA] := by
    cbv
  have refused : (crowded.recorded (fun _ => [0xFA, 0xFB]) 2).refused = [0xFA, 0xFB, 0xFB] := by
    cbv
  have positive : 0 < 2 := by decide
  obtain ⟨-, snapshot, read, -, -, left, lost⟩ :=
    crowded.process_takes_snapshot (fun _ => [0xFA, 0xFB]) positive
  refine ⟨positive, snapshot, congrArg Prod.snd read, left.trans accepted, lost.trans ?_⟩
  rw [refused]
  rfl

end Inlet

end MidiPatch
