/-!
# A bounded byte queue

`Fifo` sits between whoever receives bytes and the loop that reads them. A full queue refuses bytes
and counts them; it never drops a byte it has accepted.
-/

namespace MidiPatch

structure Fifo where
  capacity : Nat
  /-- The bytes in the queue, oldest first. -/
  bytes : List UInt8 := []
  lost : Nat := 0
  /-- Flips with every byte refused. -/
  lossFlag : Bool := false
  deriving DecidableEq, Repr

namespace Fifo

/-- An empty queue. It holds at least one byte. -/
def new (capacity : Nat) : Fifo := { capacity := max 1 capacity }

def length (q : Fifo) : Nat := q.bytes.length

def isEmpty (q : Fifo) : Bool := q.bytes.isEmpty

def enqueue (q : Fifo) (b : UInt8) : Fifo × Bool :=
  if q.bytes.length < q.capacity then ({ q with bytes := q.bytes ++ [b] }, true)
  else ({ q with lost := q.lost + 1, lossFlag := !q.lossFlag }, false)

/-- Appends a run of bytes one by one and says how many there was room for. -/
def enqueueAll (q : Fifo) : List UInt8 → Fifo × Nat
  | [] => (q, 0)
  | b :: bs =>
    let (q', accepted) := q.enqueue b
    let (q'', n) := q'.enqueueAll bs
    (q'', n + accepted.toNat)

def dequeue (q : Fifo) : Fifo × Option UInt8 :=
  ({ q with bytes := q.bytes.tail }, q.bytes.head?)

def dequeueBatch (q : Fifo) (limit : Nat) : Fifo × List UInt8 :=
  ({ q with bytes := q.bytes.drop limit }, q.bytes.take limit)

def clear (q : Fifo) : Fifo × Nat :=
  ({ q with bytes := [] }, q.bytes.length)

/-! ### Enqueueing a run -/

@[simp] theorem enqueueAll_nil (q : Fifo) : q.enqueueAll [] = (q, 0) := rfl

theorem enqueueAll_cons (q : Fifo) (b : UInt8) (bs : List UInt8) :
    q.enqueueAll (b :: bs) =
      (((q.enqueue b).1.enqueueAll bs).1,
        ((q.enqueue b).1.enqueueAll bs).2 + (q.enqueue b).2.toNat) := rfl

@[simp] theorem enqueue_capacity (q : Fifo) (b : UInt8) :
    (q.enqueue b).1.capacity = q.capacity := by
  unfold enqueue; split <;> rfl

end Fifo

end MidiPatch
