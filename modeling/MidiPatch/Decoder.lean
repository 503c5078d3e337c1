import MidiPatch.Message.Bytes

/-!
# Messages from a byte stream

A `Decoder` takes a stream one byte at a time and gives each message on the byte that completes it.
Realtime bytes are messages of their own and disturb nothing. Any other status byte ends what was
pending. A decoder never fails: after garbage it is in step again at the next status byte.
-/

namespace MidiPatch

open Wire

/-- What a decoder is waiting for. -/
inductive Phase
  | idle
  | secondOfTwo
  | secondOfThree
  | thirdOfThree
  | inSysEx
  deriving DecidableEq, Repr

namespace Decoder

structure Options where
  /-- A data byte with no message open repeats the last channel status. -/
  runningStatus : Bool := false
  /-- The longest run that is kept whole, delimiters included. -/
  maxSysEx : Nat := 256
  deriving DecidableEq, Repr

structure Counters where
  /-- Completed messages, realtime included. -/
  messages : Nat := 0
  realtime : Nat := 0
  /-- Data bytes with no message open, undefined status bytes, and stray ends of runs. -/
  framingErrors : Nat := 0
  aborted : Nat := 0
  /-- Runs longer than the limit. -/
  truncated : Nat := 0
  deriving DecidableEq, Repr

end Decoder

structure Decoder where
  options : Decoder.Options
  phase : Phase := .idle
  held : List UInt8 := []
  /-- Set when bytes of the open run were dropped. -/
  cut : Bool := false
  /-- The channel status that a bare data byte would repeat. -/
  repeatable : Option UInt8 := none
  counters : Decoder.Counters := {}
  deriving DecidableEq, Repr

namespace Decoder

/-- A decoder that has seen nothing. A run keeps at least its two delimiters. -/
def new (options : Options) : Decoder :=
  { options := { options with maxSysEx := max 2 options.maxSysEx } }

def pendingLength (d : Decoder) : Nat := d.held.length

/-- Forgets the open message and the repeatable status; the counters stay. -/
def reset (d : Decoder) : Decoder :=
  { d with phase := .idle, held := [], cut := false, repeatable := none }

def reject (d : Decoder) : Decoder :=
  { d with counters.framingErrors := d.counters.framingErrors + 1 }

def close (d : Decoder) : Decoder :=
  { d with phase := .idle, held := [], cut := false }

def complete (d : Decoder) (m : Message) : Decoder × Option Message :=
  ({ d with counters.messages := d.counters.messages + 1 }, some m)

def finish (d : Decoder) (bytes : List UInt8) : Decoder × Option Message :=
  match Message.ofBytes? bytes with
  | some m => d.close.complete m
  | none => (d.close.reject, none)

def finishSysEx (d : Decoder) : Decoder × Option Message :=
  d.close.complete (.sysEx { data := d.held ++ [sysExEnd], truncated := d.cut })

/-- A status byte ends whatever was open. -/
def abort (d : Decoder) : Decoder :=
  if d.phase = .idle then d.close
  else { d.close with counters.aborted := d.counters.aborted + 1 }

/-- Opens a message with its status byte, which is whole if it needs no data. -/
def start (d : Decoder) (status : UInt8) : Decoder × Option Message :=
  match lengthOf status with
  | .one => d.finish [status]
  | .two => ({ d with phase := .secondOfTwo, held := [status] }, none)
  | .three => ({ d with phase := .secondOfThree, held := [status] }, none)
  | .undefined =>
    if status = sysExBegin then ({ d with phase := .inSysEx, held := [status] }, none)
    else (d.reject, none)

/-- System common messages leave nothing to repeat. -/
def onStatus (d : Decoder) (status : UInt8) : Decoder × Option Message :=
  if d.phase = .inSysEx ∧ status = sysExEnd then d.finishSysEx
  else
    { d.abort with repeatable := if isChannelStatus status then some status else none }.start status

def extend (d : Decoder) (b : UInt8) : Decoder × Option Message :=
  match d.phase with
  | .idle => (d.reject, none)
  | .secondOfTwo => d.finish (d.held ++ [b])
  | .secondOfThree => ({ d with phase := .thirdOfThree, held := d.held ++ [b] }, none)
  | .thirdOfThree => d.finish (d.held ++ [b])
  | .inSysEx =>
    if d.held.length < d.options.maxSysEx - 1 then ({ d with held := d.held ++ [b] }, none)
    else if d.cut then (d, none)
    else ({ d with cut := true, counters.truncated := d.counters.truncated + 1 }, none)

/-- Opens a message that repeats an earlier channel status. -/
def reopen (d : Decoder) (status : UInt8) : Decoder :=
  { d with
    phase := if lengthOf status = .two then .secondOfTwo else .secondOfThree
    held := [status] }

def onData (d : Decoder) (b : UInt8) : Decoder × Option Message :=
  match d.phase, d.repeatable with
  | .idle, some status =>
    if d.options.runningStatus then (d.reopen status).extend b else (d.reject, none)
  | _, _ => d.extend b

/-- Takes one byte and gives the message it completes, if any. -/
def feed (d : Decoder) (b : UInt8) : Decoder × Option Message :=
  match Realtime.ofByte? b with
  | some k =>
    { d with counters.realtime := d.counters.realtime + 1 }.complete (.realtime k)
  | none => if isStatus b then d.onStatus b else d.onData b

def feedAll (d : Decoder) : List UInt8 → Decoder × List Message
  | [] => (d, [])
  | b :: bs =>
    let (d', m) := d.feed b
    let (d'', ms) := d'.feedAll bs
    (d'', m.toList ++ ms)

@[simp] theorem feedAll_nil (d : Decoder) : d.feedAll [] = (d, []) := rfl

theorem feedAll_cons (d : Decoder) (b : UInt8) (bs : List UInt8) :
    d.feedAll (b :: bs) =
      (((d.feed b).1.feedAll bs).1, (d.feed b).2.toList ++ ((d.feed b).1.feedAll bs).2) := rfl

theorem feedAll_append (d : Decoder) (bs cs : List UInt8) :
    d.feedAll (bs ++ cs) =
      (((d.feedAll bs).1.feedAll cs).1, (d.feedAll bs).2 ++ ((d.feedAll bs).1.feedAll cs).2) := by
  induction bs generalizing d with
  | nil => simp
  | cons b bs ih => simp [feedAll_cons, ih]

end Decoder

end MidiPatch
