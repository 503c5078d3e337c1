import MidiPatch.Decoder
import MidiPatch.Link.Basic

/-!
# Bytes for an output of whole messages

`Reassembled` takes bytes on behalf of an output that only takes messages: its own decoder puts the
messages together again.
-/

namespace MidiPatch

structure Reassembled (σ : Type) where
  decoder : Decoder
  sink : σ

namespace Reassembled

variable {σ : Type} [MessageOutput σ]

def new (sink : σ) (options : Decoder.Options) : Reassembled σ :=
  { decoder := .new options, sink := sink }

/-- Feeds one byte and sends on the message it completes. -/
def put (r : Reassembled σ) (b : UInt8) : Reassembled σ × Except LinkError Unit :=
  let (decoder, m) := r.decoder.feed b
  match m with
  | none => ({ r with decoder := decoder }, .ok ())
  | some m =>
    let (sink, result) := MessageOutput.send r.sink m
    ({ decoder := decoder, sink := sink }, result)

/-- Feeds bytes up to the first one whose message is refused; the bytes after it are dropped. -/
def putAll (r : Reassembled σ) : List UInt8 → Reassembled σ × Except LinkError Unit
  | [] => (r, .ok ())
  | b :: bs =>
    match r.put b with
    | (r', .ok ()) => r'.putAll bs
    | (r', .error e) => (r', .error e)

instance : ByteOutput (Reassembled σ) where
  send r bytes := r.putAll bytes

end Reassembled

end MidiPatch
