import MidiPatch.Setup.Basic
import MidiPatch.Yaml.Read
import MidiPatch.Yaml.Value

/-!
# Setups as YAML

`Setup.value` is what is written for a setup, `Setup.read` what is read from a document. Fields that
are not known are passed over.
-/

namespace MidiPatch

open Yaml

/-! ### Writing -/

def Filter.value (f : Filter) : Value :=
  let channels := f.channels.map fun cs => Value.sequence (cs.map fun c => .number c.toNat)
  let kinds := f.kinds.map fun ks => Value.sequence (ks.map fun k => .text k.name)
  .mapping (Value.entryIf "channels" channels ++ Value.entryIf "kinds" kinds)

namespace Setup

def Port.value (p : Port) : Value :=
  .mapping
    (("name", .text p.name) ::
      (Value.entryIf "input" (p.input.map .text) ++ Value.entryIf "output" (p.output.map .text)))

def Route.value (r : Route) : Value :=
  .mapping
    (("from", .text r.source) :: ("to", .text r.destination) ::
      Value.entryIf "filter" (r.filter.map Filter.value))

def value (s : Setup) : Value :=
  .mapping
    [("queue_capacity", .number s.queueCapacity.toNat),
      ("poll_interval_ms", .number s.pollInterval.toNat),
      ("framer", .mapping
        [("running_status", .bool s.runningStatus), ("max_sysex_len", .number s.maxSysEx.toNat)]),
      ("merge", .mapping [("compress_running_status", .bool s.compress)]),
      ("ports", .sequence (s.ports.map Port.value)),
      ("routes", .sequence (s.routes.map Route.value))]

end Setup

/-! ### Reading -/

def Kind.read (n : Node) : Read Kind := do
  match Kind.ofName? (← Read.choice n) with
  | some k => return k
  | none => failure

def Filter.read (n : Node) : Read Filter := do
  let fields ← Read.fields n
  let channels ← Read.optional "channels" (Read.list Read.byte) fields
  let kinds ← Read.optional "kinds" (Read.list Kind.read) fields
  return { channels, kinds }

namespace Setup

def Port.read (n : Node) : Read Port := do
  let fields ← Read.fields n
  let name ← Read.required "name" Read.text fields
  let input ← Read.optional "input" Read.text fields
  let output ← Read.optional "output" Read.text fields
  return { name, input, output }

def Route.read (n : Node) : Read Route := do
  let fields ← Read.fields n
  let source ← Read.required "from" Read.text fields
  let destination ← Read.required "to" Read.text fields
  let filter ← Read.optional "filter" Filter.read fields
  return { source, destination, filter }

/-- Whether running status is understood, and the longest SysEx message. -/
def readDecoding (n : Node) : Read (Bool × UInt64) := do
  let fields ← Read.fields n
  let runningStatus ← Read.orDefault "running_status" false Read.bool fields
  let maxSysEx ← Read.orDefault "max_sysex_len" 256 Read.word fields
  return (runningStatus, maxSysEx)

/-- Whether status bytes are left out where they repeat. -/
def readMerging (n : Node) : Read Bool := do
  Read.orDefault "compress_running_status" false Read.bool (← Read.fields n)

def read (n : Node) : Read Setup := do
  let fields ← Read.fields n
  let queueCapacity ← Read.orDefault "queue_capacity" 64 Read.word fields
  let pollInterval ← Read.orDefault "poll_interval_ms" 1 Read.word fields
  let (runningStatus, maxSysEx) ← Read.orDefault "framer" (false, 256) readDecoding fields
  let compress ← Read.orDefault "merge" false readMerging fields
  let ports ← Read.required "ports" (Read.list Port.read) fields
  let routes ← Read.orDefault "routes" [] (Read.list Route.read) fields
  return { queueCapacity, pollInterval, runningStatus, maxSysEx, compress, ports, routes }

/-- The setup that a document describes. -/
def ofDocument? (d : Document) : Option Setup := Read.run read d

end Setup

end MidiPatch
