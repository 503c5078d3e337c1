import MidiPatch.CommandLine.Options
import MidiPatch.CommandLine.Run
import MidiPatch.CommandLine.Usage
import MidiPatch.Decoder
import MidiPatch.Environment
import MidiPatch.Environment.File
import MidiPatch.Fifo
import MidiPatch.Folder
import MidiPatch.Host
import MidiPatch.Inlet.Basic
import MidiPatch.Inlet.Handlers
import MidiPatch.Link.Basic
import MidiPatch.Link.Memory
import MidiPatch.Link.Reassembled
import MidiPatch.Log.Entry
import MidiPatch.Log.Filter
import MidiPatch.Main
import MidiPatch.Message.Basic
import MidiPatch.Message.Bytes
import MidiPatch.Message.Text
import MidiPatch.Outlet.Basic
import MidiPatch.Outlet.Boundary
import MidiPatch.Patchbay.Assembly
import MidiPatch.Patchbay.Basic
import MidiPatch.Patchbay.Filter
import MidiPatch.Patchbay.Pass
import MidiPatch.Setup.Basic
import MidiPatch.Setup.Check
import MidiPatch.Setup.File
import MidiPatch.Setup.Tree
import MidiPatch.Text.Case
import MidiPatch.Text.Case.Table
import MidiPatch.Text.Similarity
import MidiPatch.Text.Space
import MidiPatch.Text.Style
import MidiPatch.Traffic
import MidiPatch.Usb.Link
import MidiPatch.Usb.Packet
import MidiPatch.Wire.Byte
import MidiPatch.Wire.Hex
import MidiPatch.Wire.Word14
import MidiPatch.Yaml.Character
import MidiPatch.Yaml.Cursor
import MidiPatch.Yaml.Node
import MidiPatch.Yaml.Node.Reader
import MidiPatch.Yaml.Plain
import MidiPatch.Yaml.Read
import MidiPatch.Yaml.Token
import MidiPatch.Yaml.Token.Scalar
import MidiPatch.Yaml.Token.Stream
import MidiPatch.Yaml.Token.Tag
import MidiPatch.Yaml.Value
import MidiPatch.Yaml.Value.Writer
import MidiPatch.Proofs.Merging
import MidiPatch.Proofs.Grammar
import MidiPatch.Proofs.RunningSource
import MidiPatch.Proofs.Sessions
import MidiPatch.Proofs.Recovery
import MidiPatch.Proofs.Transparency
import MidiPatch.Proofs.Reassembly
import MidiPatch.Proofs.Refusals
import MidiPatch.Proofs.Accounts
import MidiPatch.Proofs.Packets
import MidiPatch.Proofs.Draining
import MidiPatch.Proofs.Acts
import MidiPatch.Proofs.Routing
import MidiPatch.Proofs.Sources
import MidiPatch.Proofs.Checking
import MidiPatch.Proofs.Coherence
import MidiPatch.Proofs.Ends
import MidiPatch.Proofs.Assembly
import MidiPatch.Proofs.Resumption
import MidiPatch.Proofs.Dropping
import MidiPatch.Proofs.Boundaries
import MidiPatch.Proofs.Abbreviation
import MidiPatch.Proofs.Inlets
import MidiPatch.Proofs.Spelling
import MidiPatch.Proofs.Truncation
import MidiPatch.Proofs.Snapshot
import MidiPatch.Proofs.PowerOn
import MidiPatch.Proofs.Agreement
import MidiPatch.Proofs.Failures
import MidiPatch.Proofs.Pieces
import MidiPatch.Proofs.Holdings
import MidiPatch.Proofs.Digits
import MidiPatch.Proofs.Lines
import MidiPatch.Proofs.Sigmas
import MidiPatch.Proofs.Rereading
import MidiPatch.Proofs.Files
