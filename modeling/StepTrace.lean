import StepTrace.Command.Run
import StepTrace.Files.Glob
import StepTrace.Main
import StepTrace.Recording.Ingest
import StepTrace.Script.Traced
import StepTrace.Sources.Instrument
import StepTrace.Store.Scan
import StepTrace.Store.Write
import StepTrace.Toml.Read
import StepTrace.Proofs.Recording.History
import StepTrace.Proofs.Recording.Isolation
import StepTrace.Proofs.Files.Disk
import StepTrace.Proofs.Store.Scan
import StepTrace.Proofs.Store.Write
import StepTrace.Proofs.Store.Contiguity
import StepTrace.Proofs.Store.AppendOnly
import StepTrace.Proofs.Script.Unprobe
import StepTrace.Proofs.Script.Reads
import StepTrace.Proofs.Recording.Activation
import StepTrace.Proofs.Store.Retention
import StepTrace.Proofs.Recording.Lines
import StepTrace.Proofs.Store.Written
import StepTrace.Proofs.Store.Inventory
import StepTrace.Proofs.Store.Sharing
import StepTrace.Proofs.Script.BareProbes
import StepTrace.Proofs.Script.Captures
import StepTrace.Proofs.Script.Readings
import StepTrace.Proofs.Script.Passed
import StepTrace.Proofs.Store.Replay
import StepTrace.Proofs.Script.Reported
import StepTrace.Proofs.Script.Bodies
import StepTrace.Proofs.Script.Execution
import StepTrace.Proofs.Script.Equivalence
import StepTrace.Proofs.Json.Numeral
import StepTrace.Proofs.Json.Reread
import StepTrace.Proofs.Recording.Wire
import StepTrace.Proofs.Recording.Driven
import StepTrace.Proofs.Store.Interleaving
import StepTrace.Proofs.Sources.Rerun
import StepTrace.Proofs.Recording.Appended
import StepTrace.Proofs.Recording.Numbering
import StepTrace.Proofs.Store.Reserved
import StepTrace.Proofs.Sources.Identity
import StepTrace.Proofs.Store.Timeless
import StepTrace.Proofs.Script.Coverage
import StepTrace.Proofs.Script.Fixed
import StepTrace.Proofs.Recording.Captured
import StepTrace.Proofs.Script.Completeness
import StepTrace.Proofs.Recording.Decoded
import StepTrace.Proofs.Store.Inspection
import StepTrace.Proofs.Store.Segment
import StepTrace.Proofs.Json.Quoted
import StepTrace.Proofs.Json.Spelling
import StepTrace.Proofs.Json.Proper
import StepTrace.Proofs.Recording.Persisted
import StepTrace.Proofs.Store.Persisted
import StepTrace.Proofs.Text.Blank
import StepTrace.Proofs.Recording.Tallies
import StepTrace.Proofs.Recording.Rows
import StepTrace.Proofs.Json.Series
import StepTrace.Proofs.Recording.Strangers
import StepTrace.Proofs.Json.Objects
import StepTrace.Proofs.Command.Pairing
import StepTrace.Proofs.Script.Balance
