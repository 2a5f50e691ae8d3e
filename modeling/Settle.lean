import Settle.Bench
import Settle.Live.Roster
import Settle.Live.Scenario
import Settle.Main
import Settle.Trace
import Settle.Line.Rack
import Settle.Proofs.Run
import Settle.Proofs.Windower.Steps
import Settle.Proofs.Watch.Steps
import Settle.Proofs.Watch.Shift
import Settle.Proofs.Watch.Accounting
import Settle.Proofs.Watch.Bounds
import Settle.Proofs.Watch.Teardown
import Settle.Proofs.Live.Steps
import Settle.Proofs.Live.Freshness
import Settle.Proofs.Live.Projection
import Settle.Proofs.Live.Wakeup
import Settle.Proofs.Live.Owners
import Settle.Proofs.Live.Shutdown
import Settle.Proofs.Windower.Blocks
import Settle.Proofs.Windower.Ledger
import Settle.Proofs.Windower.HalfOpen
import Settle.Proofs.Windower.Bounds
import Settle.Proofs.Windower.Attribution
import Settle.Proofs.Windower.Spacing
import Settle.Proofs.Live.Core
import Settle.Proofs.Live.Fates
import Settle.Proofs.Live.Stream
import Settle.Proofs.Live.Overlap
import Settle.Proofs.Watch.Upstream
import Settle.Proofs.Watch.FaultHistory
import Settle.Proofs.Live.Exclusive
import Settle.Proofs.Live.Episodes
import Settle.Proofs.Live.Founding
import Settle.Proofs.Hub.Queries
import Settle.Proofs.Json.Grammar
import Settle.Proofs.Json.Lexing
import Settle.Proofs.Json.Skipping
import Settle.Proofs.Json.Printing
import Settle.Proofs.Settings.ObjectForm
import Settle.Proofs.Settings.RoundTrip
import Settle.Proofs.Settings.ArrayForm
import Settle.Proofs.Live.Timing
import Settle.Proofs.Windower.Bursts
import Settle.Proofs.Text.Cutting
import Settle.Proofs.Windower.Closings
import Settle.Proofs.Windower.Fields
import Settle.Proofs.Windower.InStep
import Settle.Proofs.Windower.Gaps
import Settle.Proofs.Live.Rest
import Settle.Proofs.Live.Calls
import Settle.Proofs.Json.Lossless
import Settle.Proofs.Snapshot.Lossless
