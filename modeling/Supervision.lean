import Supervision.Numeric.Rounding
import Supervision.Numeric.Binary64
import Supervision.Numeric.Fixed
import Supervision.Time.Span
import Supervision.Text.Quoted
import Supervision.Status
import Supervision.Failure
import Supervision.Fault
import Supervision.Event
import Supervision.LogLine
import Supervision.Numeric.Shortest
import Supervision.Document.Numeral
import Supervision.Document.Token
import Supervision.Document.Tree
import Supervision.Document.Decode
import Supervision.Policy
import Supervision.Settings.Supervisor
import Supervision.Settings.Recording
import Supervision.Time.Stamp
import Supervision.Shutdown
import Supervision.Lifecycle
import Supervision.Execution.Outcome
import Supervision.Store.Registration
import Supervision.Store.Table
import Supervision.Store.Session
import Supervision.Store.Upsert
import Supervision.Store.Insert
import Supervision.Store.Sweep
import Supervision.Store.Summary
import Supervision.Store.Cell
import Supervision.Document.Value
import Supervision.Store.Export
import Supervision.Readiness
import Supervision.Bus
import Supervision.StartOrder
import Supervision.Ensemble
import Supervision.Fanout
import Supervision.Fanout.Circuit
import Supervision.Fanout.Loop
import Supervision.Recording.Sink
import Supervision.Execution.Attempt
import Supervision.Recording.Writer
import Supervision.Recording.Recorder
import Supervision.Restarts
import Supervision.Script
import Supervision.Supervisor.State
import Supervision.Supervisor.Cycle
import Supervision.Supervisor.Watch
import Supervision.Supervisor.Feed
import Supervision.Supervisor.Host
import Supervision.Supervisor.Step
import Supervision.Supervisor.Turns
import Supervision.Supervisor.Simulation
import Supervision.Text.Visible
import Supervision.Lifecycle.Replay
import Supervision.StartOrder.Valid
import Supervision.Recording.Trace
import Supervision.Recording.Pass
import Supervision.Proofs.Recording.OneByOne
import Supervision.Proofs.Recording.Passes
import Supervision.Store.History
import Supervision.Supervisor.Chronicle
import Supervision.Execution.Call
import Supervision.Supervisor.Growth
import Supervision.Proofs.Fanout.Emission
import Supervision.Proofs.Supervisor.Schedule
import Supervision.Proofs.Supervisor.Change
import Supervision.Proofs.Supervisor.Steps
import Supervision.Proofs.Supervisor.Views
import Supervision.Proofs.Supervisor.Effects
import Supervision.Proofs.Supervisor.Balance
import Supervision.Proofs.Supervisor.Attention
import Supervision.Proofs.Supervisor.Stopping
import Supervision.Proofs.Supervisor.Custody
import Supervision.Proofs.Supervisor.Overlap
import Supervision.Proofs.Supervisor.Ledger
import Supervision.Proofs.Supervisor.Budget
import Supervision.Proofs.Lifecycle.Replay
import Supervision.Proofs.Supervisor.Admission
import Supervision.Proofs.Supervisor.Ending
import Supervision.Proofs.Supervisor.Pacing
import Supervision.Proofs.Supervisor.CycleSteps
import Supervision.Proofs.Supervisor.Waits
import Supervision.Proofs.Supervisor.Gating
import Supervision.Proofs.Supervisor.FirstRun
import Supervision.Proofs.Supervisor.Deadline
import Supervision.Proofs.Supervisor.Yielding
import Supervision.Proofs.Supervisor.Cleanup
import Supervision.Proofs.Supervisor.Grace
import Supervision.Proofs.Supervisor.Startup
import Supervision.Proofs.Recording.Sequence
import Supervision.Proofs.Recording.Sessions
import Supervision.Proofs.Fanout.Reports
import Supervision.Proofs.Recording.Signs
import Supervision.Proofs.Fanout.Bound
import Supervision.Proofs.Fanout.Rest
import Supervision.Proofs.Fanout.Delivery
import Supervision.Proofs.Supervisor.Feeding
import Supervision.Proofs.Supervisor.Delivery
import Supervision.Proofs.Supervisor.Tracking
import Supervision.Proofs.Supervisor.Closing
import Supervision.Proofs.Supervisor.News
import Supervision.Proofs.Supervisor.CrashDetail
import Supervision.Proofs.Supervisor.Failures
import Supervision.Proofs.Supervisor.Escalating
import Supervision.Proofs.Supervisor.Grounds
import Supervision.Proofs.Supervisor.Abreast
import Supervision.Proofs.Supervisor.Report
import Supervision.Proofs.Store.Shelves
import Supervision.Proofs.Store.Sessions
import Supervision.Proofs.Store.Integrity
import Supervision.Proofs.Store.Numbers
import Supervision.Proofs.Store.Batches
import Supervision.Proofs.Store.Chronology
import Supervision.Proofs.Store.Sweeps
import Supervision.Proofs.Store.Readable
import Supervision.Proofs.Store.Summaries
import Supervision.Proofs.Store.RecentErrors
import Supervision.Execution.Flight
import Supervision.Proofs.Execution.Flights
import Supervision.Proofs.StartOrder.Frontier
import Supervision.Proofs.StartOrder.Circles
import Supervision.Proofs.StartOrder.Canonical
import Supervision.Proofs.Supervisor.Clocks
import Supervision.Proofs.Supervisor.Recorded
import Supervision.Proofs.Supervisor.Places
import Supervision.Proofs.Supervisor.Unwinding
import Supervision.Proofs.Supervisor.StopSteps
import Supervision.Proofs.Lifecycle.Waiting
import Supervision.Proofs.Supervisor.LatestMove
import Supervision.Proofs.Supervisor.Verdict
import Supervision.Proofs.Supervisor.Recovery
import Supervision.Proofs.Supervisor.Beats
import Supervision.Proofs.Supervisor.Course
import Supervision.Proofs.Supervisor.Return
