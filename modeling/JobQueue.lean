import JobQueue.Codec
import JobQueue.Context
import JobQueue.Database.Error
import JobQueue.Database.Row
import JobQueue.Database.Settings
import JobQueue.Database.Store
import JobQueue.Database.Table
import JobQueue.Decimal.Binary64
import JobQueue.Decimal.Shortest
import JobQueue.Handler
import JobQueue.Handler.Demo
import JobQueue.Handler.Script
import JobQueue.Host
import JobQueue.Identifier
import JobQueue.Job
import JobQueue.JobError
import JobQueue.Json.Fault
import JobQueue.Json.Printer
import JobQueue.Json.Reader
import JobQueue.Json.Reader.Number
import JobQueue.Json.Reader.String
import JobQueue.Json.Shape
import JobQueue.Json.Value
import JobQueue.Keyed
import JobQueue.Log
import JobQueue.Log.Filter
import JobQueue.Main
import JobQueue.Pool.Collection
import JobQueue.Pool.Move
import JobQueue.Pool.State
import JobQueue.ProcessorError
import JobQueue.Program
import JobQueue.Record
import JobQueue.Registry
import JobQueue.Server
import JobQueue.Settings
import JobQueue.Store
import JobQueue.Store.Faulty
import JobQueue.Store.Memory
import JobQueue.Text.Blank
import JobQueue.Text.Quoted
import JobQueue.Text.Unprintable
import JobQueue.Time.Calendar
import JobQueue.Time.Clock
import JobQueue.Time.Instant
import JobQueue.Time.Span
import JobQueue.Time.Stamp
import JobQueue.Timeline
import JobQueue.Worker
import JobQueue.Worker.Process
import JobQueue.Proofs.Worker.Steps
import JobQueue.Proofs.Shift
import JobQueue.Proofs.Shift.Memory
import JobQueue.Proofs.Shift.Ledger
import JobQueue.Proofs.Shift.Play
import JobQueue.Proofs.Shift.Solo
import JobQueue.Proofs.Shift.Exclusion
import JobQueue.Proofs.Shift.Duplicates
import JobQueue.Proofs.Shift.Race
import JobQueue.Proofs.Pool.Beat
import JobQueue.Proofs.Pool.Correlation
import JobQueue.Proofs.Time.Calendar
import JobQueue.Proofs.Time.Digits
import JobQueue.Proofs.Time.Stamp
import JobQueue.Proofs.Database.Row
import JobQueue.Proofs.Store.Calls
import JobQueue.Proofs.Database.Table
import JobQueue.Proofs.Database.Readable
import JobQueue.Proofs.Database.Cutoff
import JobQueue.Proofs.Database.Mirror
import JobQueue.Proofs.Pool.Duty
import JobQueue.Proofs.Pool.Manned
import JobQueue.Proofs.Pool.HandOff
import JobQueue.Proofs.Pool.Service
import JobQueue.Proofs.Pool.Fate
import JobQueue.Proofs.Pool.Sequential
import JobQueue.Proofs.Pool.Undisturbed
import JobQueue.Proofs.Pool.Progress
import JobQueue.Proofs.Pool.Shutdown
import JobQueue.Proofs.Pool.Late
import JobQueue.Proofs.Pool.Owed
import JobQueue.Proofs.Pool.Course
import JobQueue.Proofs.Pool.Agreement
import JobQueue.Proofs.Pool.Drain
import JobQueue.Proofs.Store.Due
import JobQueue.Proofs.Store.Claims
import JobQueue.Proofs.Pool.Poll
import JobQueue.Proofs.Pool.Claims
import JobQueue.Proofs.Worker.Account
import JobQueue.Proofs.Registry
import JobQueue.Proofs.Database.Claims
import JobQueue.Proofs.Pool.Polling
import JobQueue.Proofs.Store.Oldest
import JobQueue.Proofs.Database.Due
import JobQueue.Proofs.Worker.States
import JobQueue.Proofs.Json.Scalar
import JobQueue.Proofs.Json.RoundTrip
import JobQueue.Proofs.Job
import JobQueue.Proofs.Checked
import JobQueue.Proofs.Settings
import JobQueue.Proofs.Pool.Rounds
import JobQueue.Proofs.Shift.Attempts
import JobQueue.Proofs.Codec
import JobQueue.Proofs.Text.Bytes
import JobQueue.Proofs.Database.Reservation
import JobQueue.Proofs.Registry.History
import JobQueue.Proofs.Pool.Closed
import JobQueue.Proofs.Host
import JobQueue.Proofs.Timeline
import JobQueue.Proofs.Host.Lifecycle
