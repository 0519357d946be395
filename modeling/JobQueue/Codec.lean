import JobQueue.Job
import JobQueue.Json.Shape
import JobQueue.Pool.State

/-!
Records, jobs and settings as JSON texts. Writing gives every field in order; reading takes the
object form with its fields in any order, or the array form. Of a record the attempts and the
reservation may be left out of an object, of a job the reservation, of settings every field. The
figures of a pool are only written.
-/

namespace JobQueue

open Time (Instant)
open Json (Fields Shape Value Fault)

def stampValue (t : Instant) : Value := .string t.stamp

def optionalStampValue (t? : Option Instant) : Value :=
  match t? with
  | some t => stampValue t
  | none => .null

def countValue (n : Nat) : Value := .number (.whole n)

def maxAttempts : Nat := UInt32.size - 1

namespace Record

def toJson (r : Record) : Value :=
  .object
    [("id", .string r.id),
     ("collection", .string r.collection),
     ("payload", .string r.payload),
     ("attempts", countValue r.attempts.toNat),
     ("reserved_at", optionalStampValue r.reservedAt),
     ("created_at", stampValue r.createdAt),
     ("updated_at", stampValue r.updatedAt)]

def shape : Shape :=
  [("id", .text), ("collection", .text), ("payload", .text), ("attempts", .natural maxAttempts),
   ("reserved_at", .optionalStamp), ("created_at", .stamp), ("updated_at", .stamp)]

/-- The record of the fields. Missing attempts are none, a missing reservation is absent. -/
def ofFields? (f : Fields) : Option Record := do
  return {
    id := ← f.text? "id"
    collection := ← f.text? "collection"
    payload := ← f.text? "payload"
    attempts := UInt32.ofNat ((f.natural? "attempts").getD 0)
    reservedAt := f.optionalStamp "reserved_at"
    createdAt := ← f.stamp? "created_at"
    updatedAt := ← f.stamp? "updated_at" }

def ofJson? (text : String) : Except Fault Record :=
  shape.ofText? ofFields? text

end Record

namespace Job

def toJson (job : Job) : Value :=
  .object
    [("id", .string job.id),
     ("name", .string job.name),
     ("description", .string job.description),
     ("job_type", .string job.jobType),
     ("payload", .object job.payload),
     ("attempts", countValue job.attempts.toNat),
     ("reserved_at", optionalStampValue job.reservedAt),
     ("created_at", stampValue job.createdAt),
     ("updated_at", stampValue job.updatedAt)]

def shape : Shape :=
  [("id", .text), ("name", .text), ("description", .text), ("job_type", .text),
   ("payload", .object), ("attempts", .natural maxAttempts), ("reserved_at", .optionalStamp),
   ("created_at", .stamp), ("updated_at", .stamp)]

/-- The job of the fields. A missing reservation is absent. -/
def ofFields? (f : Fields) : Option Job := do
  return {
    id := ← f.text? "id"
    name := ← f.text? "name"
    description := ← f.text? "description"
    jobType := ← f.text? "job_type"
    payload := ← f.object? "payload"
    attempts := UInt32.ofNat (← f.natural? "attempts")
    reservedAt := f.optionalStamp "reserved_at"
    createdAt := ← f.stamp? "created_at"
    updatedAt := ← f.stamp? "updated_at" }

def ofJson? (text : String) : Except Fault Job :=
  shape.ofText? ofFields? text

end Job

namespace Settings

def toJson (s : Settings) : Value :=
  .object
    [("workers", countValue s.workers),
     ("reservation_window_secs", countValue s.reservationWindowSecs),
     ("enqueue_timeout_secs", countValue s.enqueueTimeoutSecs),
     ("result_timeout_secs", countValue s.resultTimeoutSecs)]

def shape : Shape :=
  let number : Json.Kind := .natural (numberLimit - 1)
  [("workers", number), ("reservation_window_secs", number), ("enqueue_timeout_secs", number),
   ("result_timeout_secs", number)]

/-- The settings of the fields; a missing field has its default. -/
def ofFields? (f : Fields) : Option Settings :=
  let d := default
  some {
    workers := (f.natural? "workers").getD d.workers
    reservationWindowSecs :=
      (f.natural? "reservation_window_secs").getD d.reservationWindowSecs
    enqueueTimeoutSecs := (f.natural? "enqueue_timeout_secs").getD d.enqueueTimeoutSecs
    resultTimeoutSecs := (f.natural? "result_timeout_secs").getD d.resultTimeoutSecs }

def ofJson? (text : String) : Except Fault Settings :=
  shape.ofText? ofFields? text

end Settings

def PoolStats.toJson (s : PoolStats) : Value :=
  .object
    [("workers", countValue s.workers),
     ("busy_workers", countValue s.busyWorkers),
     ("job_capacity", countValue s.jobCapacity),
     ("queued_jobs", countValue s.queuedJobs),
     ("result_capacity", countValue s.resultCapacity),
     ("pending_results", countValue s.pendingResults),
     ("closed", .bool s.closed)]

end JobQueue
