import JobQueue.Job
import JobQueue.Store
import JobQueue.Time.Stamp

/-!
Why an attempt at a job did not succeed. Errors on the failure path of a worker are the ones to
be tried again: the record is still stored and its attempt has been counted.
-/

namespace JobQueue

open Time (Instant)

inductive JobError
  | validation (e : ValidationError)
  | alreadyReserved (id : String) (since : Instant)
  | reservation (e : StoreError)
  | parse (e : ParseError)
  | handlerNotFound (jobType : String)
  | handler (text : String)
  | handlerPanicked (text : String)
  | completion (e : StoreError)
  | failurePersistence (cause : String) (source : StoreError)
  | enqueueTimeout
  | resultTimeout
  | poolClosed
  deriving DecidableEq, Repr

namespace JobError

/-- The error in words, with times as `showTime` gives them. -/
def messageWith (showTime : Instant → String) : JobError → String
  | validation e => s!"invalid queue record: {e.message}"
  | alreadyReserved id since => s!"job {id} is already reserved (since {showTime since})"
  | reservation e => s!"failed to reserve job: {e.message}"
  | parse e => s!"failed to parse job: {e.message}"
  | handlerNotFound jobType => s!"no handler registered for job type: {jobType}"
  | handler text => s!"handler failed: {text}"
  | handlerPanicked text => s!"handler panicked: {text}"
  | completion e => s!"failed to delete completed job: {e.message}"
  | failurePersistence cause source =>
    s!"failed to record job failure ({cause}): {source.message}"
  | enqueueTimeout => "timed out waiting to enqueue job"
  | resultTimeout => "timed out waiting for job result"
  | poolClosed => "worker pool is shut down"

def message (e : JobError) : String := e.messageWith Instant.display

/-- Whether the record is still stored, free, and with this attempt counted. -/
def isRetryable : JobError → Bool
  | parse _ | handlerNotFound _ | handler _ | handlerPanicked _ => true
  | _ => false

def ofJobFault : JobFault → JobError
  | .validation e => .validation e
  | .parse e => .parse e

/-- A valid record is still stored when it gives no job. -/
theorem isRetryable_ofJobFault {r : Record} {fault : JobFault}
    (valid : Record.validate (some r) = .ok r) (refused : Job.ofRecord (some r) = .error fault) :
    (ofJobFault fault).isRetryable = true := by
  rw [Job.ofRecord_of_valid valid] at refused
  cases read : r.parseJob with
  | error e =>
    rw [read] at refused
    obtain rfl := Except.error.inj refused
    rfl
  | ok job =>
    rw [read] at refused
    cases refused

end JobError

abbrev Outcome := Except JobError Unit

instance : DecidableEq Outcome
  | .ok (), .ok () => isTrue rfl
  | .error e, .error f =>
    if h : e = f then isTrue (h ▸ rfl) else isFalse fun same => h (Except.error.inj same)
  | .ok _, .error _ => isFalse nofun
  | .error _, .ok _ => isFalse nofun

end JobQueue
