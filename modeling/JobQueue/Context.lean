import JobQueue.Job
import JobQueue.Log

/-!
The context of an attempt: made from the job and the worker, and the source of the entries that
are logged in the attempt's span.
-/

namespace JobQueue

namespace Context

/-- The context of a worker's attempt at a job. Attempts are counted from one. -/
def ofJob (job : Job) (workerId : Nat) : Context :=
  { jobId := job.id, jobType := job.jobType, workerId, attempt := countAttempt job.attempts }

def entry (c : Context) (level : Log.Level) (source : Log.Source) (message : String)
    (fields : List (String × String)) : Log.Entry :=
  { level, source, message, fields, span := some c }

def started (c : Context) : Log.Entry :=
  c.entry .info .context "Job started" []

def debug (c : Context) (text : String) : Log.Entry :=
  c.entry .debug .context text []

def ended (c : Context) : Log.Entry :=
  c.entry .info .context "Job completed" []

def failed (c : Context) (text : String) : Log.Entry :=
  c.entry .warn .context "Job failed" [("error", text)]

end Context

end JobQueue
