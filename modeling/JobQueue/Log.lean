/-!
Log entries: what an observer sees of the work. An entry may stand in the span of a job's
attempt, which carries the facts that tell the attempts apart. A worker's changes of state are no
entries but events of its run.

Left out are the entries that pools, their workers and processors make when they start and stop,
when they poll, and when a wait of theirs runs out or brings a result that nobody waits for:
`Pool.Move` says what can happen there. Of the entry of an attempt that succeeded, the time it
took is left out, which is measured and not read off the clock.
-/

namespace JobQueue

namespace Log

inductive Level
  | error
  | warn
  | info
  | debug
  | trace
  deriving DecidableEq, Repr

def Level.name : Level → String
  | error => "ERROR"
  | warn => "WARN"
  | info => "INFO"
  | debug => "DEBUG"
  | trace => "TRACE"

def Level.rank : Level → Nat
  | error => 1
  | warn => 2
  | info => 3
  | debug => 4
  | trace => 5

inductive Source
  | connection
  | schema
  | registry
  | context
  | worker
  | startup
  | server
  deriving DecidableEq, Repr

def Source.path : Source → String
  | connection => "db::connection"
  | schema => "db::schema"
  | registry => "workers::registry"
  | context => "workers::context"
  | worker => "workers::worker"
  | startup => "jobs_server::init"
  | server => "jobs_server"

end Log

/-- One attempt at a job, as its handler and its log entries see it. -/
structure Context where
  jobId : String
  jobType : String
  workerId : Nat
  attempt : UInt32
  deriving DecidableEq, Repr

namespace Log

structure Entry where
  level : Level
  source : Source
  message : String
  fields : List (String × String) := []
  /-- The fields that tell times, which a line ends with. -/
  times : List (String × String) := []
  span : Option Context := none
  deriving DecidableEq, Repr

def Entry.info (source : Source) (message : String) : Entry :=
  { level := .info, source, message }

end Log

end JobQueue
