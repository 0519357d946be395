import JobQueue.Pool.Collection
import JobQueue.ProcessorError
import JobQueue.Settings
import JobQueue.Worker

/-!
A pool of workers between two moves. Records wait in a queue for a free worker, reports wait
among the results for the batch whose turn it is; both hold two for each worker. Batches take
turns in the order of their submission. A batch has a feeder, which brings its records into the
queue one by one, and a collection for its results. What the records are stored in is no part of
the pool: several pools may share it.
-/

namespace JobQueue

structure Assignment where
  batch : Nat
  record : Record
  deriving DecidableEq, Repr

/-- What a feeder holds: a record for the queue, or the report of one that it did not get rid
of. -/
inductive Load
  | record (record : Record)
  | report (report : Report)
  deriving DecidableEq, Repr

structure Feeder where
  batch : Nat
  load : Load
  rest : List Record
  deriving DecidableEq, Repr

def Feeder.ofRecords? (batch : Nat) : List Record → Option Feeder
  | [] => none
  | record :: rest => some ⟨batch, .record record, rest⟩

/-- A batch that waits for its turn. The ticket tells its caller. -/
structure Submission where
  ticket : Nat
  records : List Record
  deriving DecidableEq, Repr

structure Turn where
  ticket : Nat
  collection : Collection
  feeder : Option Feeder
  deriving DecidableEq, Repr

/-- A worker of a pool. While it works it is busy; a worker that has left does not come back. -/
inductive Seat (σ : Type)
  | free
  | working (batch : Nat) (jobId : String) (stage : Worker.Stage (Handler σ))
      (plan : List (Action σ))
  | reporting (report : Report)
  | left

namespace Seat

variable {σ : Type}

def isBusy : Seat σ → Bool
  | working _ _ _ _ => true
  | _ => false

def hasLeft : Seat σ → Bool
  | left => true
  | _ => false

def ofStage (batch : Nat) (jobId : String) : Worker.Stage (Handler σ) → Seat σ
  | .done outcome => reporting ⟨batch, jobId, outcome⟩
  | .handling record context job handler =>
    working batch jobId (.handling record context job handler) (handler.plan context job)
  | stage => working batch jobId stage []

end Seat

/-- How far the shutdown of a pool is: the first call to shut it down waits for the workers, up
to its deadline. -/
inductive Closing
  | notAsked
  | draining
  | over
  deriving DecidableEq, Repr

structure Pool (σ : Type) where
  settings : Settings
  registry : Registry (Handler σ)
  accepting : Bool
  closing : Closing
  /-- Whether the workers are to leave before their next record. -/
  stopping : Bool
  nextBatch : Nat
  queue : List Assignment
  results : List Report
  seats : List (Seat σ)
  line : List Submission
  turn : Option Turn

structure PoolStats where
  workers : Nat
  busyWorkers : Nat
  jobCapacity : Nat
  queuedJobs : Nat
  resultCapacity : Nat
  pendingResults : Nat
  closed : Bool
  deriving DecidableEq, Repr

namespace Pool

variable {σ : Type}

def start (settings : Settings) (registry : Registry (Handler σ)) : Pool σ :=
  { settings
    registry
    accepting := true
    closing := .notAsked
    stopping := false
    nextBatch := 0
    queue := []
    results := []
    seats := List.replicate settings.workerCount .free
    line := []
    turn := none }

def capacity (p : Pool σ) : Nat := p.settings.workerCount * 2

def busyCount (p : Pool σ) : Nat := p.seats.countP Seat.isBusy

def isEmpty (p : Pool σ) : Bool := p.seats.all Seat.hasLeft

def feeder? (p : Pool σ) : Option Feeder := p.turn.bind Turn.feeder

/-- Whether no record will ever come into the queue again. -/
def isFed (p : Pool σ) : Bool := !p.accepting && p.feeder?.isNone

def worker (p : Pool σ) (seat : Nat) : Worker := ⟨seat, p.settings.reservationWindow⟩

/-- The pool as diagnostics show it. The queue of a closed pool counts as empty. -/
def stats (p : Pool σ) : PoolStats :=
  { workers := p.settings.workerCount
    busyWorkers := p.busyCount
    jobCapacity := p.capacity
    queuedJobs := if p.accepting then p.queue.length else 0
    resultCapacity := p.capacity
    pendingResults := p.results.length
    closed := !p.accepting }

end Pool

end JobQueue
