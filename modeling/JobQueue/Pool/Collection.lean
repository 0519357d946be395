import JobQueue.JobError
import JobQueue.Keyed
import JobQueue.Record

/-!
How a batch collects its results. A batch has one slot for each record, in order, and keeps for
each job which of its slots are open. A report closes the next open slot of its job, a wait that
runs out closes the first open slot of all; what belongs to another batch, or comes too late, is
dropped.
-/

namespace JobQueue

structure JobOutcome where
  jobId : String
  outcome : Outcome
  deriving DecidableEq, Repr

def JobOutcome.isOk (o : JobOutcome) : Bool :=
  match o.outcome with
  | .ok () => true
  | .error _ => false

/-- The outcome of a record, on its way to the batch that it belongs to. -/
structure Report where
  batch : Nat
  jobId : String
  outcome : Outcome
  deriving DecidableEq, Repr

/-- The slots of a job that wait for its outcomes, the next one first. -/
structure Pending where
  jobId : String
  slots : List Nat
  deriving DecidableEq, Repr

namespace Pending

def slotsOf (pending : Keyed Pending jobId) (id : String) : List Nat :=
  (pending.find? id).elim [] slots

def add (pending : Keyed Pending jobId) (id : String) (slot : Nat) : Keyed Pending jobId :=
  pending.put ⟨id, slotsOf pending id ++ [slot]⟩

def ofJobIds (jobIds : List String) : Keyed Pending jobId :=
  jobIds.zipIdx.foldl (fun pending (id, slot) => add pending id slot) .empty

end Pending

/-- A batch that collects its results. An open slot has no outcome. -/
structure Collection where
  batch : Nat
  jobIds : List String
  pending : Keyed Pending Pending.jobId
  slots : List (Option Outcome)
  /-- How many slots are open. -/
  remaining : Nat
  deriving DecidableEq, Repr

namespace Collection

def ofRecords (batch : Nat) (records : List Record) : Collection :=
  let jobIds := records.map Record.id
  { batch
    jobIds
    pending := Pending.ofJobIds jobIds
    slots := jobIds.map fun _ => none
    remaining := jobIds.length }

def receive (c : Collection) (r : Report) : Collection :=
  if r.batch ≠ c.batch then c
  else
    match Pending.slotsOf c.pending r.jobId with
    | slot :: rest =>
      { c with
        pending := c.pending.put ⟨r.jobId, rest⟩
        slots := c.slots.set slot (some r.outcome)
        remaining := c.remaining - 1 }
    | [] => c

def expire? (c : Collection) : Option Collection :=
  (c.slots.findIdx? Option.isNone).map fun slot =>
    { c with
      pending :=
        match (c.jobIds[slot]?).bind c.pending.find? with
        | some waiting => c.pending.put { waiting with slots := waiting.slots.filter (· ≠ slot) }
        | none => c.pending
      slots := c.slots.set slot (some (.error .resultTimeout))
      remaining := c.remaining - 1 }

def isComplete (c : Collection) : Bool := c.remaining = 0

/-- The outcomes in order; a slot that is still open counts as one of a closed pool. -/
def outcomes (c : Collection) : List JobOutcome :=
  c.jobIds.zipWith (fun id slot => ⟨id, slot.getD (.error .poolClosed)⟩) c.slots

end Collection

end JobQueue
