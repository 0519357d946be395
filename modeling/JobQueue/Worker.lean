import JobQueue.Context
import JobQueue.JobError
import JobQueue.Handler

/-!
A worker takes one record through its attempt. The record is checked, claimed, read as a job and
handed to the handler of its type; after success it is deleted, after a failure the failure is
counted and the record given free. `Stage` says what the worker waits for next. Each stage ends
with one answer of the store, or with the handler's verdict, so runs can be interleaved between
any two of them; the worker itself keeps nothing between records.
-/

namespace JobQueue

open Time (Instant Span)

inductive WorkerState
  | idle
  | validating
  | reservationCheck
  | reserving
  | parsing
  | dispatching
  | completing
  | failing
  deriving DecidableEq, Repr

def WorkerState.name : WorkerState → String
  | idle => "idle"
  | validating => "validating"
  | reservationCheck => "reservation_check"
  | reserving => "reserving"
  | parsing => "parsing"
  | dispatching => "dispatching"
  | completing => "completing"
  | failing => "failing"

/-- A worker of a pool, and how long a reservation counts for it. -/
structure Worker where
  id : Nat
  window : Span
  deriving DecidableEq, Repr

namespace Worker

inductive Event
  | entered (state : WorkerState)
  | logged (entry : Log.Entry)
  | invoked (context : Context) (job : Job)
  deriving Repr

/-- Where a run is, by what it waits for. The handler that an attempt was handed to is of the
type `η`. -/
inductive Stage (η : Type)
  /-- The answer to the claim made at `time`. -/
  | claiming (record : Record) (time : Instant)
  /-- What is stored of a record that another worker claimed before. -/
  | losing (record : Record) (time : Instant)
  /-- The handler's verdict. -/
  | handling (record : Record) (context : Context) (job : Job) (handler : η)
  /-- The deletion of a record whose job succeeded. -/
  | completing (record : Record)
  /-- The count of a failure. -/
  | failing (record : Record) (cause : JobError)
  /-- Nothing: the run is over. -/
  | done (outcome : Outcome)

variable {η : Type}

abbrev Progress (η : Type) := Stage η × List Event

def finish (outcome : Outcome) (seen : List Event) : Progress η :=
  (.done outcome, seen ++ [.entered .idle])

def reservedEntry (w : Worker) (record : Record) (since : Instant) : Log.Entry :=
  { level := .warn, source := .worker, message := "Job is already reserved",
    fields := [("job_id", record.id), ("worker_id", toString w.id)],
    times := [("reserved_at", since.display)] }

def lostEntry (w : Worker) (record : Record) : Log.Entry :=
  { level := .warn, source := .worker, message := "Lost reservation race",
    fields := [("job_id", record.id), ("worker_id", toString w.id)] }

def panicEntry (c : Context) (text : String) : Log.Entry :=
  { level := .error, source := .worker, message := s!"Handler panicked: {text}",
    fields := [("job_id", c.jobId), ("job_type", c.jobType), ("worker_id", toString c.workerId)] }

def failedEntry (w : Worker) (record updated : Record) (cause : JobError) : Log.Entry :=
  { level := .info, source := .worker, message := s!"Job failed: {cause.message}",
    fields := [("job_id", record.id), ("worker_id", toString w.id),
      ("attempts", toString updated.attempts.toNat)] }

def unrecordedEntry (w : Worker) (record : Record) (cause : JobError) (source : StoreError) :
    Log.Entry :=
  { level := .error, source := .worker,
    message := s!"Failed to persist job failure ({cause.message}): {source.message}",
    fields := [("job_id", record.id), ("worker_id", toString w.id)] }

/-- Takes a record up at `now`: up to its claim, unless the record is not valid or held by a
reservation within the window. -/
def begin (w : Worker) (now : Instant) (record : Record) : Progress η :=
  match Record.validate (some record) with
  | .error e => finish (.error (.validation e)) [.entered .validating]
  | .ok _ =>
    match record.reservedAt with
    | some since =>
      if record.isReservedWithin now w.window then
        finish (.error (.alreadyReserved record.id since))
          [.entered .validating, .entered .reservationCheck, .logged (w.reservedEntry record since)]
      else
        (.claiming record now,
          [.entered .validating, .entered .reservationCheck, .entered .reserving])
    | none =>
      (.claiming record now,
        [.entered .validating, .entered .reservationCheck, .entered .reserving])

def dispatch (w : Worker) (handler? : String → Option η) (record : Record) : Progress η :=
  match Job.ofRecord (some record) with
  | .error fault =>
    (.failing record (.ofJobFault fault), [.entered .parsing, .entered .failing])
  | .ok job =>
    match handler? job.jobType with
    | none =>
      (.failing record (.handlerNotFound job.jobType),
        [.entered .parsing, .entered .dispatching, .entered .failing])
    | some handler =>
      let context := Context.ofJob job w.id
      (.handling record context job handler,
        [.entered .parsing, .entered .dispatching, .logged context.started,
         .invoked context job])

def onReserved (w : Worker) (handler? : String → Option η) (record : Record) (time : Instant) :
    Except StoreError Bool → Progress η
  | .error e => finish (.error (.reservation e)) []
  | .ok false => (.losing record time, [])
  | .ok true => w.dispatch handler? (record.reserve time)

/-- Ends a run that lost its claim, with the reservation that is stored now, if one is. -/
def onCurrent (w : Worker) (record : Record) (time : Instant)
    (current : Except StoreError (Option Record)) : Progress η :=
  -- whoever was faster may have finished already; then this run's own time stands in
  let since :=
    match current with
    | .ok (some stored) => stored.reservedAt.getD time
    | _ => time
  finish (.error (.alreadyReserved record.id since)) [.logged (w.lostEntry record)]

def onVerdict (record : Record) (context : Context) : Verdict → Progress η
  | .succeeded => (.completing record, [.logged context.ended, .entered .completing])
  | .failed text =>
    let cause := JobError.handler text
    (.failing record cause, [.logged (context.failed cause.message), .entered .failing])
  | .panicked text? =>
    let text := text?.getD unknownPanic
    (.failing record (.handlerPanicked text),
      [.logged (panicEntry context text), .entered .failing])

def onDeleted : Except StoreError Unit → Progress η
  | .ok () => finish (.ok ()) []
  | .error e => finish (.error (.completion e)) []

def onFailureRecorded (w : Worker) (record : Record) (cause : JobError) :
    Except StoreError Record → Progress η
  | .ok updated => finish (.error cause) [.logged (w.failedEntry record updated cause)]
  | .error e =>
    finish (.error (.failurePersistence cause.message e))
      [.logged (w.unrecordedEntry record cause e)]

/-- Asks the store what the stage waits for, and goes on with its answer. Nothing happens in a
stage that asks nothing. -/
def call {σ : Type} [RecordStore σ] (w : Worker) (handler? : String → Option η) (now : Instant)
    (stage : Stage η) (store : σ) : Progress η × σ :=
  match stage with
  | .claiming record time =>
    let (answer, store) :=
      RecordStore.answer now (.reserve record.id record.reservedAt time) store
    (w.onReserved handler? record time answer, store)
  | .losing record time =>
    let (answer, store) := RecordStore.answer now (.get record.id) store
    (w.onCurrent record time answer, store)
  | .completing record =>
    let (answer, store) := RecordStore.answer now (.delete record.id) store
    (onDeleted answer, store)
  | .failing record cause =>
    let (answer, store) := RecordStore.answer now (.recordFailure record.id now) store
    (w.onFailureRecorded record cause answer, store)
  | .handling record context job handler => ((.handling record context job handler, []), store)
  | .done outcome => ((.done outcome, []), store)

def Stage.stepsLeft : Stage η → Nat
  | claiming _ _ => 3
  | handling _ _ _ _ => 2
  | losing _ _ | completing _ | failing _ _ => 1
  | done _ => 0

def Stage.asksStore : Stage η → Bool
  | handling _ _ _ _ | done _ => false
  | _ => true

theorem stepsLeft_dispatch_le (w : Worker) (handler? : String → Option η) (record : Record) :
    (w.dispatch handler? record).1.stepsLeft ≤ 2 := by
  unfold dispatch
  split
  · simp [Stage.stepsLeft]
  · split <;> simp [Stage.stepsLeft]

theorem stepsLeft_call_lt {σ : Type} [RecordStore σ] (w : Worker) (handler? : String → Option η)
    (now : Instant) (stage : Stage η) (store : σ) (h : stage.asksStore = true) :
    (w.call handler? now stage store).1.1.stepsLeft < stage.stepsLeft := by
  cases stage with
  | claiming record time =>
    simp only [call]
    cases (RecordStore.answer now (.reserve record.id record.reservedAt time) store).1 with
    | error e => simp [onReserved, finish, Stage.stepsLeft]
    | ok claimed =>
      cases claimed with
      | false => simp [onReserved, Stage.stepsLeft]
      | true => exact Nat.lt_succ_of_le (stepsLeft_dispatch_le w handler? _)
  | losing record time => simp [call, onCurrent, finish, Stage.stepsLeft]
  | handling record context job handler => exact absurd h (by simp [Stage.asksStore])
  | completing record =>
    simp only [call]
    cases (RecordStore.answer now (.delete record.id) store).1 <;>
      simp [onDeleted, finish, Stage.stepsLeft]
  | failing record cause =>
    simp only [call]
    cases (RecordStore.answer now (.recordFailure record.id now) store).1 <;>
      simp [onFailureRecorded, finish, Stage.stepsLeft]
  | done outcome => exact absurd h (by simp [Stage.asksStore])

theorem stepsLeft_onVerdict (record : Record) (context : Context) (verdict : Verdict) :
    (onVerdict record context verdict : Progress η).1.stepsLeft = 1 := by
  cases verdict <;> rfl

end Worker

end JobQueue
