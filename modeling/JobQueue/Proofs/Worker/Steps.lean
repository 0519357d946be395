import JobQueue.Worker

/-!
# What a worker can do

All that can come of taking a record up, of reading a claimed one, and of an answer of the store:
`begun`, `dispatched` and `called` say it once, and what holds along a run follows case by case.
-/

namespace JobQueue.Worker

open Time (Instant)

variable {σ η : Type}

abbrev upToClaim : List Event :=
  [.entered .validating, .entered .reservationCheck, .entered .reserving]

inductive Begun (w : Worker) (now : Instant) (copy : Record) : Progress η → Prop
  | invalid {e : ValidationError} (refused : Record.validate (some copy) = .error e) :
      Begun w now copy (finish (.error (.validation e)) [.entered .validating])
  | held {since : Instant} (valid : Record.validate (some copy) = .ok copy)
      (reserved : copy.reservedAt = some since)
      (within : copy.isReservedWithin now w.window = true) :
      Begun w now copy (finish (.error (.alreadyReserved copy.id since))
        [.entered .validating, .entered .reservationCheck, .logged (w.reservedEntry copy since)])
  | claiming (valid : Record.validate (some copy) = .ok copy)
      (free : copy.isReservedWithin now w.window = false) :
      Begun w now copy (.claiming copy now, upToClaim)

theorem begun (w : Worker) (now : Instant) (copy : Record) :
    Begun w now copy (w.begin now copy : Progress η) := by
  unfold begin
  split
  · next e refused => exact .invalid refused
  · next r passed =>
    obtain rfl := (Record.validate_eq_ok_iff.mp passed).1
    split
    · next since reserved =>
      split
      · next within => exact .held passed reserved within
      · next free => exact .claiming passed (Bool.not_eq_true _ ▸ free)
    · next free => exact .claiming passed (by simp [Record.isReservedWithin, free])

inductive Dispatched (w : Worker) (handler? : String → Option η) (record : Record) :
    Progress η → Prop
  | unread {fault : JobFault} (unread : Job.ofRecord (some record) = .error fault) :
      Dispatched w handler? record
        (.failing record (.ofJobFault fault), [.entered .parsing, .entered .failing])
  | unhandled {job : Job} (read : Job.ofRecord (some record) = .ok job)
      (missing : handler? job.jobType = none) :
      Dispatched w handler? record (.failing record (.handlerNotFound job.jobType),
        [.entered .parsing, .entered .dispatching, .entered .failing])
  | handled {job : Job} {handler : η} (read : Job.ofRecord (some record) = .ok job)
      (found : handler? job.jobType = some handler) :
      Dispatched w handler? record (.handling record (.ofJob job w.id) job handler,
        [.entered .parsing, .entered .dispatching, .logged (Context.ofJob job w.id).started,
          .invoked (.ofJob job w.id) job])

theorem dispatched (w : Worker) (handler? : String → Option η) (record : Record) :
    Dispatched w handler? record (w.dispatch handler? record) := by
  unfold dispatch
  split
  · next fault unread => exact .unread unread
  · next job read =>
    split
    · next missing => exact .unhandled read missing
    · next handler found => exact .handled read found

inductive Called [RecordStore σ] (w : Worker) (handler? : String → Option η) (now : Instant)
    (store : σ) : Stage η → Progress η → Prop
  | unclaimed {record : Record} {time : Instant} {e : StoreError}
      (answer : (RecordStore.answer now (.reserve record.id record.reservedAt time) store).1 =
        .error e) :
      Called w handler? now store (.claiming record time) (finish (.error (.reservation e)) [])
  | beaten {record : Record} {time : Instant}
      (answer : (RecordStore.answer now (.reserve record.id record.reservedAt time) store).1 =
        .ok false) :
      Called w handler? now store (.claiming record time) (.losing record time, [])
  | claimed {record : Record} {time : Instant}
      (answer : (RecordStore.answer now (.reserve record.id record.reservedAt time) store).1 =
        .ok true) :
      Called w handler? now store (.claiming record time)
        (w.dispatch handler? (record.reserve time))
  | lost {record : Record} {time : Instant} :
      Called w handler? now store (.losing record time)
        (w.onCurrent record time (RecordStore.answer now (.get record.id) store).1)
  | deleted {record : Record} (answer : (RecordStore.answer now (.delete record.id) store).1 =
        .ok ()) :
      Called w handler? now store (.completing record) (finish (.ok ()) [])
  | undeleted {record : Record} {e : StoreError}
      (answer : (RecordStore.answer now (.delete record.id) store).1 = .error e) :
      Called w handler? now store (.completing record) (finish (.error (.completion e)) [])
  | counted {record updated : Record} {cause : JobError}
      (answer : (RecordStore.answer now (.recordFailure record.id now) store).1 = .ok updated) :
      Called w handler? now store (.failing record cause)
        (finish (.error cause) [.logged (w.failedEntry record updated cause)])
  | uncounted {record : Record} {cause : JobError} {e : StoreError}
      (answer : (RecordStore.answer now (.recordFailure record.id now) store).1 = .error e) :
      Called w handler? now store (.failing record cause)
        (finish (.error (.failurePersistence cause.message e))
          [.logged (w.unrecordedEntry record cause e)])

theorem called [RecordStore σ] (w : Worker) (handler? : String → Option η) (now : Instant)
    {stage : Stage η} (store : σ) (asks : stage.asksStore = true) :
    Called w handler? now store stage (w.call handler? now stage store).1 := by
  cases stage with
  | claiming record time =>
    simp only [call]
    cases answer : (RecordStore.answer now (.reserve record.id record.reservedAt time) store).1 with
    | error e => exact .unclaimed answer
    | ok claimed =>
      cases claimed with
      | false => exact .beaten answer
      | true => exact .claimed answer
  | losing record time => exact .lost
  | handling => cases asks
  | completing record =>
    simp only [call]
    cases answer : (RecordStore.answer now (.delete record.id) store).1 with
    | error e => exact .undeleted answer
    | ok _ => exact .deleted answer
  | failing record cause =>
    simp only [call]
    cases answer : (RecordStore.answer now (.recordFailure record.id now) store).1 with
    | error e => exact .uncounted answer
    | ok updated => exact .counted answer
  | done => cases asks

end JobQueue.Worker
