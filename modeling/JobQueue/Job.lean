import JobQueue.Json.Reader
import JobQueue.Json.Printer
import JobQueue.Record
import JobQueue.Text.Blank

/-!
Jobs: what a handler is given to work on. A job is read from a record. The record has to be
present, to have an identifier that is not blank and to come from the queue collection; its
payload has to be the text of a JSON object that names a job type.
-/

namespace JobQueue

open Time (Instant)

inductive ValidationError
  | missingRecord
  | missingId
  | wrongCollection (found : String)
  deriving DecidableEq, Repr

def ValidationError.message : ValidationError → String
  | missingRecord => "queue record is missing"
  | missingId => "queue record has no identifier"
  | wrongCollection found =>
    s!"record belongs to collection '{found}', expected '{queueCollection}'"

inductive ParseError
  | invalidPayload (fault : Json.Fault) (payload : String)
  | notAnObject
  | missingType
  deriving DecidableEq, Repr

def ParseError.message : ParseError → String
  | invalidPayload fault payload => s!"payload is not valid JSON: {fault.message payload}"
  | notAnObject => "payload must be a JSON object"
  | missingType => "payload has no job type"

inductive JobFault
  | validation (e : ValidationError)
  | parse (e : ParseError)
  deriving DecidableEq, Repr

def JobFault.message : JobFault → String
  | validation e => e.message
  | parse e => e.message

structure Job where
  id : String
  name : String
  description : String
  jobType : String
  payload : Json.Object
  attempts : UInt32
  reservedAt : Option Instant
  createdAt : Instant
  updatedAt : Instant
  deriving Repr

namespace Json.Object

def string? (o : Object) (key : String) : Option String :=
  (o.get? key).bind Value.string?

/-- The job type that a payload names: its `type` without blanks around it, unless that leaves
nothing. -/
def jobType? (o : Object) : Option String :=
  ((o.string? "type").map Text.trim).filter (· ≠ "")

end Json.Object

namespace Record

def ofPayload (id : String) (payload : Json.Value) (now : Instant) : Record :=
  ofParts id queueCollection payload.text now

def validate (record? : Option Record) : Except ValidationError Record :=
  match record? with
  | none => .error .missingRecord
  | some r =>
    if Text.blank r.id then .error .missingId
    else if r.collection ≠ queueCollection then .error (.wrongCollection r.collection)
    else .ok r

theorem validate_eq_ok_iff {r valid : Record} : validate (some r) = .ok valid ↔
    r = valid ∧ Text.blank r.id = false ∧ r.collection = queueCollection := by
  simp only [validate]
  split
  · simp [*]
  · split <;> simp_all

theorem validate_reserve_map (r : Record) (time : Instant) :
    validate (some (r.reserve time)) = (validate (some r)).map fun r => r.reserve time := by
  by_cases blank : Text.blank r.id
  · simp [validate, reserve, blank, Except.map]
  · by_cases foreign : r.collection = queueCollection <;>
      simp [validate, reserve, blank, foreign, Except.map]

theorem validate_reserve {r : Record} (time : Instant) (valid : validate (some r) = .ok r) :
    validate (some (r.reserve time)) = .ok (r.reserve time) := by
  rw [validate_reserve_map, valid]
  rfl

def payloadObject (r : Record) : Except ParseError Json.Object :=
  match Json.Value.ofText? r.payload with
  | .error fault => .error (.invalidPayload fault r.payload)
  | .ok (.object o) => .ok o
  | .ok _ => .error .notAnObject

def jobOf (r : Record) (payload : Json.Object) (jobType : String) : Job :=
  { id := r.id
    name := (payload.string? "name").getD jobType
    description := (payload.string? "description").getD ""
    jobType
    payload
    attempts := r.attempts
    reservedAt := r.reservedAt
    createdAt := r.createdAt
    updatedAt := r.updatedAt }

def parseJob (r : Record) : Except ParseError Job :=
  match r.payloadObject with
  | .error e => .error e
  | .ok payload =>
    match payload.jobType? with
    | none => .error .missingType
    | some jobType => .ok (r.jobOf payload jobType)

theorem parseJob_reserve (r : Record) (time : Instant) : (r.reserve time).parseJob =
    r.parseJob.map fun job => { job with reservedAt := some time, updatedAt := time } := by
  have object : (r.reserve time).payloadObject = r.payloadObject := rfl
  unfold parseJob
  rw [object]
  cases r.payloadObject with
  | error e => rfl
  | ok payload =>
    dsimp only
    cases payload.jobType? <;> rfl

end Record

def Job.ofRecord (record? : Option Record) : Except JobFault Job :=
  match Record.validate record? with
  | .error e => .error (.validation e)
  | .ok r =>
    match r.parseJob with
    | .error e => .error (.parse e)
    | .ok job => .ok job

/-- A record that passed its check once can only fail to be read. -/
theorem Job.ofRecord_of_valid {r : Record} (valid : Record.validate (some r) = .ok r) :
    Job.ofRecord (some r) = r.parseJob.mapError .parse := by
  unfold Job.ofRecord
  rw [valid]
  dsimp only
  cases r.parseJob <;> rfl

theorem Job.ofRecord_eq_ok_iff {r : Record} {job : Job} : Job.ofRecord (some r) = .ok job ↔
    Record.validate (some r) = .ok r ∧ r.parseJob = .ok job := by
  cases valid : Record.validate (some r) with
  | error e => simp [Job.ofRecord, valid]
  | ok passed =>
    obtain rfl := (Record.validate_eq_ok_iff.mp valid).1
    rw [Job.ofRecord_of_valid valid]
    cases r.parseJob with
    | error e => exact ⟨nofun, fun h => nomatch h.2⟩
    | ok found =>
      exact ⟨fun same => ⟨rfl, congrArg _ (Except.ok.inj same)⟩,
        fun h => congrArg _ (Except.ok.inj h.2)⟩

/-- A claim changes nothing of a job but its stamps. -/
theorem Job.ofRecord_reserve (r : Record) (time : Instant) : Job.ofRecord (some (r.reserve time)) =
    (Job.ofRecord (some r)).map fun job =>
      { job with reservedAt := some time, updatedAt := time } := by
  unfold Job.ofRecord
  rw [Record.validate_reserve_map]
  cases Record.validate (some r) with
  | error e => rfl
  | ok passed =>
    simp only [Except.map, Record.parseJob_reserve]
    cases passed.parseJob <;> rfl

def Job.get? (job : Job) (key : String) : Option Json.Value :=
  job.payload.get? key

def Job.string? (job : Job) (key : String) : Option String :=
  job.payload.string? key

end JobQueue
