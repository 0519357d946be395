import JobQueue.Job
import JobQueue.Proofs.Json.RoundTrip

/-!
# What a producer's payload comes to

A record holds its payload as a text. The job that is read from the record has the payload that the
producer gave, if that is exact and not nested too deep; all else that a job has is told by the
payload and the record.
-/

namespace JobQueue

open Time (Instant)
open Json (Object Value)

variable {v : Value} {r : Record} {o : Object} {id : String} {job : Job} {e : ParseError}

/-- Whether a payload names a type for its job: it is an object whose `type` is a text that is not
blank. -/
structure Json.Value.Names (v : Value) (type : String) : Prop where
  field : v.get? "type" = some (.string type)
  seen : ∃ c ∈ type.toList, Text.isBlank c = false

theorem Text.trim_ne_empty_iff {s : String} :
    Text.trim s ≠ "" ↔ ∃ c ∈ s.toList, Text.isBlank c = false := by
  rw [Ne, Text.trim_eq_empty_iff, Text.blank]
  simp

theorem Json.Object.string?_eq_some_iff {key text : String} :
    o.string? key = some text ↔ o.get? key = some (.string text) := by
  rw [Object.string?, Option.bind_eq_some_iff]
  constructor
  · rintro ⟨v, field, is⟩
    cases v with
    | string s => exact Option.some.inj is ▸ field
    | _ => cases is
  · exact fun field => ⟨_, field, rfl⟩

theorem Json.Object.jobType?_eq_some_iff {jobType : String} : o.jobType? = some jobType ↔
    ∃ type, (Value.object o).Names type ∧ jobType = Text.trim type := by
  simp only [Object.jobType?, Option.filter_eq_some_iff, Option.map_eq_some_iff, decide_eq_true_eq]
  constructor
  · rintro ⟨⟨type, text, rfl⟩, left⟩
    exact ⟨type, ⟨string?_eq_some_iff.mp text, Text.trim_ne_empty_iff.mp left⟩, rfl⟩
  · rintro ⟨type, ⟨field, seen⟩, rfl⟩
    exact ⟨⟨type, string?_eq_some_iff.mpr field, rfl⟩, Text.trim_ne_empty_iff.mpr seen⟩

structure Job.IsOf (job : Job) (v : Value) (r : Record) : Prop where
  payload : v = .object job.payload
  jobType : ∃ type, v.Names type ∧ job.jobType = Text.trim type
  /-- Without a text for its name a job is named as its type. -/
  name : job.name = ((v.get? "name").bind Value.string?).getD job.jobType
  description : job.description = ((v.get? "description").bind Value.string?).getD ""
  id : job.id = r.id
  attempts : job.attempts = r.attempts
  reservedAt : job.reservedAt = r.reservedAt
  createdAt : job.createdAt = r.createdAt
  updatedAt : job.updatedAt = r.updatedAt

namespace Record

theorem isOf_jobOf {type : String} (names : (Value.object o).Names type) :
    (r.jobOf o (Text.trim type)).IsOf (.object o) r :=
  ⟨rfl, ⟨type, names, rfl⟩, rfl, rfl, rfl, rfl, rfl, rfl, rfl⟩

inductive Parses (v : Value) (r : Record) : Except ParseError Job → Prop
  | notAnObject (other : v.object? = none) : Parses v r (.error .notAnObject)
  | missingType (nameless : ∀ type, ¬v.Names type) (isObject : v.object?.isSome) :
      Parses v r (.error .missingType)
  | job {job : Job} (isOf : job.IsOf v r) : Parses v r (.ok job)

theorem parses_parseJob (holds : Value.ofText? r.payload = .ok v) : Parses v r r.parseJob := by
  rw [parseJob, payloadObject, holds]
  cases v with
  | object o =>
    dsimp only
    cases its : Object.jobType? o with
    | none =>
      refine .missingType (fun type names => ?_) rfl
      have some_ := Object.jobType?_eq_some_iff.mpr ⟨type, names, rfl⟩
      rw [its] at some_
      cases some_
    | some jobType =>
      obtain ⟨type, names, rfl⟩ := Object.jobType?_eq_some_iff.mp its
      exact .job (isOf_jobOf names)
  | _ => exact .notAnObject rfl

end Record

/-- What a producer puts in a new record, the reader of the record finds again: there is a job
exactly if the payload names a type, and the job has the payload as it was given. -/
theorem Job.ofRecord_ofPayload (named : Text.blank id = false) (exact_ : v.IsExact)
    (deep : v.depth ≤ 127) (now : Instant) :
    ((∃ job, Job.ofRecord (some (.ofPayload id v now)) = .ok job) ↔ ∃ type, v.Names type) ∧
    (∀ job, Job.ofRecord (some (.ofPayload id v now)) = .ok job →
      job.IsOf v (.ofPayload id v now)) ∧
    ∀ fault, Job.ofRecord (some (.ofPayload id v now)) = .error fault →
      fault = .parse (if v.object?.isSome then .missingType else .notAnObject) := by
  have valid : Record.validate (some (.ofPayload id v now)) = .ok (.ofPayload id v now) :=
    Record.validate_eq_ok_iff.mpr ⟨rfl, named, rfl⟩
  have parses : Record.Parses v (.ofPayload id v now) (Record.ofPayload id v now).parseJob :=
    Record.parses_parseJob (Value.ofText?_text exact_ deep)
  rw [Job.ofRecord_of_valid valid]
  generalize (Record.ofPayload id v now).parseJob = result at parses
  cases parses with
  | notAnObject other =>
    have nameless (type : String) : ¬v.Names type := fun names => by
      simpa [Value.get?, other] using names.field
    simp [Except.mapError, other, nameless]
  | missingType nameless isObject =>
    simp [Except.mapError, isObject, nameless]
  | job isOf =>
    obtain ⟨type, names, -⟩ := isOf.jobType
    refine ⟨⟨fun _ => ⟨type, names⟩, fun _ => ⟨_, rfl⟩⟩, fun job same => ?_, fun _ fails => ?_⟩
    · exact Except.ok.inj same ▸ isOf
    · cases fails

/-- A letter with the greatest and the least numbers, and a name with a quote and a line feed. -/
def thornyLetter : Object :=
  [("to", .array [.null, .bool true, .number (.whole 0xFFFFFFFFFFFFFFFF)]),
   ("type", .string "\u2003letter\t"),
   ("name", .string "\"é\"\n\x01\\"),
   ("", .object [("n", .number (.whole (-0x8000000000000000))), ("o", .object [])])]

theorem Job.ofRecord_ofPayload_thorny :
    Text.blank "a" = false ∧ (Value.object thornyLetter).IsExact ∧
      (Value.object thornyLetter).depth ≤ 127 ∧
    ∃ job, Job.ofRecord (some (.ofPayload "a" (.object thornyLetter) .epoch)) = .ok job ∧
      job.payload = thornyLetter ∧ job.jobType = "letter" ∧ job.name = "\"é\"\n\x01\\" := by
  have named : Text.blank "a" = false := by decide +kernel
  have exact_ : (Value.object thornyLetter).IsExact := by
    have receivers :
        (Value.array [.null, .bool true, .number (.whole 0xFFFFFFFFFFFFFFFF)]).IsExact := by
      refine .array ?_
      simp only [List.forall_mem_cons]
      exact ⟨.null, .bool true, .whole (by decide), by simp⟩
    have limits : (Value.object
        [("n", .number (.whole (-0x8000000000000000))), ("o", .object [])]).IsExact := by
      refine .object (by decide) ?_
      simp only [List.forall_mem_cons]
      exact ⟨.whole (by decide), .object (by decide) (by simp), by simp⟩
    refine .object (by decide +kernel) ?_
    simp only [thornyLetter, List.forall_mem_cons]
    exact ⟨receivers, .string _, .string _, limits, by simp⟩
  have deep : (Value.object thornyLetter).depth ≤ 127 := by decide +kernel
  have names : (Value.object thornyLetter).Names "\u2003letter\t" :=
    ⟨rfl, ⟨'l', by decide +kernel, by decide +kernel⟩⟩
  refine ⟨named, exact_, deep, ?_⟩
  obtain ⟨iff_, isOf, -⟩ := Job.ofRecord_ofPayload named exact_ deep .epoch
  obtain ⟨job, reads⟩ := iff_.mpr ⟨_, names⟩
  have its := isOf job reads
  obtain ⟨type, found, jobType⟩ := its.jobType
  obtain rfl : "\u2003letter\t" = type :=
    Value.string.inj (Option.some.inj (names.field.symm.trans found.field))
  refine ⟨job, reads, (Value.object.inj its.payload).symm, ?_, its.name⟩
  rw [jobType]
  decide +kernel

end JobQueue
