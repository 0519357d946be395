import JobQueue.Proofs.Shift.Solo
import JobQueue.Proofs.Store.Memory
import Mathlib.Data.List.Forall2

/-!
# What becomes of a record

How a run ends is known at each of its stages, if nobody else touches its record: `Stage.fate` says
it for the store in memory, with the record that is left. What a run does keeps its fate, up to
readings of the clock (`fate_call`, `fate_onVerdict`), and which worker begins, and when, makes no
other difference either (`fate_begin`).
-/

namespace JobQueue

open Time (Instant)

-- ---------------------------------------------------------------------------
-- Up to readings of the clock
-- ---------------------------------------------------------------------------

variable {times : Instant → Prop}

/-- Whether two outcomes are the same, but for the time of a reservation that is a reading of the
clock in both. -/
def SameOutcome (times : Instant → Prop) (o o' : Outcome) : Prop :=
  o = o' ∨ ∃ id time time', times time ∧ times time' ∧
    o = .error (.alreadyReserved id time) ∧ o' = .error (.alreadyReserved id time')

/-- Whether two records are the same, but for a time of change that is a reading of the clock in
both. -/
def SameRecord (times : Instant → Prop) (r r' : Record) : Prop :=
  r = r' ∨ times r.updatedAt ∧ times r'.updatedAt ∧ { r with updatedAt := r'.updatedAt } = r'

def SameStored (times : Instant → Prop) : Option Record → Option Record → Prop
  | none, none => True
  | some r, some r' => SameRecord times r r'
  | _, _ => False

theorem SameOutcome.symm {o o' : Outcome} (same : SameOutcome times o o') :
    SameOutcome times o' o := by
  rcases same with rfl | ⟨id, time, time', h, h', left, right⟩
  · exact .inl rfl
  · exact .inr ⟨id, time', time, h', h, right, left⟩

theorem SameOutcome.trans {o o' o'' : Outcome} (first : SameOutcome times o o')
    (second : SameOutcome times o' o'') : SameOutcome times o o'' := by
  rcases first with rfl | ⟨id, time, _, h, _, left, middle⟩
  · exact second
  · rcases second with rfl | ⟨id', _, time'', _, h'', middle', right⟩
    · exact .inr ⟨id, time, _, h, ‹_›, left, middle⟩
    · obtain ⟨rfl, _⟩ := JobError.alreadyReserved.inj (Except.error.inj (middle.symm.trans middle'))
      exact .inr ⟨id, time, time'', h, h'', left, right⟩

theorem SameRecord.symm {r r' : Record} (same : SameRecord times r r') :
    SameRecord times r' r := by
  rcases same with rfl | ⟨h, h', same⟩
  · exact .inl rfl
  · exact .inr ⟨h', h, by rw [← same]⟩

theorem SameRecord.trans {r r' r'' : Record} (first : SameRecord times r r')
    (second : SameRecord times r' r'') : SameRecord times r r'' := by
  rcases first with rfl | ⟨h, h', same⟩
  · exact second
  · rcases second with rfl | ⟨_, h'', same'⟩
    · exact .inr ⟨h, h', same⟩
    · exact .inr ⟨h, h'', by rw [← same', ← same]⟩

theorem SameStored.refl (stored : Option Record) : SameStored times stored stored := by
  cases stored with
  | none => trivial
  | some r => exact .inl rfl

theorem SameStored.symm {a b : Option Record} (same : SameStored times a b) :
    SameStored times b a := by
  cases a <;> cases b
  · trivial
  · exact same
  · exact same
  · exact SameRecord.symm same

theorem SameStored.trans {a b c : Option Record} (first : SameStored times a b)
    (second : SameStored times b c) : SameStored times a c := by
  cases a <;> cases b <;> cases c <;> try trivial
  exact SameRecord.trans first second

abbrev Ending := Outcome × Option Record

structure SameEnding (times : Instant → Prop) (e e' : Ending) : Prop where
  outcome : SameOutcome times e.1 e'.1
  stored : SameStored times e.2 e'.2

theorem SameEnding.refl (e : Ending) : SameEnding times e e := ⟨.inl rfl, .refl _⟩

theorem SameEnding.trans {e e' e'' : Ending} (first : SameEnding times e e')
    (second : SameEnding times e' e'') : SameEnding times e e'' :=
  ⟨first.outcome.trans second.outcome, first.stored.trans second.stored⟩

/-- Whether two endings differ in nothing but the time at which a failure is counted. -/
inductive Retimed (times : Instant → Prop) : Ending → Ending → Prop
  | refl (e : Ending) : Retimed times e e
  | failed {cause : JobError} (r : Record) {time time' : Instant} (retry : cause.isRetryable = true)
      (h : times time) (h' : times time') :
      Retimed times (.error cause, some (r.recordFailure time))
        (.error cause, some (r.recordFailure time'))

theorem Retimed.sameEnding {e e' : Ending} (retimed : Retimed times e e') :
    SameEnding times e e' := by
  cases retimed with
  | refl => exact .refl _
  | failed _ _ h h' => exact ⟨.inl rfl, .inr ⟨h, h', rfl⟩⟩

-- ---------------------------------------------------------------------------
-- The fate of a run
-- ---------------------------------------------------------------------------

def Verdict.cause? : Verdict → Option JobError
  | succeeded => none
  | failed text => some (.handler text)
  | panicked text? => some (.handlerPanicked (text?.getD unknownPanic))

/-- Whether what a handler's run ends with depends on nothing but the identifier, the payload and
the attempts of its job. -/
def Handler.IsUniform {σ : Type} (h : Handler σ) : Prop :=
  ∀ {a b : Job} (i j : Nat), a.id = b.id → a.payload = b.payload → a.attempts = b.attempts →
    verdictOf (h.plan (.ofJob a i) a) = verdictOf (h.plan (.ofJob b j) b)

namespace Worker

variable {σ : Type} {w w' : Worker} {handler? : String → Option (Handler σ)} {t now now' : Instant}
  {stage : Stage (Handler σ)} {next : Progress (Handler σ)} {record : Record} {id : String}
  {stored : Option Record}

/-- How a run ends that holds its record, by the failure that it counts, if it counts one. -/
def conclude (t : Instant) (id : String) (cause? : Option JobError) : Option Record → Ending
  | some stored =>
    match cause? with
    | none => (.ok (), none)
    | some cause => (.error cause, some (stored.recordFailure t))
  | none =>
    match cause? with
    | none => (.error (.completion (.notFound id)), none)
    | some cause => (.error (.failurePersistence cause.message (.notFound id)), none)

def Stage.cause? : Stage (Handler σ) → Option JobError
  | handling _ context job handler => (verdictOf (handler.plan context job)).cause?
  | failing _ cause => some cause
  | _ => none

/-- How a run ends, by what is stored of its record, with `t` for the time of a failure. -/
def Stage.fate (w : Worker) (handler? : String → Option (Handler σ)) (t : Instant) :
    Stage (Handler σ) → Option Record → Ending
  | claiming record _, none => (.error (.reservation (.notFound record.id)), none)
  | claiming record time, some stored =>
    if stored.reservedAt = record.reservedAt then
      conclude t record.id (w.dispatch handler? (record.reserve time)).1.cause?
        (some (stored.reserve time))
    else (.error (.alreadyReserved record.id (stored.reservedAt.getD time)), some stored)
  | losing record time, stored =>
    (.error (.alreadyReserved record.id ((stored.bind Record.reservedAt).getD time)), stored)
  | handling record context job handler, stored =>
    conclude t record.id (Stage.handling record context job handler).cause? stored
  | completing record, stored => conclude t record.id none stored
  | failing record cause, stored => conclude t record.id (some cause) stored
  | done outcome, stored => (outcome, stored)

/-- Whether a run at the stage is on a record, and claims none but a valid one and counts no failure
but one to be tried again. -/
def Stage.IsOn (id : String) : Stage (Handler σ) → Prop
  | claiming record _ => record.id = id ∧ Record.validate (some record) = .ok record
  | losing record _ | handling record _ _ _ | completing record => record.id = id
  | failing record cause => record.id = id ∧ cause.isRetryable = true
  | done _ => True

-- ---------------------------------------------------------------------------
-- Beginning
-- ---------------------------------------------------------------------------

theorem Dispatched.isOn (dispatched : Dispatched w handler? record next)
    (valid : Record.validate (some record) = .ok record) : next.1.IsOn record.id := by
  cases dispatched with
  | unread refused => exact ⟨rfl, JobError.isRetryable_ofJobFault valid refused⟩
  | unhandled => exact ⟨rfl, rfl⟩
  | handled => rfl

theorem Begun.isOn (begun : Begun w now record next) : next.1.IsOn record.id := by
  cases begun with
  | invalid | held => trivial
  | claiming valid => exact ⟨rfl, valid⟩

theorem Dispatched.fate_eq (dispatched : Dispatched w handler? record next) :
    next.1.fate w' handler? t stored = conclude t record.id next.1.cause? stored := by
  cases dispatched <;> rfl

/-- Who a record is dispatched by, and when it was claimed, makes no difference to what it ends
with. -/
theorem cause?_dispatch {copy : Record} {time time' : Instant}
    (uniform : ∀ type h, handler? type = some h → h.IsUniform) :
    (w.dispatch handler? (copy.reserve time)).1.cause? =
      (w'.dispatch handler? (copy.reserve time')).1.cause? := by
  simp only [dispatch, Job.ofRecord_reserve]
  cases Job.ofRecord (some copy) with
  | error fault => rfl
  | ok job =>
    simp only [Except.map]
    cases known : handler? job.jobType with
    | none => rfl
    | some h => exact congrArg Verdict.cause? (uniform _ h known _ _ rfl rfl rfl)

theorem conclude_reserve {r : Record} {cause? : Option JobError} {time time' : Instant} :
    conclude t id cause? (some (r.reserve time)) =
      conclude t id cause? (some (r.reserve time')) := by
  cases cause? <;> rfl

theorem fate_claiming {copy : Record} (h : times now) (h' : times now')
    (uniform : ∀ type h, handler? type = some h → h.IsUniform) :
    SameEnding times ((Stage.claiming copy now).fate w handler? t stored)
      ((Stage.claiming copy now').fate w' handler? t stored) := by
  cases stored with
  | none => exact .refl _
  | some stored =>
    by_cases same : stored.reservedAt = copy.reservedAt
    · simp only [Stage.fate, if_pos same]
      rw [cause?_dispatch uniform, conclude_reserve]
      exact .refl _
    · simp only [Stage.fate, if_neg same]
      refine ⟨?_, .refl _⟩
      cases stored.reservedAt with
      | some since => exact .inl rfl
      | none => exact .inr ⟨_, _, _, h, h', rfl, rfl⟩

/-- Who begins, and when, makes no difference but for readings of the clock, as long as the
reservation of the copy is within the window at both times or at none. -/
theorem fate_begin {copy : Record} (h : times now) (h' : times now') (window : w.window = w'.window)
    (steady : copy.isReservedWithin now w.window = copy.isReservedWithin now' w.window)
    (uniform : ∀ type h, handler? type = some h → h.IsUniform) :
    SameEnding times ((w.begin now copy).1.fate w handler? t stored)
      ((w'.begin now' copy).1.fate w' handler? t stored) := by
  unfold begin
  rw [← window, ← steady]
  cases Record.validate (some copy) with
  | error e => exact .refl _
  | ok _ =>
    cases copy.reservedAt with
    | none => exact fate_claiming h h' uniform
    | some since =>
      cases copy.isReservedWithin now w.window with
      | true => exact .refl _
      | false => exact fate_claiming h h' uniform

-- ---------------------------------------------------------------------------
-- Going on
-- ---------------------------------------------------------------------------

/-- An answer of the store keeps the fate of a run, and what is stored of other records. -/
theorem fate_call {s : MemoryStore} (on : stage.IsOn id) (asks : stage.asksStore = true)
    (h : times now) (ht : times t) :
    (w.call handler? now stage s).1.1.IsOn id ∧
      Retimed times
        ((w.call handler? now stage s).1.1.fate w handler? t
          ((w.call handler? now stage s).2.find? id))
        (stage.fate w handler? t (s.find? id)) ∧
      ∀ other ≠ id, (w.call handler? now stage s).2.find? other = s.find? other := by
  cases stage with
  | claiming record time =>
    obtain ⟨rfl, valid⟩ := on
    simp only [call, RecordStore.answer]
    cases there : s.find? record.id with
    | none =>
      rw [MemoryStore.reserve_missing there]
      simp only [onReserved, finish, there, Stage.fate]
      exact ⟨trivial, .refl _, fun _ _ => trivial⟩
    | some stored =>
      by_cases same : stored.reservedAt = record.reservedAt
      · rw [MemoryStore.reserve_same there same]
        simp only [onReserved, MemoryStore.find?_put_reserve there, if_pos]
        refine ⟨(dispatched ..).isOn (Record.validate_reserve time valid), ?_, fun other differ => if_neg (Ne.symm differ)⟩
        rw [(dispatched ..).fate_eq, Stage.fate, if_pos same]
        exact .refl _
      · rw [MemoryStore.reserve_other there same]
        simp only [onReserved, there, Stage.fate, if_neg same]
        exact ⟨rfl, .refl _, fun _ _ => trivial⟩
  | losing record time =>
    obtain rfl : record.id = id := on
    simp only [call, RecordStore.answer, onCurrent, finish, Stage.fate]
    refine ⟨trivial, ?_, fun _ _ => trivial⟩
    cases s.find? record.id <;> exact .refl _
  | completing record =>
    obtain rfl : record.id = id := on
    simp only [call, RecordStore.answer]
    cases there : s.find? record.id with
    | none =>
      rw [MemoryStore.delete_missing there]
      simp only [onDeleted, finish, there, Stage.fate]
      exact ⟨trivial, .refl _, fun _ _ => trivial⟩
    | some stored =>
      rw [MemoryStore.delete_there there]
      refine ⟨trivial, ?_, fun other differ => by simp [Keyed.find?_erase, Ne.symm differ]⟩
      simp only [onDeleted, finish, Stage.fate, Keyed.find?_erase, if_pos]
      exact .refl _
  | failing record cause =>
    obtain ⟨rfl, retry⟩ := on
    simp only [call, RecordStore.answer]
    cases there : s.find? record.id with
    | none =>
      rw [MemoryStore.recordFailure_missing there]
      simp only [onFailureRecorded, finish, there, Stage.fate]
      exact ⟨trivial, .refl _, fun _ _ => trivial⟩
    | some stored =>
      rw [MemoryStore.recordFailure_there there]
      simp only [onFailureRecorded, finish, Stage.fate, MemoryStore.find?_put_recordFailure there,
        if_pos]
      exact ⟨trivial, .failed stored retry h ht, fun other differ => by simp [Ne.symm differ]⟩
  | handling => cases asks
  | done => cases asks

theorem fate_onVerdict {record : Record} {context : Context} {job : Job} {handler : Handler σ} :
    (onVerdict record context (verdictOf (handler.plan context job)) :
        Progress (Handler σ)).1.fate w handler? t stored =
      (Stage.handling record context job handler).fate w handler? t stored := by
  simp only [Stage.fate, Stage.cause?]
  cases verdictOf (handler.plan context job) <;> rfl

theorem isOn_onVerdict {record : Record} {context : Context} {verdict : Verdict} :
    (onVerdict record context verdict : Progress (Handler σ)).1.IsOn record.id := by
  cases verdict with
  | succeeded => rfl
  | _ => exact ⟨rfl, rfl⟩

end Worker

end JobQueue
