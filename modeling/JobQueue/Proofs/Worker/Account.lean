import JobQueue.Proofs.Pool.Fate
import JobQueue.Store.Faulty

/-!
# What an outcome tells

A run asks its store one of five short sequences of requests, all for the record that it was given,
and its outcome tells which, with the answers: `Ended` lists the cases. Nothing is assumed of the
store, not even that two requests in a row meet the same one, so others may write in between.

`Stands` is how a run stands at each stage; beginning, an answer and a verdict keep it. By
`underway_of_trace` that is enough for every moment of every run.
-/

namespace JobQueue

open Time (Instant)

theorem JobError.isRetryable_iff {e : JobError} : e.isRetryable = true ↔
    (∃ fault, e = .parse fault) ∨ (∃ jobType, e = .handlerNotFound jobType) ∨
      (∃ text, e = .handler text) ∨ ∃ text, e = .handlerPanicked text := by
  cases e <;> simp [isRetryable]

namespace Worker

abbrev Exchange := (q : Request) × Except StoreError q.Answer

namespace Act

def exchange? : Act → Option Exchange
  | asked q answer => some ⟨q, answer⟩
  | _ => none

def verdict? : Act → Option Verdict
  | judged verdict => some verdict
  | _ => none

end Act

def exchanges (deeds : List (Instant × Act)) : List Exchange :=
  deeds.filterMap fun d => d.2.exchange?

def verdict? (deeds : List (Instant × Act)) : Option Verdict :=
  deeds.findSome? fun d => d.2.verdict?

theorem exchanges_snoc {deeds : List (Instant × Act)} {deed : Instant × Act} :
    exchanges (deeds ++ [deed]) = exchanges deeds ++ deed.2.exchange?.toList := by
  rw [exchanges, List.filterMap_append]
  rfl

theorem verdict?_snoc {deeds : List (Instant × Act)} {deed : Instant × Act} :
    verdict? (deeds ++ [deed]) = (verdict? deeds).or deed.2.verdict? := by
  simp [verdict?]

variable {σ η : Type}

def mishap? (handler? : String → Option η) (claimed : Record) (verdict? : Option Verdict) :
    Option JobError :=
  match Job.ofRecord (some claimed) with
  | .error fault => some (.ofJobFault fault)
  | .ok job =>
    match handler? job.jobType with
    | none => some (.handlerNotFound job.jobType)
    | some _ => verdict?.bind Verdict.cause?

def shownOr (time : Instant) : Except StoreError (Option Record) → Instant
  | .ok (some stored) => stored.reservedAt.getD time
  | _ => time

section
variable (w : Worker) (handler? : String → Option η) (copy : Record) (began : Instant)

abbrev claim : Request := .reserve copy.id copy.reservedAt began

structure Claims : Prop where
  valid : Record.validate (some copy) = .ok copy
  free : copy.isReservedWithin began w.window = false

inductive Ended : List Exchange → Option Verdict → Outcome → Prop
  | invalid {e : ValidationError} (h : Record.validate (some copy) = .error e) :
      Ended [] none (.error (.validation e))
  | held {since : Instant} (valid : Record.validate (some copy) = .ok copy)
      (h : copy.reservedAt = some since) (within : copy.isReservedWithin began w.window = true) :
      Ended [] none (.error (.alreadyReserved copy.id since))
  | unclaimed {e : StoreError} (claims : Claims w copy began) :
      Ended [⟨claim copy began, .error e⟩] none (.error (.reservation e))
  | lost {current : Except StoreError (Option Record)} (claims : Claims w copy began) :
      Ended [⟨claim copy began, .ok false⟩, ⟨.get copy.id, current⟩] none
        (.error (.alreadyReserved copy.id (shownOr began current)))
  | deleted (claims : Claims w copy began) :
      Ended [⟨claim copy began, .ok true⟩, ⟨.delete copy.id, .ok ()⟩] (some .succeeded) (.ok ())
  | undeleted {e : StoreError} (claims : Claims w copy began) :
      Ended [⟨claim copy began, .ok true⟩, ⟨.delete copy.id, .error e⟩] (some .succeeded)
        (.error (.completion e))
  | counted {verdict? : Option Verdict} {cause : JobError} {time : Instant} {updated : Record}
      (claims : Claims w copy began)
      (why : mishap? handler? (copy.reserve began) verdict? = some cause) :
      Ended [⟨claim copy began, .ok true⟩, ⟨.recordFailure copy.id time, .ok updated⟩] verdict?
        (.error cause)
  | uncounted {verdict? : Option Verdict} {cause : JobError} {time : Instant} {source : StoreError}
      (claims : Claims w copy began)
      (why : mishap? handler? (copy.reserve began) verdict? = some cause) :
      Ended [⟨claim copy began, .ok true⟩, ⟨.recordFailure copy.id time, .error source⟩] verdict?
        (.error (.failurePersistence cause.message source))

inductive Stands : List Exchange → Option Verdict → Stage η → Prop
  | claiming (claims : Claims w copy began) : Stands [] none (.claiming copy began)
  | losing (claims : Claims w copy began) :
      Stands [⟨claim copy began, .ok false⟩] none (.losing copy began)
  | handling {job : Job} {handler : η} (claims : Claims w copy began)
      (read : Job.ofRecord (some (copy.reserve began)) = .ok job)
      (found : handler? job.jobType = some handler) :
      Stands [⟨claim copy began, .ok true⟩] none
        (.handling (copy.reserve began) (.ofJob job w.id) job handler)
  | completing (claims : Claims w copy began) :
      Stands [⟨claim copy began, .ok true⟩] (some .succeeded) (.completing (copy.reserve began))
  | failing {verdict? : Option Verdict} {cause : JobError} (claims : Claims w copy began)
      (why : mishap? handler? (copy.reserve began) verdict? = some cause) :
      Stands [⟨claim copy began, .ok true⟩] verdict? (.failing (copy.reserve began) cause)
  | done {calls : List Exchange} {verdict? : Option Verdict} {outcome : Outcome}
      (h : Ended w handler? copy began calls verdict? outcome) :
      Stands calls verdict? (.done outcome)

end

-- ---------------------------------------------------------------------------
-- What each step keeps
-- ---------------------------------------------------------------------------

variable {w : Worker} {handler? : String → Option η} {copy : Record} {began now : Instant}
  {calls : List Exchange} {stage : Stage η} {next : Progress η}

theorem Begun.stands (begun : Begun w began copy next) :
    Stands w handler? copy began [] none next.1 := by
  cases begun with
  | invalid refused => exact .done (.invalid refused)
  | held valid reserved within => exact .done (.held valid reserved within)
  | claiming valid free => exact .claiming ⟨valid, free⟩

theorem begin_of_claims (claims : Claims w copy began) :
    (w.begin began copy : Progress η).1 = .claiming copy began := by
  have start : Begun w began copy (w.begin began copy : Progress η) := begun ..
  generalize (w.begin began copy : Progress η) = next at start ⊢
  cases start with
  | invalid refused => cases claims.valid.symm.trans refused
  | held valid reserved within => cases claims.free.symm.trans within
  | claiming => rfl

theorem Dispatched.stands (dispatched : Dispatched w handler? (copy.reserve began) next)
    (claims : Claims w copy began) :
    Stands w handler? copy began [⟨claim copy began, .ok true⟩] none next.1 := by
  cases dispatched with
  | unread unread => exact .failing claims (by simp [mishap?, unread])
  | unhandled read missing => exact .failing claims (by simp [mishap?, read, missing])
  | handled read found => exact .handling claims read found

theorem Stands.call [RecordStore σ] {q : Request} {store : σ} {verdict? : Option Verdict}
    (stands : Stands w handler? copy began calls verdict? stage)
    (asks : stage.request? now = some q)
    (called : Called w handler? now store stage next) :
    Stands w handler? copy began (calls ++ [⟨q, (RecordStore.answer now q store).1⟩]) verdict?
      next.1 := by
  cases stands with
  | claiming claims =>
    obtain rfl := Option.some.inj asks
    cases called with
    | unclaimed answer =>
      rw [answer]
      exact .done (.unclaimed claims)
    | beaten answer =>
      rw [answer]
      exact .losing claims
    | claimed answer =>
      rw [answer]
      exact (dispatched ..).stands claims
  | losing claims =>
    obtain rfl := Option.some.inj asks
    cases called with
    | lost => exact .done (.lost claims)
  | handling => cases asks
  | completing claims =>
    obtain rfl := Option.some.inj asks
    cases called with
    | deleted answer =>
      rw [answer]
      exact .done (.deleted claims)
    | undeleted answer =>
      rw [answer]
      exact .done (.undeleted claims)
  | failing claims why =>
    obtain rfl := Option.some.inj asks
    cases called with
    | counted answer =>
      rw [answer]
      exact .done (.counted claims why)
    | uncounted answer =>
      rw [answer]
      exact .done (.uncounted claims why)
  | done => cases asks

theorem Stands.onVerdict {record : Record} {context : Context} {job : Job} {handler : η}
    {none? : Option Verdict} (verdict : Verdict)
    (stands : Stands w handler? copy began calls none? (.handling record context job handler)) :
    none? = none ∧ Stands w handler? copy began calls (some verdict)
      (Worker.onVerdict record context verdict : Progress η).1 := by
  cases stands with
  | handling claims read found =>
    refine ⟨rfl, ?_⟩
    have why : mishap? handler? (copy.reserve began) (some verdict) = verdict.cause? := by
      simp [mishap?, read, found]
    cases verdict with
    | succeeded => exact .completing claims
    | failed text => exact .failing claims why
    | panicked text? => exact .failing claims why

theorem Stands.ended {verdict? : Option Verdict} {outcome : Outcome}
    (stands : Stands w handler? copy began calls verdict? stage)
    (finished : stage.outcome? = some outcome) :
    Ended w handler? copy began calls verdict? outcome := by
  cases stands with
  | done ended => exact Option.some.inj finished ▸ ended
  | _ => cases finished

-- ---------------------------------------------------------------------------
-- Whole runs
-- ---------------------------------------------------------------------------

namespace Run

inductive Moves (σ : Type) [RecordStore σ] (r : Run η) : Instant × Act → Run η → Prop
  | of {now : Instant} {s s' : σ} {act : Act} {r' : Run η} (step : r.Step now s act r' s') :
      Moves σ r (now, act) r'

/-- How a run of the worker `w` is that began at `began`: it is at a stage, and something is kept of
its deeds, of what is seen of it and of the stage. -/
structure Underway (w : Worker) (handler? : String → Option η)
    (P : Instant → List (Instant × Act) → List Event → Stage η → Prop)
    (deeds : List (Instant × Act)) (r : Run η) (began : Instant) (stage : Stage η) : Prop where
  begins : ∃ rest, deeds = (began, .begun) :: rest
  worker_eq : r.worker = w
  handler?_eq : r.handler? = handler?
  stage_eq : r.stage = some stage
  kept : P began deeds r.seen stage

variable [RecordStore σ] {r r' : Run η} {deeds : List (Instant × Act)} {deed : Instant × Act}

/-- What the beginning of a run sets up, and each answer and each verdict keeps, is kept in every
run. -/
theorem underway_of_trace {P : Instant → List (Instant × Act) → List Event → Stage η → Prop}
    (begins : ∀ now, P now [(now, .begun)] (w.begin now copy : Progress η).2
      (w.begin now copy : Progress η).1)
    (asks : ∀ {began deeds seen stage now q} {store : σ}, P began deeds seen stage →
      stage.request? now = some q →
      P began (deeds ++ [(now, .asked q (RecordStore.answer now q store).1)])
        (seen ++ (w.call handler? now stage store).1.2) (w.call handler? now stage store).1.1)
    (judges : ∀ {began deeds seen record context job handler now} verdict,
      P began deeds seen (.handling record context job handler) →
      P began (deeds ++ [(now, .judged verdict)])
        (seen ++ (onVerdict record context verdict : Progress η).2)
        (onVerdict record context verdict : Progress η).1)
    (trace : Trace (Moves σ) (fresh w handler? copy) deeds r) :
    (deeds = [] ∧ r = fresh w handler? copy) ∨
      ∃ began stage, r.Underway w handler? P deeds began stage := by
  induction trace with
  | nil => exact .inl ⟨rfl, rfl⟩
  | @snoc r r' deeds deed _ last ih =>
    obtain ⟨step⟩ := last
    rcases ih with ⟨rfl, rfl⟩ | ⟨began, stage, ⟨rest, begun⟩, worker, handlers, at_, kept⟩
    · cases step with
      | begin => exact .inr ⟨_, _, ⟨[], rfl⟩, rfl, rfl, rfl, begins _⟩
      | ask h => cases h
      | judge verdict h => cases h
    · have further {deed} : ∃ rest', deeds ++ [deed] = (began, .begun) :: rest' := by
        rw [begun]
        exact ⟨_, rfl⟩
      cases step with
      -- a run that has begun does not begin again
      | begin h => rw [h] at at_; cases at_
      | @ask asking q h asked =>
        obtain rfl := Option.some.inj (h.symm.trans at_)
        subst worker handlers
        exact .inr ⟨began, _, further, rfl, rfl, rfl, asks kept asked⟩
      | judge verdict h =>
        obtain rfl := Option.some.inj (h.symm.trans at_)
        exact .inr ⟨began, _, further, worker, handlers, rfl, judges verdict kept⟩

abbrev Tells (w : Worker) (handler? : String → Option η) (copy : Record)
    (deeds : List (Instant × Act)) (r : Run η) (began : Instant) (stage : Stage η) : Prop :=
  r.Underway w handler? (fun began deeds _ stage =>
    Stands w handler? copy began (exchanges deeds) (verdict? deeds) stage) deeds began stage

theorem tells_of_trace (trace : Trace (Moves σ) (fresh w handler? copy) deeds r) :
    (deeds = [] ∧ r = fresh w handler? copy) ∨
      ∃ began stage, r.Tells w handler? copy deeds began stage := by
  refine underway_of_trace (fun now => (begun ..).stands) ?_ ?_ trace
  · intro began deeds seen stage now q store stands asks
    rw [exchanges_snoc, verdict?_snoc]
    simpa [Act.exchange?, Act.verdict?] using
      stands.call asks (called _ _ _ _ (Stage.asksStore_of_request? asks))
  · intro began deeds seen record context job handler now verdict stands
    obtain ⟨unheard, heard⟩ := stands.onVerdict verdict
    rw [exchanges_snoc, verdict?_snoc, unheard]
    simpa [Act.exchange?, Act.verdict?] using heard

theorem ended_of_trace {outcome : Outcome} (trace : Trace (Moves σ) (fresh w handler? copy) deeds r)
    (finished : r.outcome? = some outcome) :
    ∃ began rest, deeds = (began, .begun) :: rest ∧
      Ended w handler? copy began (exchanges deeds) (verdict? deeds) outcome := by
  rcases tells_of_trace trace with ⟨rfl, rfl⟩ | ⟨began, stage, ⟨rest, begins⟩, _, _, at_, stands⟩
  · cases finished
  · refine ⟨began, rest, begins, ?_⟩
    rw [outcome?, at_, Option.bind_some] at finished
    exact stands.ended finished

end Run

-- ---------------------------------------------------------------------------
-- What the outcome tells
-- ---------------------------------------------------------------------------

/-- What the outcome of a run tells about what the run asked the store, and the other way round.
The run is one of the worker `w` on a copy, and began at `began`. -/
structure Account (w : Worker) (handler? : String → Option η) (copy : Record) (began : Instant)
    (calls : List Exchange) (verdict? : Option Verdict) (outcome : Outcome) : Prop where
  /-- The requests are none, or begin with the claim over the copy's own reservation, which at most
  one other follows; all are for the record of the copy, and none saves it. -/
  requests : calls.map Sigma.fst ∈
      [[], [claim copy began], [claim copy began, .get copy.id],
        [claim copy began, .delete copy.id]] ∨
    ∃ time, calls.map Sigma.fst = [claim copy began, .recordFailure copy.id time]
  /-- Nothing is asked exactly if the outcome is a validation error, or the window check found the
  record reserved. -/
  silent : calls = [] ↔ (∃ e, outcome = .error (.validation e)) ∨
    (∃ id since, outcome = .error (.alreadyReserved id since)) ∧
      copy.isReservedWithin began w.window = true
  /-- A validation error is what the check of the copy says, never what reading it later says. -/
  invalid (e : ValidationError) :
    outcome = .error (.validation e) ↔ Record.validate (some copy) = .error e
  /-- The window check shows the copy's reservation. -/
  held (id : String) (since : Instant) :
    outcome = .error (.alreadyReserved id since) ∧ calls = [] ↔
      Record.validate (some copy) = .ok copy ∧ copy.isReservedWithin began w.window = true ∧
        copy.id = id ∧ copy.reservedAt = some since
  unclaimed (e : StoreError) :
    outcome = .error (.reservation e) ↔ ⟨claim copy began, .error e⟩ ∈ calls
  lost : (∃ id since, outcome = .error (.alreadyReserved id since)) ∧ calls ≠ [] ↔
    ⟨claim copy began, .ok false⟩ ∈ calls
  /-- A lost race shows the reservation that is stored, or else the time of the claim. -/
  shown (id : String) (since : Instant) :
    outcome = .error (.alreadyReserved id since) ∧ calls ≠ [] ↔
      copy.id = id ∧ ∃ current, calls = [⟨claim copy began, .ok false⟩, ⟨.get copy.id, current⟩] ∧
        shownOr began current = since
  succeeded : outcome = .ok () ↔
    verdict? = some .succeeded ∧ ⟨.delete copy.id, .ok ()⟩ ∈ calls
  undeleted (e : StoreError) : outcome = .error (.completion e) ↔
    verdict? = some .succeeded ∧ ⟨.delete copy.id, .error e⟩ ∈ calls
  retryable : (∃ e, outcome = .error e ∧ e.isRetryable = true) ↔
    ∃ time updated, ⟨.recordFailure copy.id time, .ok updated⟩ ∈ calls
  /-- The failure that was counted is the one that is reported. -/
  counted (cause : JobError) : outcome = .error cause ∧ cause.isRetryable = true ↔
    mishap? handler? (copy.reserve began) verdict? = some cause ∧
      ∃ time updated, ⟨.recordFailure copy.id time, .ok updated⟩ ∈ calls
  uncounted (text : String) (source : StoreError) :
    outcome = .error (.failurePersistence text source) ↔
      (∃ cause, mishap? handler? (copy.reserve began) verdict? = some cause ∧
        cause.message = text) ∧
      ∃ time, ⟨.recordFailure copy.id time, .error source⟩ ∈ calls
  /-- No other outcome is there. -/
  others : outcome ≠ .error .enqueueTimeout ∧ outcome ≠ .error .resultTimeout ∧
    outcome ≠ .error .poolClosed

theorem isRetryable_of_mishap? {claimed : Record} {verdict? : Option Verdict} {cause : JobError}
    (valid : Record.validate (some claimed) = .ok claimed)
    (why : mishap? handler? claimed verdict? = some cause) : cause.isRetryable = true := by
  -- a claimed record is valid, so only its payload can keep it from giving a job
  cases read : Job.ofRecord (some claimed) with
  | error fault =>
    simp only [mishap?, read, Option.some.injEq] at why
    exact why ▸ JobError.isRetryable_ofJobFault valid read
  | ok job =>
    simp only [mishap?, read] at why
    cases found : handler? job.jobType with
    | none =>
      simp only [found, Option.some.injEq] at why
      exact why ▸ rfl
    | some handler =>
      simp only [found, Option.bind_eq_some_iff] at why
      obtain ⟨verdict, -, why⟩ := why
      cases verdict with
      | succeeded => cases why
      | failed text => exact Option.some.inj why ▸ rfl
      | panicked text? => exact Option.some.inj why ▸ rfl

theorem Ended.account {verdict? : Option Verdict} {outcome : Outcome}
    (ended : Ended w handler? copy began calls verdict? outcome) :
    Account w handler? copy began calls verdict? outcome := by
  cases ended with
  | invalid h => constructor <;> simp [h, JobError.isRetryable]
  | held valid h within => constructor <;> simp [valid, h, within, JobError.isRetryable]
  | unclaimed claims =>
    obtain ⟨valid, free⟩ := claims
    constructor <;> simp [valid, free, JobError.isRetryable]
    exact fun _ => eq_comm
  | lost claims =>
    obtain ⟨valid, free⟩ := claims
    constructor <;> simp [valid, free, JobError.isRetryable]
  | deleted claims =>
    obtain ⟨valid, free⟩ := claims
    constructor <;> simp [valid, free]
  | undeleted claims =>
    obtain ⟨valid, free⟩ := claims
    constructor <;> simp [valid, free, JobError.isRetryable]
    exact fun _ => eq_comm
  | counted claims why =>
    -- which failure it is matters: the other kinds of outcome are told by other fields
    have retry := isRetryable_of_mishap? (Record.validate_reserve began claims.valid) why
    obtain ⟨valid, free⟩ := claims
    obtain ⟨_, rfl⟩ | ⟨_, rfl⟩ | ⟨_, rfl⟩ | ⟨_, rfl⟩ := JobError.isRetryable_iff.mp retry <;>
      constructor <;> simp [valid, free, why, JobError.isRetryable]
  | uncounted claims why =>
    obtain ⟨valid, free⟩ := claims
    constructor <;> simp [valid, free, why, JobError.isRetryable]
    exact fun _ _ _ => eq_comm

-- ---------------------------------------------------------------------------
-- A worker at its desk
-- ---------------------------------------------------------------------------

/-- One step of a run at a desk. The store changes by the request that the run makes and by what
its handler does, and by nothing else. -/
inductive Run.Works [RecordStore σ] : Run (Handler σ) × Desk σ → Instant × Act →
    Run (Handler σ) × Desk σ → Prop
  | begin {r : Run (Handler σ)} {desk : Desk σ} (h : r.stage = none) :
      Works (r, desk) (desk.clock.now, .begun)
        (r.goOn (r.worker.begin desk.clock.now r.copy),
          { desk.see (r.worker.begin desk.clock.now r.copy : Progress (Handler σ)).2 with
            clock := desk.clock.next })
  | ask {r : Run (Handler σ)} {desk : Desk σ} {stage : Stage (Handler σ)} {q : Request}
      (h : r.stage = some stage) (asks : stage.request? desk.clock.now = some q) :
      Works (r, desk) (desk.clock.now, .asked q (RecordStore.answer desk.clock.now q desk.store).1)
        (r.goOn (r.worker.call r.handler? desk.clock.now stage desk.store).1,
          { desk.see (r.worker.call r.handler? desk.clock.now stage desk.store).1.2 with
            store := (RecordStore.answer desk.clock.now q desk.store).2
            clock := desk.clock.next })
  | handle {r : Run (Handler σ)} {desk : Desk σ} {record : Record} {context : Context} {job : Job}
      {handler : Handler σ} (h : r.stage = some (.handling record context job handler)) :
      Works (r, desk)
        (desk.clock.now, .judged (carryOut desk (handler.plan context job)).1)
        (r.goOn (onVerdict record context (carryOut desk (handler.plan context job)).1),
          (Worker.handle record context (handler.plan context job) desk).2)

section
variable [RecordStore σ] {handler? : String → Option (Handler σ)} {stage : Stage (Handler σ)}
  {r r' : Run (Handler σ)} {desk desk' : Desk σ} {deeds : List (Instant × Act)}

theorem Run.Works.moves {here there : Run (Handler σ) × Desk σ} {deed : Instant × Act}
    (works : Works here deed there) : here.1.Moves σ deed there.1 := by
  cases works with
  | @begin r desk h => exact .of (s := desk.store) (.begin h)
  | ask h asks => exact .of (.ask h asks)
  | @handle r desk _ _ _ _ h => exact .of (s := desk.store) (.judge _ h)

theorem works_runFrom (desk : Desk σ) (hr : r.stage = some stage) (hw : r.worker = w)
    (hh : r.handler? = handler?) : ∃ deeds r',
      Trace Run.Works (r, desk) deeds (r', (w.runFrom handler? stage desk).2) ∧
        r'.outcome? = some (w.runFrom handler? stage desk).1 := by
  have on {r r' : Run (Handler σ)} {stage' : Stage (Handler σ)} {desk desk' : Desk σ}
      {deed : Instant × Act} (step : Run.Works (r, desk) deed (r', desk'))
      (rest : ∃ deeds last, Trace Run.Works (r', desk') deeds
        (last, (w.runFrom handler? stage' desk').2) ∧
          last.outcome? = some (w.runFrom handler? stage' desk').1) :
      ∃ deeds last, Trace Run.Works (r, desk) deeds (last, (w.runFrom handler? stage' desk').2) ∧
        last.outcome? = some (w.runFrom handler? stage' desk').1 := by
    obtain ⟨deeds, last, trace, ended⟩ := rest
    exact ⟨_, last, (Trace.single step).append trace, ended⟩
  -- one case for each stage: the run does what its stage is for, and goes on from there
  induction stage, desk using runFrom.induct w handler? generalizing r with
  | case1 desk record time next =>
    rename_i ih
    subst hw hh
    rw [runFrom]
    exact on (.ask hr rfl) (ih rfl rfl rfl)
  | case2 desk record time next =>
    rename_i ih
    subst hw hh
    rw [runFrom]
    exact on (.ask hr rfl) (ih rfl rfl rfl)
  | case3 desk record context job handler next =>
    rename_i ih
    subst hw hh
    rw [runFrom]
    exact on (.handle hr) (ih rfl rfl rfl)
  | case4 desk record next =>
    rename_i ih
    subst hw hh
    rw [runFrom]
    exact on (.ask hr rfl) (ih rfl rfl rfl)
  | case5 desk record cause next =>
    rename_i ih
    subst hw hh
    rw [runFrom]
    exact on (.ask hr rfl) (ih rfl rfl rfl)
  | case6 desk outcome =>
    rw [runFrom]
    exact ⟨[], r, .nil _, by simp [Run.outcome?, hr, Stage.outcome?]⟩

theorem works_process (w : Worker) (handler? : String → Option (Handler σ)) (copy : Record)
    (desk : Desk σ) : ∃ deeds r,
    Trace Run.Works (Run.fresh w handler? copy, desk) ((desk.clock.now, .begun) :: deeds)
      (r, (w.process handler? copy desk).2) ∧
    r.outcome? = some (w.process handler? copy desk).1 := by
  let fresh := Run.fresh w handler? copy
  let start : Progress (Handler σ) := w.begin desk.clock.now copy
  let ready : Desk σ := { desk.see start.2 with clock := desk.clock.next }
  have first : Run.Works (fresh, desk) (desk.clock.now, .begun) (fresh.goOn start, ready) :=
    .begin rfl
  obtain ⟨deeds, r, trace, ended⟩ :=
    works_runFrom (w := w) (r := fresh.goOn start) ready rfl rfl rfl
  exact ⟨deeds, r, (Trace.single first).append trace, ended⟩

end

/-- The outcome of a run and what it asked its store determine each other, for every store,
whatever it answers and whoever else writes to it; and a worker at its desk always comes to such an
outcome. -/
theorem outcome_tells_calls [RecordStore σ] (w : Worker) (handler? : String → Option (Handler σ))
    (copy : Record) :
    (∀ deeds (r : Run (Handler σ)) outcome,
      Trace (Run.Moves σ) (Run.fresh w handler? copy) deeds r → r.outcome? = some outcome →
      ∃ began rest, deeds = (began, .begun) :: rest ∧
        Account w handler? copy began (exchanges deeds) (verdict? deeds) outcome) ∧
    ∀ desk : Desk σ, ∃ deeds r,
      Trace Run.Works (Run.fresh w handler? copy, desk) deeds
        (r, (w.process handler? copy desk).2) ∧
      r.outcome? = some (w.process handler? copy desk).1 ∧
      Account w handler? copy desk.clock.now (exchanges deeds) (verdict? deeds)
        (w.process handler? copy desk).1 := by
  constructor
  · intro deeds r outcome trace finished
    obtain ⟨began, rest, begins, ended⟩ := Run.ended_of_trace trace finished
    exact ⟨began, rest, begins, ended.account⟩
  · intro desk
    obtain ⟨deeds, r, trace, finished⟩ := works_process w handler? copy desk
    have moves : Trace (Run.Moves σ) (Run.fresh w handler? copy) _ r :=
      trace.image (f := Prod.fst) Run.Works.moves
    obtain ⟨began, rest, begins, ended⟩ := Run.ended_of_trace moves finished
    obtain ⟨rfl, -⟩ := Prod.mk.inj (List.cons.inj begins).1
    exact ⟨_, r, trace, finished, ended.account⟩

/-- A store that holds one record, and counts no failures. -/
def uncounting (record : Record) : FaultyStore MemoryStore :=
  (FaultyStore.ofStore (Keyed.empty.put record)).setFault .recordFailure (some (.backend "down"))

/-- The panic of a handler is reported with the fault of the store. -/
theorem outcome_tells_calls_uncounting :
    let w : Worker := ⟨0, defaultWindow⟩
    let handler? (_ : String) : Option (Handler (FaultyStore MemoryStore)) :=
      some ⟨fun _ _ => [.stop (.panicked none)]⟩
    let copy : Record :=
      ⟨"a", queueCollection, "\x7b\"type\":\"mail\"\x7d", 4, none, .epoch, .epoch⟩
    let text := "handler panicked: unknown panic"
    ∃ deeds r began,
      Trace (Run.Moves (FaultyStore MemoryStore)) (Run.fresh w handler? copy) deeds r ∧
      r.outcome? = some (.error (.failurePersistence text (.backend "down"))) ∧
      (∃ cause, mishap? handler? (copy.reserve began) (verdict? deeds) = some cause ∧
        cause.message = text) ∧
      ∃ time, ⟨.recordFailure "a" time, .error (.backend "down")⟩ ∈ exchanges deeds := by
  intro w handler? copy text
  let desk : Desk (FaultyStore MemoryStore) := .ofStore (uncounting copy) (.startingAt .epoch)
  have reported : (w.process handler? copy desk).1 =
      .error (.failurePersistence text (.backend "down")) := by
    decide +kernel
  obtain ⟨deeds, r, trace, finished, -⟩ := (outcome_tells_calls w handler? copy).2 desk
  rw [reported] at finished
  have moves : Trace (Run.Moves _) (Run.fresh w handler? copy) deeds r :=
    trace.image (f := Prod.fst) Run.Works.moves
  obtain ⟨began, rest, begins, account⟩ :=
    (outcome_tells_calls w handler? copy).1 deeds r _ moves finished
  obtain ⟨why, asked⟩ := (account.uncounted _ _).mp rfl
  exact ⟨deeds, r, began, moves, finished, why, asked⟩

end Worker

end JobQueue
