import JobQueue.Proofs.Pool.Sequential
import JobQueue.Proofs.Worker.Account
import Mathlib.Data.List.Chain

/-!
# The states of a worker

What a worker is seen to do at a record is a path through a fixed graph of states, from idle to
idle. `Shows` says what is seen at each stage of a run, entries of the log apart; beginning, an
answer and a verdict keep it. How the store answers, who else writes to it and what the handler says
is left open.
-/

namespace JobQueue

open Time (Instant)

namespace WorkerState

def next : WorkerState → List WorkerState
  | idle => [validating]
  | validating => [idle, reservationCheck]
  | reservationCheck => [idle, reserving]
  | reserving => [idle, parsing]
  | parsing => [failing, dispatching]
  | dispatching => [completing, failing]
  | completing | failing => [idle]

abbrev IsPath (path : List WorkerState) : Prop := path.IsChain fun s t => t ∈ s.next

/-- Whether a path is that of one record: it leaves idle once, and comes back. -/
structure IsRound (path : List WorkerState) : Prop where
  isPath : IsPath path
  ends : ∃ middle, idle ∉ middle ∧ path = idle :: (middle ++ [idle])

end WorkerState

namespace Worker

namespace Event

def state? : Event → Option WorkerState
  | entered state => some state
  | _ => none

def isShown : Event → Bool
  | logged _ => false
  | _ => true

end Event

def statesOf (seen : List Event) : List WorkerState := seen.filterMap Event.state?

/-- What was seen, without the entries of the log. -/
def shown (seen : List Event) : List Event := seen.filter Event.isShown

def invokedIn : WorkerState → List Event → List WorkerState
  | _, [] => []
  | _, .entered state :: rest => invokedIn state rest
  | state, .logged _ :: rest => invokedIn state rest
  | state, .invoked _ _ :: rest => state :: invokedIn state rest

@[simp] theorem statesOf_nil : statesOf [] = [] := rfl

@[simp] theorem statesOf_entered {state : WorkerState} {rest : List Event} :
    statesOf (.entered state :: rest) = state :: statesOf rest := rfl

@[simp] theorem statesOf_invoked {context : Context} {job : Job} {rest : List Event} :
    statesOf (.invoked context job :: rest) = statesOf rest := rfl

@[simp] theorem invokedIn_nil {state : WorkerState} : invokedIn state [] = [] := rfl

@[simp] theorem invokedIn_entered {state other : WorkerState} {rest : List Event} :
    invokedIn state (.entered other :: rest) = invokedIn other rest := rfl

@[simp] theorem invokedIn_invoked {state : WorkerState} {context : Context} {job : Job}
    {rest : List Event} :
    invokedIn state (.invoked context job :: rest) = state :: invokedIn state rest := rfl

def granted (deeds : List (Instant × Act)) : Bool := deeds.any fun d => d.2.claimed?.isSome

section
variable {seen more : List Event} {deeds : List (Instant × Act)} {deed : Instant × Act}

theorem shown_append : shown (seen ++ more) = shown seen ++ shown more := List.filter_append ..

theorem statesOf_append : statesOf (seen ++ more) = statesOf seen ++ statesOf more :=
  List.filterMap_append ..

theorem statesOf_shown : statesOf (shown seen) = statesOf seen := by
  rw [statesOf, shown, List.filterMap_filter]
  refine List.filterMap_congr fun event _ => ?_
  cases event <;> rfl

theorem invoked_mem_shown {context : Context} {job : Job} :
    .invoked context job ∈ shown seen ↔ .invoked context job ∈ seen := by
  simp [shown, Event.isShown]

theorem invokedIn_shown {state : WorkerState} :
    invokedIn state (shown seen) = invokedIn state seen := by
  induction seen generalizing state with
  | nil => rfl
  | cons event rest ih =>
    cases event with
    | entered state => exact ih
    | logged entry => exact ih
    | invoked context job => exact congrArg (state :: ·) ih

theorem invokedIn_snoc {state other : WorkerState} :
    invokedIn state (seen ++ [.entered other]) = invokedIn state seen := by
  induction seen generalizing state with
  | nil => rfl
  | cons event rest ih =>
    cases event with
    | entered state => exact ih
    | logged entry => exact ih
    | invoked context job => exact congrArg (state :: ·) ih

theorem granted_snoc : granted (deeds ++ [deed]) = (granted deeds || deed.2.claimed?.isSome) := by
  simp [granted]

end

-- ---------------------------------------------------------------------------
-- What is seen at each stage
-- ---------------------------------------------------------------------------

variable {σ η : Type}

abbrev upToParsing : List Event := upToClaim ++ [.entered .parsing]

abbrev upToDispatching : List Event := upToParsing ++ [.entered .dispatching]

/-- What is seen of a run that began at `began` by the time it is at a stage, by whether its claim
was granted and by its verdict. -/
inductive Shows (w : Worker) (handler? : String → Option η) (copy : Record) (began : Instant) :
    Bool → Option Verdict → List Event → Stage η → Prop
  | invalid {outcome : Outcome} : Shows w handler? copy began false none
      [.entered .validating, .entered .idle] (.done outcome)
  | held {outcome : Outcome} : Shows w handler? copy began false none
      [.entered .validating, .entered .reservationCheck, .entered .idle] (.done outcome)
  | claiming (claims : Claims w copy began) :
      Shows w handler? copy began false none upToClaim (.claiming copy began)
  | losing : Shows w handler? copy began false none upToClaim (.losing copy began)
  | unread {fault : JobFault} {cause : JobError}
      (unread : Job.ofRecord (some (copy.reserve began)) = .error fault) :
      Shows w handler? copy began true none (upToParsing ++ [.entered .failing])
        (.failing (copy.reserve began) cause)
  | unhandled {job : Job} {cause : JobError}
      (read : Job.ofRecord (some (copy.reserve began)) = .ok job)
      (missing : handler? job.jobType = none) :
      Shows w handler? copy began true none (upToDispatching ++ [.entered .failing])
        (.failing (copy.reserve began) cause)
  | handling {job : Job} {handler : η}
      (read : Job.ofRecord (some (copy.reserve began)) = .ok job)
      (found : handler? job.jobType = some handler) :
      Shows w handler? copy began true none
        (upToDispatching ++ [.invoked (.ofJob job w.id) job])
        (.handling (copy.reserve began) (.ofJob job w.id) job handler)
  | failed {job : Job} {handler : η} {verdict : Verdict} {cause : JobError}
      (read : Job.ofRecord (some (copy.reserve began)) = .ok job)
      (found : handler? job.jobType = some handler) (why : verdict ≠ .succeeded) :
      Shows w handler? copy began true (some verdict)
        (upToDispatching ++ [.invoked (.ofJob job w.id) job, .entered .failing])
        (.failing (copy.reserve began) cause)
  | completing {job : Job} {handler : η}
      (read : Job.ofRecord (some (copy.reserve began)) = .ok job)
      (found : handler? job.jobType = some handler) :
      Shows w handler? copy began true (some .succeeded)
        (upToDispatching ++ [.invoked (.ofJob job w.id) job, .entered .completing])
        (.completing (copy.reserve began))
  /-- The last answer of the store puts the worker back to idle. -/
  | ended {granted : Bool} {verdict? : Option Verdict} {seen : List Event} {stage : Stage η}
      {outcome : Outcome} (before : Shows w handler? copy began granted verdict? seen stage)
      (asks : stage.asksStore = true) :
      Shows w handler? copy began granted verdict? (seen ++ [.entered .idle]) (.done outcome)

variable {w : Worker} {handler? : String → Option η} {copy : Record} {began now : Instant}
  {granted : Bool} {verdict? : Option Verdict} {seen : List Event} {stage : Stage η}
  {next : Progress η}

theorem Begun.shows (begun : Begun w began copy next) :
    Shows w handler? copy began false none (shown next.2) next.1 := by
  cases begun with
  | invalid refused => exact .invalid
  | held valid reserved within => exact .held
  | claiming valid free => exact .claiming ⟨valid, free⟩

theorem Dispatched.shows (dispatched : Dispatched w handler? (copy.reserve began) next) :
    Shows w handler? copy began true none (upToClaim ++ shown next.2) next.1 := by
  cases dispatched with
  | unread unread => exact .unread unread
  | unhandled read missing => exact .unhandled read missing
  | handled read found => exact .handling read found

theorem Called.ends [RecordStore σ] {q : Request} {store : σ}
    (called : Called w handler? now store stage next) (asks : stage.request? now = some q)
    (later : ∀ record time, stage ≠ .claiming record time) :
    ∃ outcome, next.1 = .done outcome ∧ shown next.2 = [.entered .idle] ∧
      ∀ answer, (Act.asked q answer).claimed? = none := by
  cases called with
  | unclaimed | beaten | claimed => exact absurd rfl (later _ _)
  | _ =>
    obtain rfl := Option.some.inj asks
    exact ⟨_, rfl, rfl, fun _ => rfl⟩

theorem Shows.call [RecordStore σ] {q : Request} {store : σ}
    (shows : Shows w handler? copy began granted verdict? seen stage)
    (asks : stage.request? now = some q)
    (called : Called w handler? now store stage next) :
    Shows w handler? copy began
      (granted || (Act.asked q (RecordStore.answer now q store).1).claimed?.isSome) verdict?
      (seen ++ shown next.2) next.1 := by
  cases stage with
  | claiming record time =>
    cases shows with
    | claiming claims =>
      obtain rfl := Option.some.inj asks
      cases called with
      | unclaimed answer =>
        rw [answer]
        exact .ended (.claiming claims) rfl
      | beaten answer =>
        rw [answer]
        exact .losing
      | claimed answer =>
        rw [answer]
        exact (dispatched ..).shows
  | handling | done => cases asks
  | _ =>
    obtain ⟨outcome, done, idle, other⟩ := called.ends asks (by simp)
    rw [done, idle, other, Option.isSome_none, Bool.or_false]
    exact .ended shows rfl

theorem Shows.onVerdict {record : Record} {context : Context} {job : Job} {handler : η}
    (verdict : Verdict)
    (shows : Shows w handler? copy began granted verdict? seen
      (.handling record context job handler)) :
    verdict? = none ∧ Shows w handler? copy began granted (some verdict)
      (seen ++ shown (Worker.onVerdict record context verdict : Progress η).2)
      (Worker.onVerdict record context verdict : Progress η).1 := by
  cases shows with
  | handling read found =>
    refine ⟨rfl, ?_⟩
    cases verdict with
    | succeeded => exact .completing read found
    | failed text => exact .failed read found (by simp)
    | panicked text? => exact .failed read found (by simp)

theorem Shows.handler {record : Record} {context : Context} {job : Job} {handler : η}
    (shows : Shows w handler? copy began granted verdict? seen
      (.handling record context job handler)) :
    .invoked context job ∈ seen ∧ handler? job.jobType = some handler := by
  cases shows with
  | handling read found => exact ⟨by simp, found⟩

namespace Run

variable [RecordStore σ] {r : Run η} {deeds : List (Instant × Act)}

theorem shows_of_trace (trace : Trace (Moves σ) (fresh w handler? copy) deeds r) :
    (deeds = [] ∧ r = fresh w handler? copy) ∨
      ∃ began stage, r.Underway w handler? (fun began deeds seen stage =>
        Shows w handler? copy began (Worker.granted deeds) (Worker.verdict? deeds) (shown seen)
          stage) deeds began stage := by
  refine underway_of_trace (fun now => (begun ..).shows) ?_ ?_ trace
  · intro began deeds seen stage now q store shows asks
    rw [granted_snoc, verdict?_snoc, shown_append]
    simpa [Act.verdict?] using
      shows.call asks (called _ _ _ _ (Stage.asksStore_of_request? asks))
  · intro began deeds seen record context job handler now verdict shows
    obtain ⟨unheard, heard⟩ := shows.onVerdict verdict
    rw [granted_snoc, verdict?_snoc, shown_append, unheard]
    simpa [Act.verdict?, Act.claimed?] using heard

end Run

-- ---------------------------------------------------------------------------
-- How a worker conducts itself
-- ---------------------------------------------------------------------------

/-- How a worker conducts itself at a record that it took up at `began`: by whether its claim was
granted, by the verdict on the job, by what is seen and by whether the run is over. -/
structure Conduct (w : Worker) (handler? : String → Option η) (copy : Record) (began : Instant)
    (granted : Bool) (verdict? : Option Verdict) (seen : List Event) (finished : Bool) : Prop where
  path : WorkerState.IsPath (.idle :: statesOf seen)
  round : finished = true → WorkerState.IsRound (.idle :: statesOf seen)
  /-- A record is read exactly if its claim was granted. -/
  parsing : .parsing ∈ statesOf seen ↔ granted = true
  /-- At most one handler is invoked, and it is invoked while dispatching. -/
  once : invokedIn .idle seen = [] ∨ invokedIn .idle seen = [.dispatching]
  invoked (context : Context) (job : Job) : .invoked context job ∈ seen ↔
    granted = true ∧ Job.ofRecord (some (copy.reserve began)) = .ok job ∧
      (handler? job.jobType).isSome ∧ context = .ofJob job w.id
  completing : .completing ∈ statesOf seen ↔ verdict? = some .succeeded
  /-- A failure is that of a claimed record, whether reading it, finding its handler or the handler
  failed. -/
  failing : .failing ∈ statesOf seen ↔
    granted = true ∧ (mishap? handler? (copy.reserve began) verdict?).isSome
  panicked (text? : Option String) : verdict? = some (.panicked text?) →
    .failing ∈ statesOf seen

theorem Conduct.of_shown {finished : Bool}
    (conduct : Conduct w handler? copy began granted verdict? (shown seen) finished) :
    Conduct w handler? copy began granted verdict? seen finished := by
  obtain ⟨path, round, parsing, once, invoked, completing, failing, panicked⟩ := conduct
  simp only [statesOf_shown, invokedIn_shown, invoked_mem_shown] at *
  exact ⟨path, round, parsing, once, invoked, completing, failing, panicked⟩

theorem invoked_iff {job : Job} {handler : η} (found : handler? job.jobType = some handler)
    {context : Context} {other : Job} : context = .ofJob job w.id ∧ other = job ↔
      job = other ∧ (handler? other.jobType).isSome ∧ context = .ofJob other w.id := by
  constructor
  · rintro ⟨rfl, rfl⟩
    exact ⟨rfl, by simp [found], rfl⟩
  · rintro ⟨rfl, -, rfl⟩
    exact ⟨rfl, rfl⟩

/-- Before a run asks its store for the last time, it may go to idle, and was not there since it
began. -/
theorem Shows.mayEnd (shows : Shows w handler? copy began granted verdict? seen stage)
    (asks : stage.asksStore = true) :
    .idle ∉ statesOf seen ∧ ∀ s ∈ (.idle :: statesOf seen).getLast?, .idle ∈ s.next := by
  cases shows with
  | invalid | held | handling | ended => cases asks
  | _ => simp [WorkerState.next]

theorem outcome?_of_asksStore (asks : stage.asksStore = true) : stage.outcome? = none := by
  cases stage with
  | done => cases asks
  | _ => rfl

theorem Conduct.ended (conduct : Conduct w handler? copy began granted verdict? seen false)
    (away : .idle ∉ statesOf seen)
    (last : ∀ s ∈ (.idle :: statesOf seen).getLast?, .idle ∈ s.next) :
    Conduct w handler? copy began granted verdict? (seen ++ [.entered .idle]) true := by
  have states : statesOf (seen ++ [.entered .idle]) = statesOf seen ++ [.idle] := statesOf_append
  have entered {state : WorkerState} (other : state ≠ .idle) :
      state ∈ statesOf (seen ++ [.entered .idle]) ↔ state ∈ statesOf seen := by
    simp [states, other]
  have path : WorkerState.IsPath (.idle :: statesOf (seen ++ [.entered .idle])) := by
    rw [states, ← List.cons_append]
    exact List.isChain_append.mpr ⟨conduct.path, .singleton _, by simpa using last⟩
  exact
    { path
      round := fun _ => ⟨path, statesOf seen, away, congrArg _ states⟩
      parsing := (entered (by decide)).trans conduct.parsing
      once := by
        rw [invokedIn_snoc]
        exact conduct.once
      invoked := fun context job => by simpa using conduct.invoked context job
      completing := (entered (by decide)).trans conduct.completing
      failing := (entered (by decide)).trans conduct.failing
      panicked := fun text? said => (entered (by decide)).mpr (conduct.panicked text? said) }

theorem Shows.conduct (shows : Shows w handler? copy began granted verdict? seen stage) :
    Conduct w handler? copy began granted verdict? seen stage.outcome?.isSome := by
  induction shows with
  | invalid =>
    have before : Conduct w handler? copy began false none [.entered .validating] false := by
      constructor <;> simp [WorkerState.next]
    exact before.ended (by simp) (by simp [WorkerState.next])
  | held =>
    have before : Conduct w handler? copy began false none
        [.entered .validating, .entered .reservationCheck] false := by
      constructor <;> simp [WorkerState.next]
    exact before.ended (by simp) (by simp [WorkerState.next])
  | claiming | losing => constructor <;> simp [WorkerState.next, Stage.outcome?]
  | unread unread => constructor <;> simp [WorkerState.next, Stage.outcome?, mishap?, unread]
  | unhandled read missing =>
    constructor <;> simp [WorkerState.next, Stage.outcome?, mishap?, read, missing]
  | handling read found =>
    constructor <;> simp [WorkerState.next, Stage.outcome?, mishap?, read, found, invoked_iff found]
  | @failed job handler verdict cause read found why =>
    have failed : verdict.cause?.isSome := by
      cases verdict with
      | succeeded => exact absurd rfl why
      | failed | panicked => rfl
    constructor <;>
      simp [WorkerState.next, Stage.outcome?, mishap?, read, found, invoked_iff found, why, failed]
  | completing read found =>
    constructor <;>
      simp [WorkerState.next, Stage.outcome?, mishap?, Verdict.cause?, read, found,
        invoked_iff found]
  | ended before asks ih =>
    obtain ⟨away, last⟩ := before.mayEnd asks
    rw [outcome?_of_asksStore asks] at ih
    exact ih.ended away last

namespace Run

theorem conduct_of_trace [RecordStore σ] {r : Run η} {deeds : List (Instant × Act)}
    (trace : Trace (Moves σ) (fresh w handler? copy) deeds r) (begun : deeds ≠ []) :
    ∃ began rest, deeds = (began, .begun) :: rest ∧ Conduct w handler? copy began
      (Worker.granted deeds) (Worker.verdict? deeds) r.seen r.outcome?.isSome := by
  rcases shows_of_trace trace with ⟨rfl, -⟩ | ⟨began, stage, ⟨rest, begins⟩, -, -, at_, shows⟩
  · exact absurd rfl begun
  · refine ⟨began, rest, begins, ?_⟩
    have finished : r.outcome?.isSome = stage.outcome?.isSome := by simp [outcome?, at_]
    exact finished ▸ shows.conduct.of_shown

end Run

-- ---------------------------------------------------------------------------
-- A worker at its desk
-- ---------------------------------------------------------------------------

section
variable {handler? : String → Option (Handler σ)} {r r' : Run (Handler σ)}
  {desk desk' : Desk σ} {deeds : List (Instant × Act)}

theorem shown_carryOut {plan : List (Action σ)} :
    shown (carryOut desk plan).2.seen = shown desk.seen := by
  have unseen (seen : List Event) (logged? : Option Log.Entry) :
      shown (seen ++ (logged?.map Event.logged).toList) = shown seen := by
    rw [shown_append]
    cases logged? <;> simp [shown, Event.isShown]
  induction plan generalizing desk with
  | nil => rfl
  | cons action rest ih =>
    cases action with
    | stop verdict => exact unseen _ none
    | _ => exact ih.trans (unseen _ _)

variable [RecordStore σ]

theorem Run.Works.shown {here there : Run (Handler σ) × Desk σ} {deed : Instant × Act}
    (works : Works here deed there) : ∃ more, there.1.seen = here.1.seen ++ more ∧
      shown there.2.seen = shown here.2.seen ++ Worker.shown more := by
  cases works with
  | begin h => exact ⟨_, rfl, shown_append⟩
  | ask h asks => exact ⟨_, rfl, shown_append⟩
  | handle h => exact ⟨_, rfl, shown_append.trans (congrArg (· ++ _) shown_carryOut)⟩

theorem shown_of_works {here there : Run (Handler σ) × Desk σ}
    (trace : Trace Run.Works here deeds there) (fresh : here.1.seen = []) :
    shown there.2.seen = shown here.2.seen ++ shown there.1.seen := by
  induction trace with
  | nil =>
    rw [fresh]
    exact (List.append_nil _).symm
  | snoc _ last ih =>
    obtain ⟨more, run, desk⟩ := last.shown
    rw [desk, run, ih, shown_append, List.append_assoc]

theorem verdict_of_works {here : Run (Handler σ) × Desk σ} {verdict : Verdict}
    (trace : Trace Run.Works (Run.fresh w handler? copy, desk) deeds here)
    (said : Worker.verdict? deeds = some verdict) :
    ∃ context job handler, .invoked context job ∈ here.1.seen ∧
      handler? job.jobType = some handler ∧ verdict = verdictOf (handler.plan context job) := by
  induction trace with
  | nil => cases said
  | snoc before last ih =>
    obtain ⟨more, run, -⟩ := last.shown
    rw [verdict?_snoc, Option.or_eq_some_iff] at said
    rcases said with earlier | ⟨-, now⟩
    · obtain ⟨context, job, handler, invoked, found, said⟩ := ih earlier
      exact ⟨context, job, handler, run ▸ List.mem_append_left _ invoked, found, said⟩
    · cases last with
      | begin => cases now
      | ask => cases now
      | @handle r desk record context job handler at_ =>
        have moves : Trace (Run.Moves σ) (Run.fresh w handler? copy) _ r :=
          before.image (f := Prod.fst) Run.Works.moves
        rcases Run.shows_of_trace moves with ⟨-, rfl⟩ | ⟨began, stage, underway⟩
        · cases at_
        · obtain rfl := Option.some.inj (underway.stage_eq.symm.trans at_)
          obtain ⟨invoked, found⟩ := underway.kept.handler
          have invoked := invoked_mem_shown.mp invoked
          refine ⟨context, job, handler, List.mem_append_left _ invoked, found, ?_⟩
          exact (Option.some.inj now).symm.trans verdict_carryOut

structure Attempt (w : Worker) (handler? : String → Option (Handler σ)) (copy : Record)
    (desk : Desk σ) (deeds : List (Instant × Act)) (r : Run (Handler σ)) : Prop where
  works : Trace Run.Works (Run.fresh w handler? copy, desk) deeds
    (r, (w.process handler? copy desk).2)
  outcome : r.outcome? = some (w.process handler? copy desk).1
  conduct : Conduct w handler? copy desk.clock.now (Worker.granted deeds) (Worker.verdict? deeds)
    r.seen true
  /-- The verdict is the one that the plan of the handler comes to. -/
  verdict (verdict : Verdict) : Worker.verdict? deeds = some verdict →
    ∃ context job handler, .invoked context job ∈ r.seen ∧
      handler? job.jobType = some handler ∧ verdict = verdictOf (handler.plan context job)
  seen : Worker.shown (w.process handler? copy desk).2.seen =
    Worker.shown desk.seen ++ Worker.shown r.seen

theorem exists_attempt (w : Worker) (handler? : String → Option (Handler σ)) (copy : Record)
    (desk : Desk σ) : ∃ deeds r, Attempt w handler? copy desk deeds r := by
  obtain ⟨deeds, r, works, outcome⟩ := works_process w handler? copy desk
  have moves : Trace (Run.Moves σ) (Run.fresh w handler? copy) _ r :=
    works.image (f := Prod.fst) Run.Works.moves
  obtain ⟨began, rest, begins, conduct⟩ := Run.conduct_of_trace moves (List.cons_ne_nil _ _)
  obtain ⟨rfl, -⟩ := Prod.mk.inj (List.cons.inj begins).1
  exact ⟨_, r,
    { works
      outcome
      conduct := by simpa [outcome] using conduct
      verdict := fun _ => verdict_of_works works
      seen := shown_of_works works rfl }⟩

end

/-- A worker follows its states. At every moment of every run, whatever the store answers, whoever
else writes to it and whatever the handler says, it conducts itself by what it was granted and told;
at a desk each of its attempts is such a run, and one attempt after another leaves it idle. -/
theorem follows_states [RecordStore σ] (w : Worker) (handler? : String → Option (Handler σ)) :
    (∀ copy deeds (r : Run (Handler σ)), deeds ≠ [] →
      Trace (Run.Moves σ) (Run.fresh w handler? copy) deeds r →
      ∃ began rest, deeds = (began, .begun) :: rest ∧ Conduct w handler? copy began
        (Worker.granted deeds) (Worker.verdict? deeds) r.seen r.outcome?.isSome) ∧
    (∀ copy (desk : Desk σ), ∃ deeds r, Attempt w handler? copy desk deeds r) ∧
    ∀ copies (desk : Desk σ), ∃ rounds : List (List WorkerState),
      rounds.length = copies.length ∧ (∀ round ∈ rounds, WorkerState.IsRound (.idle :: round)) ∧
      statesOf (w.processEach handler? copies desk).2.seen =
        statesOf desk.seen ++ rounds.flatten := by
  refine ⟨fun copy deeds r begun trace => Run.conduct_of_trace trace begun,
    exists_attempt w handler?, fun copies => ?_⟩
  induction copies with
  | nil => exact fun desk => ⟨[], rfl, by simp, (List.append_nil _).symm⟩
  | cons copy rest ih =>
    intro desk
    obtain ⟨deeds, r, attempt⟩ := exists_attempt w handler? copy desk
    obtain ⟨rounds, length, all, states⟩ := ih (w.process handler? copy desk).2
    have first : statesOf (w.process handler? copy desk).2.seen =
        statesOf desk.seen ++ statesOf r.seen := by
      rw [← statesOf_shown, attempt.seen, statesOf_append, statesOf_shown, statesOf_shown]
    refine ⟨statesOf r.seen :: rounds, by simp [length], ?_, ?_⟩
    · exact List.forall_mem_cons.mpr ⟨attempt.conduct.round rfl, all⟩
    · rw [processEach, states, first, List.flatten_cons, List.append_assoc]

/-- A handler that sleeps, and panics then; letters succeed. -/
def uneasy (type : String) : Option (Handler MemoryStore) :=
  if type = "trap" then some ⟨fun _ _ => [.sleep (.ofSeconds 1), .stop (.panicked (some "snap"))]⟩
  else if type = "letter" then some ⟨fun _ _ => []⟩
  else none

/-- After a panic the worker goes on to the next record. -/
theorem follows_states_panicked :
    let w : Worker := ⟨0, defaultWindow⟩
    let trap : Record :=
      ⟨"a", queueCollection, "\x7b\"type\":\"trap\"\x7d", 0, none, .epoch, .epoch⟩
    let letter : Record :=
      ⟨"b", queueCollection, "\x7b\"type\":\"letter\"\x7d", 0, none, .epoch, .epoch⟩
    let desk : Desk MemoryStore := .ofStore ((Keyed.empty.put trap).put letter) (.startingAt .epoch)
    statesOf (w.processEach uneasy [trap, letter] desk).2.seen =
      [.validating, .reservationCheck, .reserving, .parsing, .dispatching, .failing, .idle,
        .validating, .reservationCheck, .reserving, .parsing, .dispatching, .completing, .idle] ∧
    ∃ deeds r, deeds ≠ [] ∧ Trace (Run.Moves MemoryStore) (Run.fresh w uneasy trap) deeds r ∧
      r.outcome? = some (.error (.handlerPanicked "snap")) ∧ Worker.granted deeds = true ∧
      WorkerState.IsRound (.idle :: statesOf r.seen) := by
  intro w trap letter desk
  refine ⟨by decide +kernel, ?_⟩
  obtain ⟨deeds, r, works, outcome⟩ := works_process w uneasy trap desk
  have moves : Trace (Run.Moves MemoryStore) (Run.fresh w uneasy trap) _ r :=
    works.image (f := Prod.fst) Run.Works.moves
  have begun : (desk.clock.now, Act.begun) :: deeds ≠ [] := List.cons_ne_nil _ _
  obtain ⟨began, rest, -, conduct⟩ := (follows_states w uneasy).1 trap _ r begun moves
  have panicked : (w.process uneasy trap desk).1 = .error (.handlerPanicked "snap") := by
    decide +kernel
  rw [panicked] at outcome
  have states : statesOf (w.process uneasy trap desk).2.seen = statesOf r.seen := by
    rw [← statesOf_shown, shown_of_works works rfl]
    exact statesOf_shown
  have parsed : .parsing ∈ statesOf r.seen := states ▸ by decide +kernel
  exact ⟨_, r, begun, moves, outcome, conduct.parsing.mp parsed, conduct.round (by simp [outcome])⟩

end Worker

end JobQueue
