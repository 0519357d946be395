import JobQueue.Proofs.Trace
import JobQueue.Proofs.Worker.Steps
import JobQueue.Store.Memory

/-!
# Shifts

Several runs of workers over one store, one step at a time. A step takes a record up, asks the
store one thing, or brings a handler's verdict; which run moves next, what time it reads and
what its handler says is left open. Nobody but the runs writes to the store.

`Run.Step.change` says once, for the store in memory, all that a step can do.
-/

namespace JobQueue

open Time (Instant)

namespace Worker

variable {σ η : Type}

def Stage.request? (now : Instant) : Stage η → Option Request
  | claiming record time => some (.reserve record.id record.reservedAt time)
  | losing record _ => some (.get record.id)
  | completing record => some (.delete record.id)
  | failing record _ => some (.recordFailure record.id now)
  | handling _ _ _ _ | done _ => none

theorem Stage.asksStore_of_request? {stage : Stage η} {now : Instant} {q : Request}
    (asks : stage.request? now = some q) : stage.asksStore = true := by
  cases stage with
  | handling | done => cases asks
  | _ => rfl

def Event.isInvocation : Event → Bool
  | invoked _ _ => true
  | _ => false

/-- Whether a stage lies between the claim and the write that ends the run. -/
def Stage.isHolding : Stage η → Bool
  | handling _ _ _ _ | completing _ | failing _ _ => true
  | claiming _ _ | losing _ _ | done _ => false

def Stage.isHandling : Stage η → Bool
  | handling _ _ _ _ => true
  | _ => false

def Stage.outcome? : Stage η → Option Outcome
  | done outcome => some outcome
  | _ => none

-- ---------------------------------------------------------------------------
-- Invocations
-- ---------------------------------------------------------------------------

section
variable {w : Worker} {handler? : String → Option η} {now : Instant} {record : Record}
  {next : Progress η}

theorem Begun.countP (begun : Begun w now record next) :
    next.2.countP Event.isInvocation = next.1.isHandling.toNat := by
  cases begun <;> rfl

theorem Dispatched.countP (dispatched : Dispatched w handler? record next) :
    next.2.countP Event.isInvocation = next.1.isHandling.toNat := by
  cases dispatched <;> rfl

theorem countP_onVerdict {context : Context} {verdict : Verdict} :
    (onVerdict record context verdict : Progress η).2.countP Event.isInvocation =
      (onVerdict record context verdict : Progress η).1.isHandling.toNat := by
  cases verdict <;> rfl

theorem Called.countP [RecordStore σ] {stage : Stage η} {store : σ}
    (called : Called w handler? now store stage next) :
    next.2.countP Event.isInvocation = next.1.isHandling.toNat := by
  cases called with
  | claimed => exact (dispatched ..).countP
  | _ => rfl

end

-- ---------------------------------------------------------------------------
-- Runs
-- ---------------------------------------------------------------------------

structure Run (η : Type) where
  worker : Worker
  /-- The handlers as they are registered when the run looks for its own. -/
  handler? : String → Option η
  copy : Record
  /-- How far the run is; nothing before it has begun. -/
  stage : Option (Stage η)
  seen : List Event

inductive Act
  | begun
  | asked (q : Request) (answer : Except StoreError q.Answer)
  | judged (verdict : Verdict)

namespace Act

def claimed? : Act → Option (String × Instant)
  | asked (.reserve id _ time) (.ok true) => some (id, time)
  | _ => none

def counted? : Act → Option String
  | asked (.recordFailure id _) (.ok _) => some id
  | _ => none

end Act

namespace Run

def fresh (worker : Worker) (handler? : String → Option η) (copy : Record) : Run η :=
  ⟨worker, handler?, copy, none, []⟩

def goOn (r : Run η) (next : Progress η) : Run η :=
  { r with stage := some next.1, seen := r.seen ++ next.2 }

def isHolding (r : Run η) : Bool := r.stage.any Stage.isHolding

def outcome? (r : Run η) : Option Outcome := r.stage.bind Stage.outcome?

def succeeded (r : Run η) : Bool := r.outcome? = some (.ok ())

def isRetryable (r : Run η) : Bool :=
  match r.outcome? with
  | some (.error e) => e.isRetryable
  | _ => false

def invocations (r : Run η) : Nat := r.seen.countP Event.isInvocation

inductive Step [RecordStore σ] (now : Instant) (s : σ) (r : Run η) : Act → Run η → σ → Prop
  | begin (h : r.stage = none) : Step now s r .begun (r.goOn (r.worker.begin now r.copy)) s
  | ask {stage : Stage η} {q : Request} (h : r.stage = some stage)
      (hq : stage.request? now = some q) :
      Step now s r (.asked q (RecordStore.answer now q s).1)
        (r.goOn (r.worker.call r.handler? now stage s).1) (r.worker.call r.handler? now stage s).2
  | judge {record : Record} {context : Context} {job : Job} {handler : η} (verdict : Verdict)
      (h : r.stage = some (.handling record context job handler)) :
      Step now s r (.judged verdict) (r.goOn (onVerdict record context verdict)) s

end Run

end Worker

structure Deed where
  run : Nat
  time : Instant
  act : Worker.Act

structure Shift (σ η : Type) where
  store : σ
  runs : List (Worker.Run η)

namespace Shift

variable {σ η : Type}

inductive Step [RecordStore σ] : Shift σ η → Deed → Shift σ η → Prop
  | of {sh : Shift σ η} {i : Nat} {r r' : Worker.Run η} {now : Instant} {act : Worker.Act} {s : σ}
      (h : sh.runs[i]? = some r) (hs : r.Step now sh.store act r' s) :
      Step sh ⟨i, now, act⟩ ⟨s, sh.runs.set i r'⟩

def IsFresh (sh : Shift σ η) : Prop := ∀ r ∈ sh.runs, r.stage = none

instance (sh : Shift σ η) : Decidable sh.IsFresh :=
  inferInstanceAs (Decidable (∀ r ∈ sh.runs, r.stage = none))

def IsOver (sh : Shift σ η) : Prop := ∀ r ∈ sh.runs, r.outcome?.isSome

instance (sh : Shift σ η) : Decidable sh.IsOver :=
  inferInstanceAs (Decidable (∀ r ∈ sh.runs, r.outcome?.isSome = true))

def runsOn (sh : Shift σ η) (id : String) : List (Worker.Run η) :=
  sh.runs.filter fun r => r.copy.id = id

end Shift

namespace Worker.Run

variable {η : Type} {r : Run η} {next : Progress η}

@[simp] theorem copy_goOn : (r.goOn next).copy = r.copy := rfl

@[simp] theorem worker_goOn : (r.goOn next).worker = r.worker := rfl

@[simp] theorem handler?_goOn : (r.goOn next).handler? = r.handler? := rfl

@[simp] theorem stage_goOn : (r.goOn next).stage = some next.1 := rfl

@[simp] theorem isHolding_goOn : (r.goOn next).isHolding = next.1.isHolding := rfl

@[simp] theorem outcome?_goOn : (r.goOn next).outcome? = next.1.outcome? := rfl

theorem succeeded_of_outcome?_none (h : r.outcome? = none) : r.succeeded = false := by
  simp [succeeded, h]

theorem isHolding_of_outcome? (h : r.outcome?.isSome) : r.isHolding = false := by
  cases hs : r.stage with
  | none => simp [outcome?, hs] at h
  | some stage => cases stage <;> simp [outcome?, isHolding, hs, Stage.outcome?, Stage.isHolding] at h ⊢

theorem isRetryable_of_outcome?_none (h : r.outcome? = none) : r.isRetryable = false := by
  simp [isRetryable, h]

section
variable {σ : Type} [RecordStore σ] {r' : Run η} {now : Instant} {s s' : σ} {act : Act}

theorem Step.copy_eq (step : r.Step now s act r' s') : r'.copy = r.copy := by
  cases step <;> rfl

theorem Step.worker_eq (step : r.Step now s act r' s') : r'.worker = r.worker := by
  cases step <;> rfl

theorem Step.handler?_eq (step : r.Step now s act r' s') : r'.handler? = r.handler? := by
  cases step <;> rfl

/-- A handler is invoked exactly by the step that leads to it. -/
theorem Step.invocations (step : r.Step now s act r' s') :
    r'.invocations = r.invocations + (r'.stage.any Stage.isHandling).toNat := by
  have tells {next : Progress η} (h : next.2.countP Event.isInvocation = next.1.isHandling.toNat) :
      (r.goOn next).invocations =
        r.invocations + ((r.goOn next).stage.any Stage.isHandling).toNat := by
    simp [Run.invocations, goOn, h]
  cases step with
  | begin h => exact tells (begun ..).countP
  | ask h asks => exact tells (called _ _ _ _ (Stage.asksStore_of_request? asks)).countP
  | judge verdict h => exact tells countP_onVerdict

end

end Worker.Run

namespace Shift

variable {σ η : Type} {sh sh' : Shift σ η} {i : Nat} {r r' : Worker.Run η} {id : String}
  {p : Worker.Run η → Bool}

theorem length_runs [RecordStore σ] {deeds : List Deed} (trace : Trace Step sh deeds sh') :
    sh'.runs.length = sh.runs.length := by
  induction trace with
  | nil => rfl
  | snoc _ last ih =>
    cases last with
    | of => rw [List.length_set, ih]

theorem Step.forall_mem [RecordStore σ] {P : Worker.Run η → Prop} {d : Deed} (step : Step sh d sh')
    (all : ∀ r ∈ sh.runs, P r)
    (keep : ∀ {r r'}, P r → r.Step d.time sh.store d.act r' sh'.store → P r') :
    ∀ r ∈ sh'.runs, P r := by
  cases step with
  | of h hs =>
    intro r hr
    rcases List.mem_or_eq_of_mem_set hr with hr | rfl
    · exact all r hr
    · exact keep (all _ (List.mem_of_getElem? h)) hs

theorem getElem?_moved (h : sh.runs[i]? = some r) (moved : sh'.runs = sh.runs.set i r') (j : Nat) :
    sh'.runs[j]? = if i = j then some r' else sh.runs[j]? := by
  rw [moved, List.getElem?_set, if_pos (List.getElem?_eq_some_iff.mp h).1]

/-- The runs of a shift keep their places, their workers and handlers, and their copies. -/
theorem origin [RecordStore σ] {deeds : List Deed} (trace : Trace Step sh deeds sh')
    (h : sh'.runs[i]? = some r) : ∃ r₀, sh.runs[i]? = some r₀ ∧ r.copy = r₀.copy ∧
      r.worker = r₀.worker ∧ r.handler? = r₀.handler? := by
  induction trace generalizing r with
  | nil => exact ⟨r, h, rfl, rfl, rfl⟩
  | snoc _ last ih =>
    cases last with
    | of at_ hs =>
      rw [getElem?_moved at_ rfl] at h
      split at h
      · next same =>
        subst same
        obtain rfl := Option.some.inj h
        rw [hs.copy_eq, hs.worker_eq, hs.handler?_eq]
        exact ih at_
      · exact ih h

theorem countP_runsOn_other (h : sh.runs[i]? = some r) (moved : sh'.runs = sh.runs.set i r')
    (copy : r'.copy = r.copy) (other : r.copy.id ≠ id) :
    (sh'.runsOn id).countP p = (sh.runsOn id).countP p := by
  obtain ⟨hi, rfl⟩ := List.getElem?_eq_some_iff.mp h
  simp [runsOn, moved, List.countP_filter, List.countP_set, hi, copy, other]

theorem countP_runsOn_same (h : sh.runs[i]? = some r) (moved : sh'.runs = sh.runs.set i r')
    (copy : r'.copy = r.copy) (same : r.copy.id = id) :
    (sh'.runsOn id).countP p + (p r).toNat = (sh.runsOn id).countP p + (p r').toNat := by
  obtain ⟨hi, rfl⟩ := List.getElem?_eq_some_iff.mp h
  have counted : (p sh.runs[i]).toNat ≤ (sh.runsOn id).countP p := by
    cases hp : p sh.runs[i] with
    | false => exact Nat.zero_le _
    | true =>
      exact List.countP_pos_iff.mpr
        ⟨_, List.mem_filter.mpr ⟨List.getElem_mem hi, by simpa using same⟩, hp⟩
  simp only [runsOn, List.countP_filter] at counted ⊢
  rw [moved, List.countP_set hi]
  simp only [copy, same, decide_true, Bool.and_true]
  cases hp : p sh.runs[i] <;> cases p r' <;>
    simp only [hp, Bool.toNat_true, Bool.toNat_false, Bool.false_eq_true, ↓reduceIte]
      at counted ⊢ <;> omega

end Shift

end JobQueue
