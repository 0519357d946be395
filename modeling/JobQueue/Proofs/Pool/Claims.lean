import JobQueue.Proofs.Pool.Course
import JobQueue.Proofs.Store.Calls

/-!
# Claims in a pool

A run that gets anywhere with its record has claimed it: `Stage.IsBacked` says so of each stage, and
every move of a pool on its store keeps it. So a worker that came to the end of an attempt made a
claim that the store granted (`Watched.backed_of_trace`).
-/

namespace JobQueue

open Time (Instant)
open Pool (Beat Move Event)
open RecordStore (reply)

/-- Whether an outcome is that of an attempt: the job is done, or its failure was counted. -/
def Outcome.isAttempt : Outcome → Bool
  | .ok () => true
  | .error e => e.isRetryable

namespace Worker

variable {η : Type} {w : Worker} {handler? : String → Option η} {now : Instant} {copy : Record}
  {stage : Stage η} {next : Progress η} {claimed : Prop}

/-- Whether a run on a copy has claimed it, at a stage that it comes to only with a claim. -/
def Stage.IsBacked (copy : Record) (claimed : Prop) : Stage η → Prop
  | claiming record _ => record = copy
  | losing _ _ => True
  | handling _ _ _ _ | completing _ | failing _ _ => claimed
  | done outcome => outcome.isAttempt = true → claimed

theorem Stage.IsBacked.mono {claimed' : Prop} (wider : claimed → claimed')
    (backed : stage.IsBacked copy claimed) : stage.IsBacked copy claimed' := by
  cases stage with
  | claiming | losing => exact backed
  | handling | completing | failing => exact wider backed
  | done => exact fun attempt => wider (backed attempt)

theorem isBacked_done {e : JobError} (refused : e.isRetryable = false) :
    (Stage.done (.error e) : Stage η).IsBacked copy claimed := by
  intro attempt
  cases refused.symm.trans attempt

theorem Begun.isBacked (begun : Begun w now copy next) : next.1.IsBacked copy claimed := by
  cases begun with
  | invalid | held => exact isBacked_done rfl
  | claiming => rfl

theorem Dispatched.isBacked {record : Record} (dispatched : Dispatched w handler? record next)
    (holds : claimed) : next.1.IsBacked copy claimed := by
  cases dispatched <;> exact holds

theorem isBacked_onVerdict {record : Record} {context : Context} {verdict : Verdict}
    (holds : claimed) : (onVerdict record context verdict : Progress η).1.IsBacked copy claimed := by
  cases verdict <;> exact holds

theorem Called.isBacked {σ : Type} [RecordStore σ] {s : σ}
    (called : Called w handler? now s stage next)
    (backed : stage.IsBacked copy claimed) :
    next.1.IsBacked copy (claimed ∨ (∃ time, stage = .claiming copy time ∧
      reply s ⟨now, .reserve copy.id copy.reservedAt time⟩ = .ok true)) := by
  cases called with
  | unclaimed | lost => exact isBacked_done rfl
  | beaten => trivial
  | @claimed record time answer =>
    obtain rfl : record = copy := backed
    exact (dispatched ..).isBacked (.inr ⟨time, rfl, answer⟩)
  | deleted | undeleted | counted | uncounted => exact fun _ => .inl backed

end Worker

-- ---------------------------------------------------------------------------
-- Runs of a workshop
-- ---------------------------------------------------------------------------

namespace Workshop

variable {σ : Type} [RecordStore σ] {ws ws' : Workshop σ} {b : Beat} {beats more : List Beat}
  {id : String}

/-- Whether a move has a worker claim a record, and the store grants the claim. -/
def Claims (ws : Workshop σ) (b : Beat) (id : String) : Prop :=
  ∃ seat batch jobId copy time plan, b.move = .work seat ∧
    ws.pool.seats[seat]? = some (.working batch jobId (.claiming copy time) plan) ∧ copy.id = id ∧
    reply ws.store ⟨b.time, .reserve id copy.reservedAt time⟩ = .ok true

def ClaimsIn (ws : Workshop σ) (beats : List Beat) (id : String) : Prop :=
  ∃ before b after ws', beats = before ++ b :: after ∧ Trace Step ws before ws' ∧ ws'.Claims b id

theorem ClaimsIn.append (claims : ws.ClaimsIn beats id) : ws.ClaimsIn (beats ++ more) id := by
  obtain ⟨before, b, after, ws', rfl, trace, claims⟩ := claims
  exact ⟨before, b, after ++ more, ws', by simp, trace, claims⟩

theorem Claims.claimsIn (claims : ws'.Claims b id) (trace : Trace Step ws beats ws') :
    ws.ClaimsIn (beats ++ [b]) id :=
  ⟨beats, b, [], ws', rfl, trace, claims⟩

end Workshop

/-- Whether each run of a worker has claimed its record, if it has come to where that takes it. -/
def Floor.IsBacked {σ : Type} (f : Floor σ) (claimed : String → Prop) : Prop :=
  ∀ d ∈ f.duties, ∃ stage, d.run.stage = some stage ∧
    stage.IsBacked d.run.copy (claimed d.run.copy.id)

namespace Watched

variable {σ : Type} [RecordStore σ] {w : Watched σ} {f : Floor σ} {now : Instant} {s s' : σ}
  {m : Move} {claimed : String → Prop} {x y : Watched σ × σ} {beats : List Beat}
  {seat batch : Nat} {jobId : String} {stage next : Worker.Stage (Handler σ)}
  {plan : List (Action σ)} {verdict : Verdict}

theorem isBacked_goOn (manned : w.floor.IsManned) (backed : w.floor.IsBacked claimed)
    {claims : String → Prop} (wider : ∀ id, claimed id → claims id)
    (works : w.floor.seats[seat]? = some (.working batch jobId stage plan))
    (moves : ∀ d ∈ w.floor.duties, d.seat = seat → d.run.stage = some stage →
      stage.IsBacked d.run.copy (claimed d.run.copy.id) →
        ∃ next, (d.run.next now verdict s).stage = some next ∧
          next.IsBacked d.run.copy (claims d.run.copy.id))
    (duties : f.duties = w.floor.duties.map (Duty.goOn seat now verdict s)) :
    f.IsBacked claims := by
  intro d' listed
  rw [duties] at listed
  obtain ⟨d, member, rfl⟩ := List.mem_map.mp listed
  obtain ⟨stage', there, holds⟩ := backed d member
  rcases manned.goOn_cases works member with same | ⟨its, _, here⟩
  · rw [same]
    exact ⟨stage', there, holds.mono (wider _)⟩
  · obtain rfl := Option.some.inj (there.symm.trans here)
    rw [Duty.copy_goOn, Duty.run_goOn its]
    exact moves d member its here holds

theorem Change.isBacked (change : w.Change now s m f s') (manned : w.floor.IsManned)
    (backed : w.floor.IsBacked claimed) (notice : Option Notice) (events : List Event) :
    f.IsBacked fun id =>
      claimed id ∨ (⟨w.pool, s⟩ : Workshop σ).Claims ⟨now, m, notice, events⟩ id := by
  have kept (d : Duty σ) (member : d ∈ w.floor.duties) : ∃ stage, d.run.stage = some stage ∧
      stage.IsBacked d.run.copy (claimed d.run.copy.id ∨
        (⟨w.pool, s⟩ : Workshop σ).Claims ⟨now, m, notice, events⟩ d.run.copy.id) := by
    obtain ⟨stage, there, holds⟩ := backed d member
    exact ⟨stage, there, holds.mono .inl⟩
  cases change with
  | took free first its there =>
    intro d listed
    rcases List.mem_append.mp listed with old | new
    · exact kept d old
    · obtain rfl := List.mem_singleton.mp new
      subst its
      exact ⟨_, rfl, (Worker.begun ..).isBacked⟩
  | @asked seat batch jobId stage plan _ works asks =>
    refine isBacked_goOn manned backed (fun _ => .inl) works (fun d member its there holds => ?_) rfl
    refine ⟨_, manned.stage_asked asks member its there, ?_⟩
    refine ((Worker.called _ _ _ _ asks).isBacked holds).mono (Or.imp_right ?_)
    rintro ⟨time, rfl, granted⟩
    exact ⟨seat, batch, jobId, d.run.copy, time, plan, rfl, works, rfl, granted⟩
  | judged works =>
    refine isBacked_goOn manned backed (fun _ => .inl) works (fun d _ _ there holds => ?_) rfl
    exact ⟨_, congrArg _ (Worker.Run.next_judge there), Worker.isBacked_onVerdict (.inl holds)⟩
  | _ => exact kept

/-- A worker that came to the end of an attempt in a run had its claim granted in the run. -/
theorem backed_of_trace (trace : Trace StepOn x beats y) (manned : x.1.floor.IsManned)
    (fresh : x.1.duties = []) : y.1.floor.IsManned ∧
      y.1.floor.IsBacked ((⟨x.1.pool, x.2⟩ : Workshop σ).ClaimsIn beats) := by
  induction trace with
  | nil =>
    refine ⟨manned, fun d member => ?_⟩
    have member : d ∈ x.1.duties := member
    rw [fresh] at member
    cases member
  | @snoc y z beats b before last ih =>
    obtain ⟨manned, backed⟩ := ih
    have run : Trace Workshop.Step ⟨x.1.pool, x.2⟩ beats ⟨y.1.pool, y.2⟩ := by
      refine before.image (f := fun x => (⟨x.1.pool, x.2⟩ : Workshop σ)) ?_
      rintro _ _ _ ⟨h⟩
      exact .of (step?_eq_some_iff.mp h).1
    cases last with
    | of h =>
      have change := change_of_step? h
      refine ⟨change.isManned manned, fun d member => ?_⟩
      obtain ⟨stage, there, holds⟩ := change.isBacked manned backed _ _ d member
      refine ⟨stage, there, holds.mono ?_⟩
      rintro (earlier | now)
      · exact earlier.append
      · exact now.claimsIn run

end Watched

end JobQueue
