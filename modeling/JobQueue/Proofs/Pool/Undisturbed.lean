import JobQueue.Proofs.Pool.Sequential
import JobQueue.Proofs.Pool.Service

/-!
# Pools that nobody disturbs

What holds in a pool while no caller moves and no wait runs out: the workers stay
(`Floor.IsServing`), every report of a batch is the end of a run (`Floor.AllEnded`), each worker
comes to the verdict of its handler's plan (`Floor.KeepsPlans`), and each record that a worker was
handed comes to a good end, whatever the others do meanwhile (`Floor.IsFated`).
-/

namespace JobQueue

open Time (Instant)

/-- Whether a move is neither one of a caller nor the end of a wait for room or for a report. -/
def Pool.Move.isQuiet : Pool.Move → Bool
  | submit _ _ | giveUp | expire | shutdown => false
  | _ => true

namespace Floor

variable {σ : Type}

structure IsServing (f : Floor σ) : Prop where
  accepting : f.accepting = true
  stopping : f.stopping = false
  closing : f.closing = .notAsked
  inhabited : f.seats ≠ []
  stays : ∀ {seat : Nat}, f.seats[seat]? ≠ some .left

def AllEnded (f : Floor σ) (batch : Nat) : Prop :=
  ∀ r, f.Tells r → r.batch = batch → f.Ended r

/-- Whether what is left of each plan comes to what the whole of it does, and leaves the store
alone. -/
def KeepsPlans (f : Floor σ) : Prop :=
  ∀ {seat batch : Nat} {jobId : String} {record : Record} {context : Context} {job : Job}
    {handler : Handler σ} {plan : List (Action σ)},
    f.seats[seat]? = some (.working batch jobId (.handling record context job handler) plan) →
      verdictOf plan = verdictOf (handler.plan context job) ∧ Worker.IsHandsOff plan

structure IsFated (t : Instant) (good : Record → Ending → Prop) (before : MemoryStore)
    (f : Floor MemoryStore) (s : MemoryStore) : Prop where
  each : ∀ d ∈ f.duties, ∃ stage, d.run.stage = some stage ∧ stage.IsOn d.run.copy.id ∧
    good d.run.copy (stage.fate d.run.worker f.registry.find? t (s.find? d.run.copy.id))
  others : ∀ id, (∀ d ∈ f.duties, d.run.copy.id ≠ id) → s.find? id = before.find? id

end Floor

/-- Whether it makes no difference to how well a record ends when its failure is counted. -/
def IsTimeless (times : Instant → Prop) (good : Record → Ending → Prop) : Prop :=
  ∀ r e e', Retimed times e e' → good r e' → good r e

namespace Watched

open Pool (Move)

section
variable {σ : Type} [RecordStore σ] {w : Watched σ} {f : Floor σ} {now : Instant} {s s' : σ}
  {m : Move}

omit [RecordStore σ] in
theorem isEmpty_of_isServing (serving : w.floor.IsServing) : w.pool.isEmpty = false := by
  cases seats : w.pool.seats with
  | nil => exact absurd seats serving.inhabited
  | cons seat rest =>
    have stays : seat ≠ .left := by
      rintro rfl
      have first : w.floor.seats[0]? = some .left := congrArg (·[0]?) seats
      exact serving.stays first
    cases seat with
    | left => exact absurd rfl stays
    | _ => simp [Pool.isEmpty, seats, Seat.hasLeft]

omit [RecordStore σ] in
theorem not_shuts (quiet : m.isQuiet = true) (serving : w.floor.IsServing)
    {accepting stopping : Bool} {closing : Closing} (why : w.Shuts m accepting stopping closing) :
    False := by
  have new := serving.closing
  cases why with
  | first => cases quiet
  | again => cases quiet
  | drained waits => cases new.symm.trans waits
  | missed waits => cases new.symm.trans waits

theorem Change.isServing (change : w.Change now s m f s') (quiet : m.isQuiet = true)
    (serving : w.floor.IsServing) : f.IsServing := by
  have stays {seat : Nat} : f.seats[seat]? ≠ some .left := by
    intro gone
    have accepting : w.pool.accepting = true := serving.accepting
    have stopping : w.pool.stopping = false := serving.stopping
    rcases change.hasLeft gone with before | ⟨_, told | ⟨fed, _⟩⟩
    · exact serving.stays before
    · rw [stopping] at told
      cases told
    · simp [Pool.isFed, accepting] at fed
  have set {seat : Nat} {st : Seat σ} : w.floor.seats.set seat st ≠ [] := by
    simpa using serving.inhabited
  cases change with
  | took => exact ⟨serving.accepting, serving.stopping, serving.closing, set, stays⟩
  | left => exact ⟨serving.accepting, serving.stopping, serving.closing, set, stays⟩
  | asked => exact ⟨serving.accepting, serving.stopping, serving.closing, set, stays⟩
  | judged => exact ⟨serving.accepting, serving.stopping, serving.closing, set, stays⟩
  | acted => exact ⟨serving.accepting, serving.stopping, serving.closing, set, stays⟩
  | handedOver => exact ⟨serving.accepting, serving.stopping, serving.closing, set, stays⟩
  | closed why => exact (not_shuts quiet serving why).elim
  | _ => exact ⟨serving.accepting, serving.stopping, serving.closing, serving.inhabited, stays⟩

theorem Change.allEnded {batch : Nat} (change : w.Change now s m f s') (quiet : m.isQuiet = true)
    (manned : w.floor.IsManned) (serving : w.floor.IsServing) (all : w.floor.AllEnded batch) :
    f.AllEnded batch := by
  intro r told own
  rcases change.tells manned told with told | ended | ⟨_, _, _, _, ⟨rfl, _⟩ | ⟨⟨_, gone⟩, _⟩, _⟩
  · exact change.ended (all r told own)
  · exact ended
  · cases quiet
  · rw [isEmpty_of_isServing serving] at gone
    cases gone

-- ---------------------------------------------------------------------------
-- Plans
-- ---------------------------------------------------------------------------

omit [RecordStore σ] in
theorem plan_of_ofStage {batch batch' : Nat} {jobId jobId' : String}
    {stage : Worker.Stage (Handler σ)} {record : Record} {context : Context} {job : Job}
    {handler : Handler σ} {plan : List (Action σ)}
    (works : Seat.ofStage batch jobId stage =
      .working batch' jobId' (.handling record context job handler) plan)
    (hands : stage.IsHandsOff) :
    verdictOf plan = verdictOf (handler.plan context job) ∧ Worker.IsHandsOff plan := by
  cases stage with
  | handling =>
    cases works
    exact ⟨rfl, hands⟩
  | _ => cases works

theorem Change.keepsPlans (change : w.Change now s m f s')
    (hands : Worker.AreHandsOff w.floor.registry.find?) (plans : w.floor.KeepsPlans) :
    f.KeepsPlans := by
  intro other batch jobId record context job handler plan works
  -- a worker whose seat did not change, or one that has come to a stage
  have of_set {seat number : Nat} {id : String} {stage : Worker.Stage (Handler σ)}
      (works : (w.floor.seats.set seat (.ofStage number id stage))[other]? =
        some (.working batch jobId (.handling record context job handler) plan))
      (hands : stage.IsHandsOff) :
      verdictOf plan = verdictOf (handler.plan context job) ∧ Worker.IsHandsOff plan := by
    rcases Seat.eq_of_set works with before | come
    · exact plans before
    · exact plan_of_ofStage come hands
  cases change with
  | took free first its there =>
    obtain rfl := Option.some.inj (there.symm.trans (congrArg Worker.Run.stage its))
    exact of_set works (Worker.begun ..).isHandsOff
  | @asked seat number id stage whole next there asks answered =>
    exact of_set (answered ▸ works) ((Worker.called _ _ _ _ asks).isHandsOff hands)
  | judged => exact of_set works Worker.isHandsOff_onVerdict
  | @acted seat number id record' context' job' handler' action rest there goesOn =>
    rcases Seat.eq_of_set works with before | rest
    · exact plans before
    · cases rest
      obtain ⟨verdict, hands⟩ := plans there
      refine ⟨?_, fun use member => hands use (List.mem_cons_of_mem _ member)⟩
      rw [← verdict]
      cases action with
      | stop v => exact absurd rfl (goesOn v)
      | _ => rfl
  | left => exact plans ((Seat.eq_of_set works).resolve_right nofun)
  | handedOver => exact plans ((Seat.eq_of_set works).resolve_right nofun)
  | _ => exact plans works

end

-- ---------------------------------------------------------------------------
-- Fates
-- ---------------------------------------------------------------------------

section
variable {w : Watched MemoryStore} {f : Floor MemoryStore} {now t : Instant}
  {s s' before : MemoryStore} {m : Move} {times : Instant → Prop} {good : Record → Ending → Prop}
  {seat batch : Nat} {jobId : String} {stage next : Worker.Stage (Handler MemoryStore)}
  {plan : List (Action MemoryStore)} {verdict : Verdict}

theorem isFated_goOn (timeless : IsTimeless times good) (manned : w.floor.IsManned)
    (distinct : (w.floor.duties.map (·.run.copy.id)).Nodup)
    (fated : w.floor.IsFated t good before s)
    (works : w.floor.seats[seat]? = some (.working batch jobId stage plan))
    (moves : ∀ d ∈ w.floor.duties, d.seat = seat → d.run.stage = some stage →
      (d.run.next now verdict s).stage = some next)
    (on : stage.IsOn jobId → next.IsOn jobId)
    (keeps : stage.IsOn jobId → Retimed times
      (next.fate (w.floor.worker seat) w.floor.registry.find? t (s'.find? jobId))
      (stage.fate (w.floor.worker seat) w.floor.registry.find? t (s.find? jobId)))
    (others : stage.IsOn jobId → ∀ other ≠ jobId, s'.find? other = s.find? other)
    (floor : f = { w.floor with
      seats := w.floor.seats.set seat (.ofStage batch jobId next)
      duties := w.floor.duties.map (Duty.goOn seat now verdict s) }) :
    f.IsFated t good before s' := by
  subst floor
  obtain ⟨d, member, _, its, _, rfl, there⟩ := manned.working works
  obtain ⟨stage', there', mine, fate⟩ := fated.each d member
  obtain rfl := Option.some.inj (there'.symm.trans there)
  rw [manned.worker d member, its] at fate
  constructor
  · intro _ listed
    obtain ⟨d', member', rfl⟩ := List.mem_map.mp listed
    rw [Duty.copy_goOn, Duty.worker_goOn]
    by_cases same : d'.run.copy.id = d.run.copy.id
    · obtain rfl := List.inj_on_of_nodup_map distinct member' member same
      refine ⟨next, ?_, on mine, ?_⟩
      · rw [Duty.run_goOn its]
        exact moves d' member its there
      · rw [manned.worker d' member, its]
        exact timeless _ _ _ (keeps mine) fate
    · rw [manned.goOn_eq works member' same, others mine _ same]
      exact fated.each d' member'
  · intro id differ
    have apart (d' : Duty MemoryStore) (member' : d' ∈ w.floor.duties) : d'.run.copy.id ≠ id := by
      simpa using differ _ (List.mem_map_of_mem member')
    rw [others mine id (Ne.symm (apart d member))]
    exact fated.others id apart

/-- Every move leaves the records that workers were handed to their fates, if a record that is
taken has a good end before it. -/
theorem Change.isFated (timeless : IsTimeless times good) (change : w.Change now s m f s')
    (manned : w.floor.IsManned)
    (plans : w.floor.KeepsPlans) (distinct : (w.floor.duties.map (·.run.copy.id)).Nodup)
    (h : times now) (ht : times t)
    (taken : ∀ seat a rest, m = .take seat → w.floor.queue = a :: rest →
      good a.record (((w.floor.worker seat).begin now a.record).1.fate (w.floor.worker seat)
        w.floor.registry.find? t (s.find? a.record.id)))
    (fated : w.floor.IsFated t good before s) : f.IsFated t good before s' := by
  cases change with
  | @took seat a rest run stage free first its there =>
    have copy : run.copy = a.record := congrArg Worker.Run.copy its
    have worker : run.worker = w.floor.worker seat := congrArg Worker.Run.worker its
    have begun : ((w.floor.worker seat).begin now a.record).1 = stage :=
      Option.some.inj ((congrArg Worker.Run.stage its).symm.trans there)
    constructor
    · intro d listed
      rcases List.mem_append.mp listed with old | new
      · exact fated.each d old
      · obtain rfl := List.mem_singleton.mp new
        refine ⟨stage, there, ?_, ?_⟩
        · simpa [copy, ← begun] using (Worker.begun ..).isOn
        · simpa [copy, worker, ← begun] using taken seat a rest rfl first
    · intro id differ
      exact fated.others id fun d old => differ d (List.mem_append_left _ old)
  | asked works asks answered =>
    subst answered
    exact isFated_goOn timeless manned distinct fated works
      (fun _ member its there => manned.stage_asked asks member its there)
      (fun on => (Worker.fate_call on asks h ht).1) (fun on => (Worker.fate_call on asks h ht).2.1)
      (fun on => (Worker.fate_call on asks h ht).2.2) rfl
  | @judged seat batch jobId record context job handler plan verdict works brought =>
    have comes : verdict = verdictOf (handler.plan context job) := by
      rw [← (plans works).1]
      rcases brought with ⟨rfl, rfl⟩ | ⟨rest, rfl⟩
      · rfl
      · rfl
    subst comes
    refine isFated_goOn timeless manned distinct fated works
      (fun _ _ _ there => congrArg _ (Worker.Run.next_judge there)) ?_ ?_ (fun _ _ _ => rfl) rfl
    · intro on
      obtain rfl : record.id = jobId := on
      exact Worker.isOn_onVerdict
    · intro _
      rw [Worker.fate_onVerdict]
      exact .refl _
  | @acted seat batch jobId record context job handler action rest works goesOn =>
    have same : (action.perform now s).2.2 = s := by
      cases action with
      | use g => exact absurd List.mem_cons_self ((plans works).2 g)
      | _ => rfl
    rw [same]
    exact ⟨fated.each, fated.others⟩
  | _ => exact ⟨fated.each, fated.others⟩

end

end Watched

end JobQueue
