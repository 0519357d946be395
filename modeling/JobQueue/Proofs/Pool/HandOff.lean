import JobQueue.Proofs.Pool.Correlation
import JobQueue.Proofs.Pool.Manned
import Mathlib.Data.List.Nodup

/-!
# No record is lost or handed over twice

Where the records of a batch are: the feeder has them, they wait in the queue, or a worker was
handed them. No move makes these more (`Change.errands_le`), and a record that is reported without
a run has left them for good. So a report is either the end of the one run on its record, or there
is no such run and there never will be (`Floor.Backs`), which every move keeps.
-/

namespace JobQueue

open Time (Instant)

-- ---------------------------------------------------------------------------
-- Where the records are
-- ---------------------------------------------------------------------------

def Assignment.isFor (batch : Nat) (wanted : Record → Bool) (a : Assignment) : Bool :=
  a.batch == batch && wanted a.record

def Feeder.errands (wanted : Assignment → Bool) (g : Feeder) : Nat :=
  let first := match g.load with
    | .record record => (wanted ⟨g.batch, record⟩).toNat
    | .report _ => 0
  first + g.rest.countP fun record => wanted ⟨g.batch, record⟩

theorem Feeder.errands_ofRecords? {wanted : Assignment → Bool} {batch : Nat}
    {records : List Record} : (ofRecords? batch records).elim 0 (errands wanted) =
      records.countP fun record => wanted ⟨batch, record⟩ := by
  cases records with
  | nil => rfl
  | cons record rest =>
    simp only [ofRecords?, Option.elim_some, errands, List.countP_cons, Pool.one_if_eq_toNat]
    omega

namespace Floor

variable {σ : Type}

/-- How many wanted records a worker has been handed, or may yet be. -/
def errands (f : Floor σ) (wanted : Assignment → Bool) : Nat :=
  f.feeder.elim 0 (Feeder.errands wanted) + f.queue.countP wanted +
    f.duties.countP fun d => wanted d.assignment

inductive Tells (f : Floor σ) (r : Report) : Prop
  | feeder {batch : Nat} {rest : List Record} (its : f.feeder = some ⟨batch, .report r, rest⟩)
  | results (waits : r ∈ f.results)
  | seat {seat : Nat} (reports : f.seats[seat]? = some (.reporting r))

def Ended (f : Floor σ) (r : Report) : Prop :=
  ∃ d ∈ f.duties, d.batch = r.batch ∧ d.run.copy.id = r.jobId ∧ d.run.outcome? = some r.outcome

/-- What a report stands for: the end of a run, or that there is none and will be none. -/
def Backs (f : Floor σ) (r : Report) : Prop :=
  f.Ended r ∨ (r.outcome = .error .enqueueTimeout ∨ r.outcome = .error .poolClosed) ∧
    f.errands (Assignment.isFor r.batch (·.id == r.jobId)) = 0

/-- The accounts of a batch: a worker is handed no record that is not in it, and none more often
than it is in it, and its reports can be relied on. -/
structure Accounts (f : Floor σ) (batch : Nat) (records : List Record) : Prop where
  few : ∀ wanted : Record → Bool,
    f.errands (Assignment.isFor batch wanted) ≤ records.countP wanted
  backed : ∀ {r : Report}, f.Tells r → r.batch = batch → f.Backs r

end Floor

namespace Watched

variable {σ : Type} [RecordStore σ] {w w' : Watched σ} {f : Floor σ} {now : Instant} {s s' : σ}
  {m : Pool.Move} {r : Report} {batch : Nat} {records : List Record}

theorem Change.errands_le {wanted : Assignment → Bool} (change : w.Change now s m f s')
    (none : m = .begin → ∀ record, wanted ⟨w.pool.nextBatch, record⟩ = false) :
    f.errands wanted ≤ w.floor.errands wanted := by
  cases change with
  | aside => exact Nat.le_refl _
  | @begun records idle accepting =>
    have brings : records.countP (fun record => wanted ⟨w.pool.nextBatch, record⟩) = 0 :=
      List.countP_eq_zero.mpr fun record _ => by simp [none rfl record]
    simp only [Floor.errands, idle, Feeder.errands_ofRecords?, brings]
    exact Nat.le_refl _
  | fed its =>
    simp only [Floor.errands, its, Feeder.errands_ofRecords?, Option.elim_some, Feeder.errands,
      List.countP_append, List.countP_singleton, Pool.one_if_eq_toNat]
    omega
  | rejected its =>
    simp only [Floor.errands, its, Option.elim_some, Feeder.errands]
    omega
  | posted its =>
    simp only [Floor.errands, its, Feeder.errands_ofRecords?, Option.elim_some, Feeder.errands]
    omega
  | @took seat a rest run stage free first its there =>
    have same : (⟨a.batch, run⟩ : Duty σ).assignment = a := by
      rw [Duty.assignment, its]
      rfl
    simp only [Floor.errands, first, List.countP_append, List.countP_cons, List.countP_nil, same]
    omega
  | left free why kept =>
    obtain rfl | rfl := kept
    · exact Nat.le_refl _
    · simp only [Floor.errands, List.countP_nil]
      omega
  | asked => simp [Floor.errands, List.countP_map, Function.comp_def]
  | judged => simp [Floor.errands, List.countP_map, Function.comp_def]
  | acted => exact Nat.le_refl _
  | handedOver => exact Nat.le_refl _
  | collected first kept =>
    obtain rfl | rfl := kept
    · exact Nat.le_refl _
    · simp only [Floor.errands, Option.elim_none]
      omega
  | expired kept =>
    obtain rfl | rfl := kept
    · exact Nat.le_refl _
    · simp only [Floor.errands, Option.elim_none]
      omega
  | closed => exact Nat.le_refl _

theorem Change.ended (change : w.Change now s m f s') (ended : w.floor.Ended r) : f.Ended r := by
  obtain ⟨d, member, hb, hj, finished⟩ := ended
  refine ⟨d, ?_, hb, hj, finished⟩
  cases change with
  | took => exact List.mem_append_left _ member
  | asked => exact List.mem_map.mpr ⟨d, member, Duty.goOn_of_outcome? finished⟩
  | judged => exact List.mem_map.mpr ⟨d, member, Duty.goOn_of_outcome? finished⟩
  | _ => exact member

theorem Change.backs (change : w.Change now s m f s')
    (other : m = .begin → w.pool.nextBatch ≠ r.batch) (backs : w.floor.Backs r) : f.Backs r := by
  refine backs.imp change.ended fun ⟨why, nobody⟩ => ⟨why, ?_⟩
  have none : m = .begin → ∀ record,
      Assignment.isFor r.batch (·.id == r.jobId) ⟨w.pool.nextBatch, record⟩ = false :=
    fun begins _ => by simp [Assignment.isFor, other begins]
  exact Nat.eq_zero_of_le_zero (nobody ▸ change.errands_le none)

omit [RecordStore σ] in
theorem ended_of_reporting {number : Nat} {jobId : String}
    {stage : Worker.Stage (Handler σ)} {d : Duty σ} (member : d ∈ f.duties) (hb : d.batch = number)
    (hj : d.run.copy.id = jobId) (there : d.run.stage = some stage)
    (reports : Seat.ofStage number jobId stage = .reporting r) : f.Ended r := by
  cases stage with
  | done outcome =>
    cases reports
    exact ⟨d, member, hb, hj, by simp [Worker.Run.outcome?, there, Worker.Stage.outcome?]⟩
  | _ => cases reports

theorem load_ofRecords? {rest : List Record} {number : Nat}
    (its : Feeder.ofRecords? number records = some ⟨batch, .report r, rest⟩) : False := by
  cases records with
  | nil => cases its
  | cons => simp [Feeder.ofRecords?] at its

omit [RecordStore σ] in
theorem tells_of_feeder (f : Floor σ) {g : Floor σ} (told : g.Tells r)
    (feeder : ∀ {number rest}, g.feeder = some ⟨number, .report r, rest⟩ → f.Tells r)
    (results : r ∈ g.results → f.Tells r) (seats : g.seats = f.seats) : f.Tells r := by
  cases told with
  | feeder its => exact feeder its
  | results waits => exact results waits
  | seat reports => exact .seat (seats ▸ reports)

omit [RecordStore σ] in
theorem tells_of_seat (f : Floor σ) {g : Floor σ} {seat : Nat} {st : Seat σ} (told : g.Tells r)
    (feeder : g.feeder = f.feeder) (results : r ∈ g.results → f.Tells r)
    (seats : g.seats = f.seats.set seat st) : f.Tells r ∨ st = .reporting r := by
  cases told with
  | feeder its => exact .inl (.feeder (feeder ▸ its))
  | results waits => exact .inl (results waits)
  | seat reports =>
    exact (Seat.eq_of_set (seats ▸ reports)).imp_left .seat

/-- What is told after a move was told before, or is what a run ended with, or it is the report of
the feeder on the record that it had. -/
theorem Change.tells (change : w.Change now s m f s') (manned : w.floor.IsManned)
    (told : f.Tells r) : w.floor.Tells r ∨ f.Ended r ∨
      ∃ record rest, w.floor.feeder = some ⟨r.batch, .record record, rest⟩ ∧
        record.id = r.jobId ∧ (m = .giveUp ∧ r.outcome = .error .enqueueTimeout ∨
          (m = .refuse ∧ w.pool.isEmpty = true) ∧ r.outcome = .error .poolClosed) ∧
        f = { w.floor with feeder := some ⟨r.batch, .report r, rest⟩ } := by
  have results {g : Floor σ} (same : g.results = w.floor.results) (waits : r ∈ g.results) :
      w.floor.Tells r := .results (same ▸ waits)
  -- a report that was added to the results was told already
  have added {report : Report} (had : w.floor.Tells report)
      (waits : r ∈ w.floor.results ++ [report]) : w.floor.Tells r := by
    rcases List.mem_append.mp waits with old | new
    · exact .results old
    · exact List.mem_singleton.mp new ▸ had
  -- a feeder that is kept or stopped tells nothing new
  have kept {feeder : Option Feeder} {number : Nat} {rest : List Record}
      (kept : feeder = w.floor.feeder ∨ feeder = none)
      (its : feeder = some ⟨number, .report r, rest⟩) : w.floor.Tells r := by
    obtain rfl | rfl := kept
    · exact .feeder its
    · cases its
  cases change with
  | aside => exact .inl told
  | begun =>
    exact .inl (tells_of_feeder w.floor told (fun its => (load_ofRecords? its).elim)
      (results rfl) rfl)
  | fed =>
    exact .inl (tells_of_feeder w.floor told (fun its => (load_ofRecords? its).elim)
      (results rfl) rfl)
  | @rejected m batch record rest e its why =>
    cases told with
    | feeder mine =>
      cases mine
      refine .inr (.inr ⟨record, rest, its, rfl, ?_, rfl⟩)
      exact why.imp (And.imp_right (congrArg _)) (And.imp_right (congrArg _))
    | results waits => exact .inl (.results waits)
    | seat reports => exact .inl (.seat reports)
  | posted its =>
    exact .inl (tells_of_feeder w.floor told (fun mine => (load_ofRecords? mine).elim)
      (added (.feeder its)) rfl)
  | @took seat a rest run stage free first its there =>
    refine (tells_of_seat w.floor told rfl (results rfl) rfl).imp_right fun reports => .inl ?_
    have mine : run.copy.id = a.record.id := congrArg (·.copy.id) its
    exact ended_of_reporting (List.mem_append_right _ (List.mem_singleton_self _)) rfl mine there
      reports
  | left => exact .inl ((tells_of_seat w.floor told rfl (results rfl) rfl).resolve_right nofun)
  | asked works asks answered =>
    refine (tells_of_seat w.floor told rfl (results rfl) rfl).imp_right fun reports => .inl ?_
    obtain ⟨d, member, _, hb, hj, there⟩ := manned.moved works fun _ member its there =>
      manned.stage_asked asks member its there
    exact ended_of_reporting member hb hj there (answered ▸ reports)
  | judged works brought =>
    refine (tells_of_seat w.floor told rfl (results rfl) rfl).imp_right fun reports => .inl ?_
    obtain ⟨d, member, _, hb, hj, there⟩ := manned.moved works fun _ _ _ there =>
      congrArg _ (Worker.Run.next_judge there)
    exact ended_of_reporting member hb hj there reports
  | acted => exact .inl ((tells_of_seat w.floor told rfl (results rfl) rfl).resolve_right nofun)
  | handedOver reports =>
    exact .inl ((tells_of_seat w.floor told rfl (added (.seat reports)) rfl).resolve_right nofun)
  | collected first which =>
    exact .inl (tells_of_feeder w.floor told (kept which)
      (fun waits => .results (first ▸ List.mem_cons_of_mem _ waits)) rfl)
  | expired which => exact .inl (tells_of_feeder w.floor told (kept which) (results rfl) rfl)
  | closed => exact .inl (tells_of_feeder w.floor told (fun its => .feeder its) (results rfl) rfl)

theorem countP_id_le_one (distinct : (records.map Record.id).Nodup) (id : String) :
    records.countP (·.id == id) ≤ 1 := by
  have := List.nodup_iff_count_le_one.mp distinct id
  rwa [List.count, List.countP_map] at this

/-- Every move keeps the accounts of a batch, whose records are as distinct as their names. -/
theorem Change.accounts (change : w.Change now s m f s') (manned : w.floor.IsManned)
    (distinct : (records.map Record.id).Nodup) (other : m = .begin → w.pool.nextBatch ≠ batch)
    (accounts : w.floor.Accounts batch records) : f.Accounts batch records where
  few wanted := by
    have none : m = .begin → ∀ record,
        Assignment.isFor batch wanted ⟨w.pool.nextBatch, record⟩ = false :=
      fun begins _ => by simp [Assignment.isFor, other begins]
    exact Nat.le_trans (change.errands_le none) (accounts.few wanted)
  backed := by
    intro r told own
    rcases change.tells manned told with told | ended | ⟨record, rest, its, same, why, rfl⟩
    · exact change.backs (own ▸ other) (accounts.backed told own)
    · exact .inl ended
    · -- the feeder had the only record of the name, and it has none any more
      refine .inr ⟨why.imp And.right And.right, ?_⟩
      have few := accounts.few (·.id == r.jobId)
      have one := countP_id_le_one distinct r.jobId
      subst own
      simp only [Floor.errands, its, Option.elim_some, Feeder.errands, Assignment.isFor, same,
        beq_self_eq_true, Bool.and_self, Bool.toNat_true] at few ⊢
      omega

-- ---------------------------------------------------------------------------
-- Runs
-- ---------------------------------------------------------------------------

variable {b : Pool.Beat} {beats : List Pool.Beat}

omit [RecordStore σ] in
theorem nextBatch_of_effect {p p' : Pool σ} (e : p.Effect b p') :
    p'.nextBatch = p.nextBatch + if b.move = .begin then 1 else 0 := by
  cases e with
  | submitted =>
    unfold Pool.submit
    split <;> rfl
  | begun => rfl
  | refused => rfl
  | @told now m n t c results notice =>
    have later : m ≠ .begin := by
      rintro rfl
      cases notice
    rw [if_neg later]
    unfold Pool.settle
    split <;> rfl
  | stuck => rfl
  | framed none later frame => rw [if_neg later, frame.nextBatch, Nat.add_zero]

structure Accounts (w : Watched σ) (batch : Nat) (records : List Record) : Prop where
  manned : w.floor.IsManned
  begun : batch < w.pool.nextBatch
  floor : w.floor.Accounts batch records

theorem Step.accounts (step : Step w b w') (distinct : (records.map Record.id).Nodup)
    (accounts : w.Accounts batch records) : w'.Accounts batch records where
  manned := step.isManned accounts.manned
  begun := by
    have := accounts.begun
    have := nextBatch_of_effect step.pool.effect
    omega
  floor := by
    have := accounts.begun
    cases step with
    | of h => exact (change_of_step? h).accounts accounts.manned distinct (by omega) accounts.floor

theorem Step.backs (step : Step w b w') (own : r.batch < w.pool.nextBatch)
    (backs : w.floor.Backs r) : w'.floor.Backs r := by
  cases step with
  | of h => exact (change_of_step? h).backs (by omega) backs

theorem Step.mem_results (step : Step w b w') (taken : r ∈ b.reports) : r ∈ w.pool.results := by
  cases step with
  | @of _ _ _ _ m _ _ =>
    cases m with
    | collect =>
      cases results : w.pool.results with
      | nil => simp [Pool.Beat.reports, Pool.notice?, results] at taken
      | cons first rest =>
        simp [Pool.Beat.reports, Pool.notice?, results, Notice.reports] at taken
        simp [taken]
    | _ => simp [Pool.Beat.reports, Pool.notice?, Notice.reports] at taken

/-- A run keeps the accounts of a batch, and what the batch is told meanwhile can be relied on at
its end. -/
theorem Accounts.run (trace : Trace Step w beats w') (distinct : (records.map Record.id).Nodup)
    (accounts : w.Accounts batch records) : w'.Accounts batch records ∧
      ∀ r ∈ beats.flatMap Pool.Beat.reports, r.batch = batch → w'.floor.Backs r := by
  induction trace with
  | nil => exact ⟨accounts, by simp⟩
  | @snoc _ _ beats b _ last ih =>
    obtain ⟨accounts, backed⟩ := ih
    refine ⟨last.accounts distinct accounts, ?_⟩
    intro r taken own
    have begun := own ▸ accounts.begun
    rw [List.flatMap_append, List.flatMap_singleton, List.mem_append] at taken
    rcases taken with taken | taken
    · exact last.backs begun (backed r taken own)
    · exact last.backs begun (accounts.floor.backed (.results (last.mem_results taken)) own)

theorem backs_of_trace (trace : Trace Step w beats w') (own : r.batch < w.pool.nextBatch)
    (backs : w.floor.Backs r) : w'.floor.Backs r := by
  have both : r.batch < w'.pool.nextBatch ∧ w'.floor.Backs r := by
    induction trace with
    | nil => exact ⟨own, backs⟩
    | snoc _ last ih =>
      have := nextBatch_of_effect last.pool.effect
      exact ⟨by omega, last.backs ih.1 ih.2⟩
  exact both.2

theorem errands_eq_zero_of_trace {settings : Settings} {registry : Registry (Handler σ)}
    (before : Trace Step (start settings registry) beats w) (number : Nat)
    (new : w.pool.nextBatch ≤ number) (wanted : Record → Bool) :
    w.floor.errands (Assignment.isFor number wanted) = 0 := by
  induction before with
  | nil => rfl
  | @snoc w _ _ _ _ last ih =>
    have given := nextBatch_of_effect last.pool.effect
    have before := ih (by omega)
    cases last with
    | @of _ _ _ _ m _ h =>
      have none : m = .begin → ∀ record,
          Assignment.isFor number wanted ⟨w.pool.nextBatch, record⟩ = false := by
        intro begins record
        rw [if_pos begins] at given
        have other : w.pool.nextBatch ≠ number := by omega
        simp [Assignment.isFor, other]
      have := (change_of_step? h).errands_le none
      omega

end Watched

end JobQueue
