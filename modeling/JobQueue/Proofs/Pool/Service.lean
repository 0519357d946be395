import JobQueue.Proofs.Pool.HandOff
import JobQueue.Store.Memory

/-!
# What a batch and its workers can rely on

A worker that reports, whatever its run ended with, hands its report over and is free again; it
takes the next record as soon as there is room for the report. What a batch returns for a record
says whether a worker was handed it, then and later on (`handed_once`).
-/

namespace JobQueue

open Time (Instant)

def Floor.HasFewResults {σ : Type} (f : Floor σ) : Prop :=
  f.results.length ≤ f.settings.workerCount * 2

theorem Settings.workerCount_pos (s : Settings) : 0 < s.workerCount := by
  unfold workerCount defaultWorkers
  split <;> omega

namespace Watched

open Pool (Move Beat)

variable {σ : Type} [RecordStore σ] {w w' w₁ w₂ w₃ : Watched σ} {f : Floor σ} {now : Instant}
  {s s' : σ} {m : Move} {b : Beat} {r : Report} {seat : Nat} {beats during after : List Beat}
  {settings : Settings} {registry : Registry (Handler σ)}

-- ---------------------------------------------------------------------------
-- Workers that go on
-- ---------------------------------------------------------------------------

/-- A worker that reports does so until it has handed its report over, and is free then. -/
theorem Change.reporting (change : w.Change now s m f s')
    (reports : w.floor.seats[seat]? = some (.reporting r)) :
    f.seats[seat]? = some (.reporting r) ∨ m = .handOver seat ∧ f.seats[seat]? = some .free := by
  have stays {other : Nat} {st st' : Seat σ} (there : w.floor.seats[other]? = some st)
      (differ : st ≠ .reporting r) :
      (w.floor.seats.set other st')[seat]? = some (.reporting r) := by
    rw [List.getElem?_set_ne, reports]
    rintro rfl
    exact differ (Option.some.inj (there.symm.trans reports))
  cases change with
  | took free => exact .inl (stays free nofun)
  | left free => exact .inl (stays free nofun)
  | asked works => exact .inl (stays works nofun)
  | judged works => exact .inl (stays works nofun)
  | acted works => exact .inl (stays works nofun)
  | @handedOver other report there =>
    by_cases same : other = seat
    · subst same
      exact .inr ⟨rfl, by simp [(List.getElem?_eq_some_iff.mp there).1]⟩
    · exact .inl ((List.getElem?_set_ne same).trans reports)
  | _ => exact .inl reports

/-- A worker leaves only while it is free, if it is told to or nothing is left to do. -/
theorem Change.hasLeft (change : w.Change now s m f s') (gone : f.seats[seat]? = some .left) :
    w.floor.seats[seat]? = some .left ∨ w.floor.seats[seat]? = some .free ∧
      (w.pool.stopping = true ∨ w.pool.isFed = true ∧ w.pool.queue = []) := by
  have before {other : Nat} {st : Seat σ}
      (gone : (w.floor.seats.set other st)[seat]? = some .left) (differ : st ≠ .left) :
      w.floor.seats[seat]? = some .left := (Seat.eq_of_set gone).resolve_right differ
  have goesOn {batch : Nat} {jobId : String} {stage : Worker.Stage (Handler σ)} :
      Seat.ofStage batch jobId stage ≠ .left := by
    cases stage <;> exact nofun
  cases change with
  | took => exact .inl (before gone goesOn)
  | @left other queue free why =>
    by_cases same : other = seat
    · exact .inr ⟨same ▸ free, why⟩
    · exact .inl ((List.getElem?_set_ne same).symm.trans gone)
  | asked => exact .inl (before gone goesOn)
  | judged => exact .inl (before gone goesOn)
  | acted => exact .inl (before gone nofun)
  | handedOver => exact .inl (before gone nofun)
  | _ => exact .inl gone

theorem Change.hasFewResults (change : w.Change now s m f s') (few : w.floor.HasFewResults) :
    f.HasFewResults := by
  unfold Floor.HasFewResults at few ⊢
  cases change with
  | posted its room =>
    rw [List.length_append, List.length_singleton]
    exact room
  | handedOver reports room =>
    rw [List.length_append, List.length_singleton]
    exact room
  | collected first =>
    rw [first, List.length_cons] at few
    exact Nat.le_of_lt few
  | _ => exact few

theorem Step.hasFewResults (step : Step w b w') (few : w.floor.HasFewResults) :
    w'.floor.HasFewResults := by
  cases step with
  | of h => exact (change_of_step? h).hasFewResults few

theorem length_results_le_of_trace (trace : Trace Step (start settings registry) beats w) :
    w.pool.results.length ≤ w.pool.capacity :=
  trace.keeps (fun few step => step.hasFewResults few) (Nat.zero_le _)

/-- What the callers of a pool leave alone: the side of the workers. -/
structure Beside (w w' : Watched σ) : Prop where
  settings : w'.pool.settings = w.pool.settings
  queue : w'.pool.queue = w.pool.queue
  seats : w'.pool.seats = w.pool.seats
  stopping : w'.pool.stopping = w.pool.stopping
  duties : w'.duties = w.duties

omit [RecordStore σ] in
theorem Beside.trans (first : Beside w w₁) (second : Beside w₁ w₂) : Beside w w₂ where
  settings := second.settings.trans first.settings
  queue := second.queue.trans first.queue
  seats := second.seats.trans first.seats
  stopping := second.stopping.trans first.stopping
  duties := second.duties.trans first.duties

theorem exists_collected {t : Turn} {rest : List Report} (turn : w.pool.turn = some t)
    (results : w.pool.results = r :: rest) (now : Instant) (s : σ) :
    ∃ b w', Step w b w' ∧ Beside w w' ∧ w'.pool.results = rest := by
  have moved : w.pool.step? now s .collect =
      some (({ w.pool with results := rest }.settle t (t.collection.receive r)).1, s,
        ({ w.pool with results := rest }.settle t (t.collection.receive r)).2) := by
    simp [Pool.step?, Pool.collect?, turn, results]
  refine ⟨_, _, .of_pool moved, ?_⟩
  dsimp only
  unfold Pool.settle
  split
  · exact ⟨⟨rfl, rfl, rfl, rfl, rfl⟩, rfl⟩
  · exact ⟨⟨rfl, rfl, rfl, rfl, rfl⟩, rfl⟩

/-- A pool that has not been shut down can always have a batch whose turn it is. -/
theorem exists_turn (accepting : w.pool.accepting = true) (now : Instant) (s : σ) :
    ∃ more w', Trace Step w more w' ∧ Beside w w' ∧ w'.pool.results = w.pool.results ∧
      w'.pool.turn.isSome := by
  cases turn : w.pool.turn with
  | some t => exact ⟨[], w, .nil w, ⟨rfl, rfl, rfl, rfl, rfl⟩, rfl, by simp [turn]⟩
  | none =>
    obtain ⟨w₁, submits, beside, results, open_, idle, next, rest, line⟩ :
        ∃ w₁, (∃ more, Trace Step w more w₁) ∧ Beside w w₁ ∧ w₁.pool.results = w.pool.results ∧
          w₁.pool.accepting = true ∧ w₁.pool.turn = none ∧
          ∃ next rest, w₁.pool.line = next :: rest := by
      cases line : w.pool.line with
      | cons next rest =>
        exact ⟨w, ⟨[], .nil w⟩, ⟨rfl, rfl, rfl, rfl, rfl⟩, rfl, accepting, turn, next, rest, line⟩
      | nil =>
        let next : Submission := ⟨0, [⟨"", "", "", 0, none, now, now⟩]⟩
        have moved : w.pool.step? now s (.submit next.ticket next.records) =
            some ({ w.pool with line := w.pool.line ++ [next] }, s, []) := rfl
        refine ⟨_, ⟨_, .single (.of_pool moved)⟩,
          ⟨rfl, rfl, rfl, rfl, rfl⟩, rfl, accepting, turn, next, [], ?_⟩
        simp [line]
    obtain ⟨more, submits⟩ := submits
    have moved : w₁.pool.step? now s .begin =
        some ({ w₁.pool with
          line := rest
          nextBatch := w₁.pool.nextBatch + 1
          turn := some ⟨next.ticket, .ofRecords w₁.pool.nextBatch next.records,
            Feeder.ofRecords? w₁.pool.nextBatch next.records⟩ }, s, []) := by
      simp [Pool.step?, Pool.begin?, idle, line, open_]
    exact ⟨_, _, submits.snoc (.of_pool moved), beside.trans ⟨rfl, rfl, rfl, rfl, rfl⟩, results,
      rfl⟩

/-- There can be room for a report, if a batch takes reports or may come to do so. -/
theorem exists_room (before : Trace Step (start settings registry) beats w)
    (way : w.pool.results.length < w.pool.capacity ∨ w.pool.turn.isSome ∨ w.pool.accepting = true)
    (now : Instant) (s : σ) : ∃ more w', Trace Step w more w' ∧ Beside w w' ∧
      w'.pool.results.length < w'.pool.capacity := by
  have taking (turn : w.pool.turn.isSome ∨ w.pool.accepting = true) :
      ∃ more w', Trace Step w more w' ∧ Beside w w' ∧ w'.pool.results = w.pool.results ∧
        w'.pool.turn.isSome := by
    rcases turn with turn | accepting
    · exact ⟨[], w, .nil w, ⟨rfl, rfl, rfl, rfl, rfl⟩, rfl, turn⟩
    · exact exists_turn accepting now s
  rcases way with room | way
  · exact ⟨[], w, .nil w, ⟨rfl, rfl, rfl, rfl, rfl⟩, room⟩
  · obtain ⟨more, w₁, begins, beside, same, turn⟩ := taking way
    obtain ⟨t, turn⟩ := Option.isSome_iff_exists.mp turn
    have few := length_results_le_of_trace (before.append begins)
    cases results : w₁.pool.results with
    | nil =>
      refine ⟨more, w₁, begins, beside, ?_⟩
      have some := w₁.pool.settings.workerCount_pos
      simp only [results, List.length_nil, Pool.capacity]
      omega
    | cons r rest =>
      obtain ⟨b, w₂, collects, aside, left⟩ := exists_collected turn results now s
      refine ⟨_, w₂, begins.snoc collects, beside.trans aside, ?_⟩
      rw [results, List.length_cons] at few
      rw [left, Pool.capacity, aside.settings]
      exact few

theorem exists_taken (before : Trace Step (start settings registry) beats w)
    (reports : w.pool.seats[seat]? = some (.reporting r))
    (way : w.pool.results.length < w.pool.capacity ∨ w.pool.turn.isSome ∨ w.pool.accepting = true)
    (stays : w.pool.stopping = false) {a : Assignment} {rest : List Assignment}
    (waits : w.pool.queue = a :: rest) (now : Instant) (s : σ) :
    ∃ more w' d, Trace Step w more w' ∧ w'.duties = w.duties ++ [d] ∧ d.seat = seat ∧
      d.assignment = a := by
  obtain ⟨more, w₁, collects, beside, room⟩ := exists_room before way now s
  rw [← beside.seats] at reports
  rw [← beside.queue] at waits
  rw [← beside.stopping] at stays
  have inside := (List.getElem?_eq_some_iff.mp reports).1
  have handsOver : w₁.pool.step? now s (.handOver seat) =
      some ({ w₁.pool with results := w₁.pool.results ++ [r] }.withSeat seat .free, s, []) := by
    simp [Pool.step?, Pool.handOver?, reports, room]
  let freed := { w₁.pool with results := w₁.pool.results ++ [r] }.withSeat seat .free
  have queue : freed.queue = a :: rest := waits
  have takes : ∃ next, freed.step? now s (.take seat) = some next := by
    have free : freed.seats[seat]? = some .free := by simp [freed, Pool.withSeat, inside]
    have goesOn : freed.stopping = false := stays
    simp [Pool.step?, Pool.take?, free, queue, goesOn]
  obtain ⟨⟨p', s', events⟩, takes⟩ := takes
  let run := Worker.Run.fresh (freed.worker seat) freed.registry.find? a.record
  have handed : freed.attend now s w₁.duties (.take seat) =
      w.duties ++ [⟨a.batch, run.next now .succeeded s⟩] := by
    simp only [Pool.attend, queue, beside.duties, run]
  refine ⟨_, _, ⟨a.batch, run.next now .succeeded s⟩,
    (collects.snoc (.of_pool handsOver)).snoc (.of_pool takes), handed, ?_, ?_⟩
  · simp [Duty.seat, run, Pool.worker, Worker.Run.fresh]
  · simp [Duty.assignment, run, Worker.Run.fresh]

structure GoesOn (w : Watched σ) (seat : Nat) (r : Report) : Prop where
  /-- It reports until its report is handed over, and is free then. -/
  reports : ∀ {b w'}, Step w b w' → w'.pool.seats[seat]? = some (.reporting r) ∨
    b.move = .handOver seat ∧ w'.pool.seats[seat]? = some .free
  /-- It can go on to the next record in the queue, unless all workers are told to leave or no
  batch will make room for its report. -/
  takes : ∀ {a rest}, w.pool.queue = a :: rest → w.pool.stopping = false →
    w.pool.results.length < w.pool.capacity ∨ w.pool.turn.isSome ∨ w.pool.accepting = true →
      ∃ more w' d, Trace Step w more w' ∧ w'.duties = w.duties ++ [d] ∧ d.seat = seat ∧
        d.assignment = a

-- ---------------------------------------------------------------------------
-- What a batch returns
-- ---------------------------------------------------------------------------

def handed (w : Watched σ) (batch : Nat) : List (Duty σ) := w.duties.filter (·.batch == batch)

structure Stands (duties : List (Duty σ)) (o : JobOutcome) : Prop where
  /-- Nobody was handed a record that did not get into the queue. -/
  nobody : o.outcome = .error .enqueueTimeout ∨ o.outcome = .error .poolClosed →
    ∀ d ∈ duties, d.run.copy.id ≠ o.jobId
  /-- Any other outcome, but for a wait that ran out, is that of the one run on the record. -/
  once : o.outcome ≠ .error .enqueueTimeout → o.outcome ≠ .error .poolClosed →
    o.outcome ≠ .error .resultTimeout →
      ∃ d, duties.filter (·.run.copy.id == o.jobId) = [d] ∧ d.run.outcome? = some o.outcome

variable {batch : Nat} {records : List Record} {next : Submission} {o : JobOutcome}

omit [RecordStore σ] in
theorem countP_handed (wanted : Record → Bool) :
    (w.handed batch).countP (fun d => wanted d.run.copy) =
      w.duties.countP fun d => Assignment.isFor batch wanted d.assignment := by
  rw [handed, List.countP_filter]
  refine List.countP_congr fun d _ => ?_
  simp [Assignment.isFor, Duty.assignment, and_comm]

omit [RecordStore σ] in
theorem countP_handed_le (wanted : Record → Bool) :
    (w.handed batch).countP (fun d => wanted d.run.copy) ≤
      w.floor.errands (Assignment.isFor batch wanted) := by
  rw [countP_handed]
  exact Nat.le_add_left _ _

omit [RecordStore σ] in
theorem Accounts.subperm (accounts : w.Accounts batch records) :
    ((w.handed batch).map (·.run.copy)).Subperm records := by
  refine List.subperm_ext_iff.mpr fun record _ => ?_
  rw [List.count, List.countP_map]
  exact Nat.le_trans (countP_handed_le (· == record)) (accounts.floor.few (· == record))

theorem Accounts.handed_eq_nil (accounts : w.Accounts batch []) (later : Trace Step w beats w') :
    w'.handed batch = [] := by
  have distinct : (([] : List Record).map Record.id).Nodup := List.nodup_nil
  have nobody := (accounts.run later distinct).1.subperm
  simpa using List.subperm_nil.mp nobody

omit [RecordStore σ] in
theorem Accounts.stands (accounts : w.Accounts batch records)
    (distinct : (records.map Record.id).Nodup) (backs : w.floor.Backs r) (own : r.batch = batch)
    (its : r.jobId = o.jobId) (same : r.outcome = o.outcome) : Stands (w.handed batch) o := by
  subst own
  rcases backs with ⟨d, member, hb, hj, finished⟩ | ⟨why, nobody⟩
  · constructor
    · intro given
      rw [same] at finished
      rcases given with given | given
      · cases accounts.manned.isOfPool_eq member (given ▸ finished)
      · cases accounts.manned.isOfPool_eq member (given ▸ finished)
    · intro _ _ _
      refine ⟨d, ?_, same ▸ finished⟩
      have mine : d ∈ (w.handed r.batch).filter (·.run.copy.id == o.jobId) := by
        simp only [handed, List.mem_filter, beq_iff_eq]
        exact ⟨⟨member, hb⟩, hj.trans its⟩
      have few : ((w.handed r.batch).filter (·.run.copy.id == o.jobId)).length ≤ 1 := by
        rw [← List.countP_eq_length_filter]
        exact Nat.le_trans (countP_handed_le (·.id == o.jobId)) (Nat.le_trans
          (accounts.floor.few (·.id == o.jobId)) (countP_id_le_one distinct o.jobId))
      obtain ⟨e, only⟩ :=
        List.length_eq_one_iff.mp (Nat.le_antisymm few (List.length_pos_of_mem mine))
      rw [only] at mine ⊢
      rw [List.mem_singleton.mp mine]
  · constructor
    · intro _ d member its'
      have few : (w.handed r.batch).countP (fun d => d.run.copy.id == r.jobId) ≤ _ :=
        countP_handed_le (·.id == r.jobId)
      rw [nobody, Nat.le_zero, List.countP_eq_zero] at few
      exact few d member (by simp [its', its])
    · intro late closed _
      rw [same] at why
      exact (why.elim late closed).elim

-- ---------------------------------------------------------------------------
-- All in all
-- ---------------------------------------------------------------------------

theorem Step.nonempty (step : Step w b w') : Nonempty (Instant × σ) := by
  cases step with
  | @of _ s _ now => exact ⟨now, s⟩

theorem Step.begun (step : Step w b w₁) (its : b.move = .begin)
    (first : w.pool.line.head? = some next) :
    w₁.pool.nextBatch = w.pool.nextBatch + 1 ∧
      (w₁.pool.collecting? = some (next.ticket, .ofRecords w.pool.nextBatch next.records) ∧
          b.returned = [] ∧
          w₁.floor =
            { w.floor with feeder := Feeder.ofRecords? w.pool.nextBatch next.records } ∨
        w₁.pool.collecting? = none ∧
          b.returned = [(next.ticket, Pool.refusal next.records)] ∧
          w₁.floor = { w.floor with feeder := Feeder.ofRecords? w.pool.nextBatch [] }) := by
  have duties : w₁.duties = w.duties := by
    cases step with
    | of h =>
      obtain rfl := its
      exact (step?_eq_some_iff.mp h).2
  obtain ⟨p, ds⟩ := w
  obtain ⟨p₁, ds₁⟩ := w₁
  obtain rfl : ds₁ = ds := duties
  cases step.pool.effect with
  | submitted => cases its
  | begun idle line =>
    rw [line] at first
    obtain rfl := Option.some.inj first
    exact ⟨rfl, .inl ⟨rfl, rfl, rfl⟩⟩
  | refused idle line =>
    rw [line] at first
    obtain rfl := Option.some.inj first
    have nobody : p.feeder? = none := congrArg (Option.bind · Turn.feeder) idle
    refine ⟨rfl, .inr ⟨congrArg (Option.map _) idle, rfl, ?_⟩⟩
    exact congrArg (fun feeder => { (⟨p, ds₁⟩ : Watched σ).floor with feeder }) nobody
  | told _ notice => cases its; cases notice
  | stuck => cases its
  | framed _ later => exact absurd its later

theorem returned_of_idle {p p' : Pool σ} (trace : Trace Pool.Step p during p')
    (idle : p.collecting? = none) (same : ∀ b ∈ during, b.move ≠ .begin) :
    p'.collecting? = none ∧ during.flatMap Beat.returned = [] := by
  induction trace with
  | nil => exact ⟨idle, rfl⟩
  | @snoc t _ beats b _ last ih =>
    obtain ⟨idle, silent⟩ := ih fun b earlier => same b (List.mem_append_left _ earlier)
    rw [List.flatMap_append, silent, List.flatMap_singleton, List.nil_append]
    have noTurn {turn : Turn} (its : t.turn = some turn) : False := by
      simp [Pool.collecting?, its] at idle
    have later := same b (by simp)
    cases last.effect with
    | submitted => exact ⟨by simpa using idle, rfl⟩
    | begun => exact absurd rfl later
    | refused => exact absurd rfl later
    | told _ _ its => exact (noTurn its).elim
    | stuck its => exact (noTurn its).elim
    | framed _ _ frame silent => exact ⟨frame.collecting.trans idle, silent⟩

omit [RecordStore σ] in
theorem underway_of_tells (told : w.floor.Tells r) : 0 < w.pool.underway (· == r.batch) := by
  cases told with
  | feeder its =>
    have its : w.pool.feeder? = _ := its
    simp only [Pool.underway, its, Option.elim_some, Feeder.underway, beq_self_eq_true,
      Bool.toNat_true]
    omega
  | results waits =>
    have : 0 < w.pool.results.countP fun other => other.batch == r.batch :=
      List.countP_pos_iff.mpr ⟨r, waits, beq_self_eq_true _⟩
    simp only [Pool.underway]
    omega
  | seat reports =>
    have : 0 < w.pool.seats.countP fun st => st.batch?.any (· == r.batch) :=
      List.countP_pos_iff.mpr ⟨_, List.mem_of_getElem? reports, by simp [Seat.batch?]⟩
    simp only [Pool.underway]
    omega

theorem accounts_of_begun (before : Trace Step (start settings registry) beats w)
    (manned : w₁.floor.IsManned) (given : w₁.pool.nextBatch = w.pool.nextBatch + 1)
    (floor : w₁.floor = { w.floor with feeder := Feeder.ofRecords? w.pool.nextBatch records }) :
    w₁.Accounts w.pool.nextBatch records where
  manned := manned
  begun := by omega
  floor := by
    rw [floor]
    constructor
    · intro wanted
      have none := errands_eq_zero_of_trace before w.pool.nextBatch (Nat.le_refl _) wanted
      have brings : (Feeder.ofRecords? w.pool.nextBatch records).elim 0
          (Feeder.errands (Assignment.isFor w.pool.nextBatch wanted)) = records.countP wanted := by
        simp [Feeder.errands_ofRecords?, Assignment.isFor]
      simp only [Floor.errands, brings] at none ⊢
      omega
    · intro r told own
      have unused := Pool.isFresh_of_trace (pool_trace before) r.batch (Nat.le_of_eq own.symm)
      have told : w.floor.Tells r := by
        cases told with
        | feeder its => exact (load_ofRecords? its).elim
        | results waits => exact .results waits
        | seat reports => exact .seat reports
      have := underway_of_tells told
      omega

omit [RecordStore σ] in
theorem stands_of_answers {h : History} {outcomes : List JobOutcome}
    (filling : h.IsFilling batch next.jobIds) (answers : h.Answers next.jobIds outcomes)
    (stands : ∀ r ∈ h.reports, ∀ o : JobOutcome, r.batch = batch → r.jobId = o.jobId →
      r.outcome = o.outcome → Stands (w.handed batch) o) (listed : o ∈ outcomes) :
    Stands (w.handed batch) o := by
  obtain ⟨i, there⟩ := List.getElem?_of_mem listed
  obtain ⟨k, n, told, same⟩ := answers.told there
  cases n with
  | report r =>
    obtain ⟨own, its, _⟩ := filling.report told
    have name : next.jobIds[i]? = some o.jobId := by rw [← answers.order]; simp [there]
    have taken : r ∈ h.reports :=
      List.mem_flatMap.mpr ⟨_, List.mem_of_getElem? told, List.mem_singleton_self r⟩
    exact stands r taken o own (Option.some.inj (its.symm.trans name)) same
  | timeout =>
    -- nothing is said of a record whose wait ran out
    have out : o.outcome = .error .resultTimeout := same.symm
    constructor
    · rintro (given | given)
      · simp [out] at given
      · simp [out] at given
    · exact fun _ _ given => absurd out given

/-- No record is lost, and none is handed over twice. Whatever happens in a pool before, while and
after a batch has its turn, a worker is handed each record of the batch at most once, and what the
batch returns for a record says whether one was: never, if the record timed out on its way into the
queue or the pool was closed; once, and with this outcome, if it is anything but a wait that ran
out. A worker that reports, whatever the outcome, is free as soon as its report is handed over, can
get there and go on to the next record, and leaves only if the pool is shut down. -/
theorem handed_once (before : Trace Step (start settings registry) beats w)
    (begins : Step w b w₁) (its : b.move = .begin) (first : w.pool.line.head? = some next)
    (distinct : next.jobIds.Nodup) (turn : Trace Step w₁ during w₂)
    (same : ∀ b ∈ during, b.move ≠ .begin) (later : Trace Step w₂ after w₃) :
    w₃.floor.IsManned ∧
    ((w₃.handed w.pool.nextBatch).map (·.run.copy)).Subperm next.records ∧
    (∀ ticket outcomes, (ticket, outcomes) ∈ (b :: during).flatMap Beat.returned →
      ticket = next.ticket ∧ outcomes.map JobOutcome.jobId = next.jobIds ∧
        ∀ o ∈ outcomes, Stands (w₃.handed w.pool.nextBatch) o) ∧
    (∀ (seat : Nat) (r : Report), w₃.pool.seats[seat]? = some (.reporting r) →
      w₃.GoesOn seat r) ∧
    ∀ (seat : Nat) b w', Step w₃ b w' → w'.pool.seats[seat]? = some .left →
      w₃.pool.seats[seat]? = some .left ∨ w₃.pool.seats[seat]? = some .free ∧
        (w₃.pool.stopping = true ∨ w₃.pool.isFed = true ∧ w₃.pool.queue = []) := by
  have whole := ((before.snoc begins).append turn).append later
  have manned := begins.isManned (isManned_of_trace before)
  obtain ⟨number, begun⟩ := begins.begun its first
  refine ⟨isManned_of_trace whole, ?_, ?_, ?_, ?_⟩
  · rcases begun with ⟨_, _, floor⟩ | ⟨_, _, floor⟩
    · have accounts := accounts_of_begun before manned number floor
      exact ((accounts.run turn distinct).1.run later distinct).1.subperm
    · have accounts := accounts_of_begun before manned number floor
      rw [accounts.handed_eq_nil (turn.append later)]
      exact List.nil_subperm
  · intro ticket outcomes said
    rw [List.flatMap_cons] at said
    rcases begun with ⟨collecting, silent, floor⟩ | ⟨idle, refused, floor⟩
    · rw [silent, List.nil_append] at said
      have accounts := accounts_of_begun before manned number floor
      obtain ⟨accounts, backed⟩ := accounts.run turn distinct
      have filled := (Pool.submitted_of_trace (pool_trace before) (List.mem_of_mem_head? first)).1
      have waits : (Collection.ofRecords w.pool.nextBatch next.records).isComplete = false := by
        simpa [Collection.ofRecords, Collection.isComplete] using filled
      have served : w₁.pool.Served next w.pool.nextBatch [] [] :=
        .waiting collecting rfl (.start w.pool.nextBatch next.records) waits rfl
      obtain ⟨h, told, served⟩ := served.run (pool_trace turn) same
      rw [← Pool.reports_of_notices told] at backed
      cases served with
      | waiting _ _ _ _ silent => simp [silent] at said
      | @done c _ own filling complete given =>
        rw [given, List.mem_singleton] at said
        obtain ⟨rfl, rfl⟩ := Prod.mk.inj said
        have answers := filling.answers complete
        refine ⟨rfl, answers.order, fun o listed => ?_⟩
        refine stands_of_answers (own ▸ filling.filling) answers ?_ listed
        intro r taken o own its same
        have backs := backs_of_trace later (own ▸ accounts.begun) (backed r taken own)
        exact (accounts.run later distinct).1.stands distinct backs own its same
    · rw [refused, (returned_of_idle (pool_trace turn) idle same).2, List.append_nil,
        List.mem_singleton] at said
      obtain ⟨rfl, rfl⟩ := Prod.mk.inj said
      have accounts := accounts_of_begun before manned number floor
      have none := accounts.handed_eq_nil (turn.append later)
      refine ⟨rfl, by simp [Pool.refusal, Submission.jobIds], fun o listed => ?_⟩
      obtain ⟨record, _, rfl⟩ := List.mem_map.mp listed
      rw [none]
      exact ⟨fun _ _ member => absurd member List.not_mem_nil, fun _ open_ => absurd rfl open_⟩
  · intro seat r reports
    obtain ⟨now, s⟩ := begins.nonempty
    refine ⟨fun step => ?_, fun waits stays way => ?_⟩
    · cases step with
      | of h => exact (change_of_step? h).reporting reports
    · exact exists_taken whole reports way stays waits now s
  · intro seat b w' step gone
    cases step with
    | of h => exact (change_of_step? h).hasLeft gone

end Watched

namespace Watched

open Pool (Beat Move strayRecord)

section
variable {σ : Type} [RecordStore σ] {w w' : Watched σ} {b : Beat} {c : Pool.Cue σ}

def cue? (w : Watched σ) (c : Pool.Cue σ) : Option (Beat × Watched σ) :=
  (w.step? c.time c.store c.move).map fun next =>
    (⟨c.time, c.move, w.pool.notice? c.move, next.2.2⟩, next.1)

theorem step_of_cue? (cue : w.cue? c = some (b, w')) : Step w b w' := by
  obtain ⟨⟨_, s, events⟩, h, same⟩ := Option.map_eq_some_iff.mp cue
  obtain ⟨rfl, rfl⟩ := Prod.mk.inj same
  exact .of h

end

/-- The turn of a batch of four. There is no room for the third, and no wait for the second. -/
def crowded : List Move :=
  [.feed, .feed, .giveUp, .post, .take 0, .handOver 0, .collect, .collect, .take 0, .expire, .feed,
    .handOver 0, .take 0, .collect, .handOver 0, .collect]

/-- One worker serves three of four records, each of which ends its run with an error. -/
theorem handed_once_crowded : ∃ beats during after b,
    ∃ (w w₁ w₂ w₃ : Watched MemoryStore) (outcomes : List JobOutcome),
      Trace Step (start ⟨1, 300, 30, 300⟩ .empty) beats w ∧ Step w b w₁ ∧
        Trace Step w₁ during w₂ ∧ Trace Step w₂ after w₃ ∧
        (0, outcomes) ∈ (b :: during).flatMap Beat.returned ∧
        outcomes.map (·.outcome == .error .enqueueTimeout) = [false, false, true, false] ∧
        outcomes.map (·.outcome == .error .resultTimeout) = [false, true, false, false] ∧
        (w₃.handed 0).map (·.run.copy.id) = ["a", "b", "d"] ∧
        ∀ o ∈ outcomes, Stands (w₃.handed 0) o := by
  have checked : (Trace.play? cue? (start ⟨1, 300, 30, 300⟩ .empty)
      (Pool.movesAtOnce [.submit 0 (["a", "b", "c", "d"].map strayRecord)])).any fun played =>
        played.2.pool.nextBatch == 0 &&
          played.2.pool.line.head? == some ⟨0, ["a", "b", "c", "d"].map strayRecord⟩ &&
          (played.2.cue? ⟨.epoch, .begin, Keyed.empty⟩).any fun begun => begun.1.move == .begin &&
            (Trace.play? cue? begun.2 (Pool.movesAtOnce crowded)).any fun turn =>
              turn.1.all (fun b => b.move ≠ .begin) &&
              ((begun.1 :: turn.1).flatMap Beat.returned).any (fun said => said.1 == 0 &&
                said.2.map (·.outcome == .error .enqueueTimeout) == [false, false, true, false] &&
                said.2.map (·.outcome == .error .resultTimeout) == [false, true, false, false]) &&
              (Trace.play? cue? turn.2 (Pool.movesAtOnce [.shutdown, .leave 0, .drained])).any
                fun last => (last.2.handed 0).map (·.run.copy.id) == ["a", "b", "d"] := by
    decide +kernel
  obtain ⟨beats, w, before, checked⟩ := Trace.exists_of_play? step_of_cue? checked
  simp only [Bool.and_eq_true, beq_iff_eq] at checked
  obtain ⟨⟨number, first⟩, begun⟩ := checked
  obtain ⟨⟨b, w₁⟩, begins, checked⟩ := (Option.any_eq_true _ _).mp begun
  simp only [Bool.and_eq_true, beq_iff_eq] at checked
  obtain ⟨its, played⟩ := checked
  obtain ⟨during, w₂, turn, checked⟩ := Trace.exists_of_play? step_of_cue? played
  simp only [Bool.and_eq_true, List.all_eq_true, decide_eq_true_eq, List.any_eq_true,
    beq_iff_eq] at checked
  obtain ⟨⟨same, ⟨ticket, outcomes⟩, said, ⟨rfl, late⟩, out⟩, played⟩ := checked
  obtain ⟨after, w₃, later, given⟩ := Trace.exists_of_play? step_of_cue? played
  have begins := step_of_cue? begins
  have distinct : (⟨0, ["a", "b", "c", "d"].map strayRecord⟩ : Submission).jobIds.Nodup := by
    decide
  obtain ⟨_, _, stands, _⟩ := handed_once before begins its first distinct turn same later
  rw [number] at stands
  exact ⟨beats, during, after, b, w, w₁, w₂, w₃, outcomes, before, begins, turn, later, said, late,
    out, beq_iff_eq.mp given, (stands _ _ said).2.2⟩

end Watched

end JobQueue
