import JobQueue.Proofs.Pool.Duty

/-!
# Seats and duties

What a watched pool writes down agrees with what its workers do. A worker that is busy has exactly
one duty that is not over, which is at the stage where the worker is; any other worker has none
(`Floor.IsManned`). No run of a worker ends with an error that only the pool gives.
-/

namespace JobQueue

open Time (Instant)

-- ---------------------------------------------------------------------------
-- Whose errors are whose
-- ---------------------------------------------------------------------------

def JobError.isOfPool : JobError → Bool
  | enqueueTimeout | resultTimeout | poolClosed => true
  | _ => false

namespace Worker

variable {σ η : Type} {w : Worker} {handler? : String → Option η} {now : Instant}
  {record : Record} {next : Progress η}

def Stage.IsOwn : Stage η → Prop
  | .failing _ cause => cause.isOfPool = false
  | .done (.error e) => e.isOfPool = false
  | _ => True

theorem Begun.isOwn (begun : Begun w now record next) : next.1.IsOwn := by
  cases begun with
  | invalid | held => rfl
  | claiming => trivial

theorem Dispatched.isOwn (dispatched : Dispatched w handler? record next) : next.1.IsOwn := by
  cases dispatched with
  | @unread fault => cases fault <;> rfl
  | unhandled => rfl
  | handled => trivial

theorem isOwn_onVerdict {context : Context} {verdict : Verdict} :
    (onVerdict record context verdict : Progress η).1.IsOwn := by
  cases verdict <;> trivial

theorem Called.isOwn [RecordStore σ] {stage : Stage η} {s : σ}
    (called : Called w handler? now s stage next) (own : stage.IsOwn) : next.1.IsOwn := by
  cases called with
  | unclaimed | lost | undeleted | uncounted => rfl
  | beaten | deleted => trivial
  | claimed => exact (dispatched ..).isOwn
  | counted => exact own

theorem Stage.IsOwn.of_outcome? {stage : Stage η} {e : JobError} (own : stage.IsOwn)
    (h : stage.outcome? = some (.error e)) : e.isOfPool = false := by
  cases stage with
  | done outcome =>
    obtain rfl := Option.some.inj h
    exact own
  | _ => cases h

end Worker

theorem Worker.Run.isOwn_next {σ η : Type} [RecordStore σ] {r : Worker.Run η} {now : Instant}
    {verdict : Verdict} {s : σ} {stage : Worker.Stage η} (there : r.stage = some stage)
    (own : stage.IsOwn) :
    ∃ stage', (r.next now verdict s).stage = some stage' ∧ stage'.IsOwn := by
  cases stage with
  | handling record context job handler =>
    exact ⟨_, congrArg _ (next_judge there), isOwn_onVerdict⟩
  | done outcome =>
    have finished : r.outcome? = some outcome := by simp [outcome?, there, Stage.outcome?]
    exact ⟨_, (congrArg _ (next_of_outcome? finished)).trans there, own⟩
  | _ => exact ⟨_, congrArg _ (next_ask there rfl), (called _ _ _ _ rfl).isOwn own⟩

-- ---------------------------------------------------------------------------
-- The duties of a seat
-- ---------------------------------------------------------------------------

namespace Duty

variable {σ : Type} [RecordStore σ] {d : Duty σ} {ds : List (Duty σ)} {seat other : Nat}
  {now : Instant} {verdict : Verdict} {s : σ}

def isOpen (d : Duty σ) : Bool := d.run.outcome?.isNone

def openAt (ds : List (Duty σ)) (seat : Nat) : List (Duty σ) :=
  ds.filter fun d => d.seat == seat && d.isOpen

@[simp] theorem seat_goOn : (d.goOn seat now verdict s).seat = d.seat := by
  unfold goOn
  split <;> simp [Duty.seat]

@[simp] theorem assignment_goOn : (d.goOn seat now verdict s).assignment = d.assignment := by
  unfold goOn
  split <;> simp [Duty.assignment]

@[simp] theorem copy_goOn : (d.goOn seat now verdict s).run.copy = d.run.copy :=
  congrArg Assignment.record assignment_goOn

@[simp] theorem worker_goOn : (d.goOn seat now verdict s).run.worker = d.run.worker := by
  unfold goOn
  split <;> simp

@[simp] theorem handler?_goOn : (d.goOn seat now verdict s).run.handler? = d.run.handler? := by
  unfold goOn
  split <;> simp

theorem goOn_of_ne (other : d.seat ≠ seat) : d.goOn seat now verdict s = d := by
  simp [goOn, other]

theorem run_goOn (same : d.seat = seat) :
    (d.goOn seat now verdict s).run = d.run.next now verdict s := by
  simp [goOn, same]

theorem goOn_of_outcome? {outcome : Outcome} (finished : d.run.outcome? = some outcome) :
    d.goOn seat now verdict s = d := by
  unfold goOn
  split
  · rw [Worker.Run.next_of_outcome? finished]
  · rfl

omit [RecordStore σ] in
theorem openAt_append : openAt (ds ++ [d]) seat =
    openAt ds seat ++ if d.seat == seat && d.isOpen then [d] else [] := by
  simp [openAt, List.filter_append, List.filter_singleton]

theorem openAt_goOn_other (differ : other ≠ seat) :
    openAt (ds.map (goOn seat now verdict s)) other = openAt ds other := by
  induction ds with
  | nil => rfl
  | cons d ds ih =>
    simp only [openAt, List.map_cons, List.filter_cons, seat_goOn] at ih ⊢
    rw [ih]
    by_cases its : d.seat = other
    · rw [goOn_of_ne (its ▸ differ)]
    · simp [its]

theorem openAt_goOn_same : openAt (ds.map (goOn seat now verdict s)) seat =
    ((openAt ds seat).map (goOn seat now verdict s)).filter isOpen := by
  induction ds with
  | nil => rfl
  | cons d ds ih =>
    simp only [openAt, List.map_cons, List.filter_cons, seat_goOn] at ih ⊢
    rw [ih]
    by_cases its : d.seat = seat
    · cases finished : d.run.outcome? with
      | none => simp [its, isOpen, finished, List.filter_cons]
      | some outcome => simp [its, isOpen, finished, goOn_of_outcome? finished]
    · simp [its]

end Duty

def Seat.Fits {σ : Type} : Seat σ → List (Duty σ) → Prop
  | working batch jobId stage _, ds =>
    ∃ d, ds = [d] ∧ d.batch = batch ∧ d.run.copy.id = jobId ∧ d.run.stage = some stage
  | _, ds => ds = []

namespace Floor

variable {σ : Type} {f : Floor σ}

structure IsManned (f : Floor σ) : Prop where
  fits : ∀ {seat : Nat} {st : Seat σ}, f.seats[seat]? = some st →
    st.Fits (Duty.openAt f.duties seat)
  begun : ∀ d ∈ f.duties, ∃ stage, d.run.stage = some stage ∧ stage.IsOwn
  worker : ∀ d ∈ f.duties, d.run.worker = f.worker d.seat
  handler? : ∀ d ∈ f.duties, d.run.handler? = f.registry.find?

theorem IsManned.working (manned : f.IsManned) {seat batch : Nat} {jobId : String}
    {stage : Worker.Stage (Handler σ)} {plan : List (Action σ)}
    (works : f.seats[seat]? = some (.working batch jobId stage plan)) :
    ∃ d ∈ f.duties, Duty.openAt f.duties seat = [d] ∧ d.seat = seat ∧ d.batch = batch ∧
      d.run.copy.id = jobId ∧ d.run.stage = some stage := by
  obtain ⟨d, only, batch, jobId, there⟩ := manned.fits works
  have member : d ∈ Duty.openAt f.duties seat := only ▸ List.mem_singleton_self d
  simp only [Duty.openAt, List.mem_filter, Bool.and_eq_true, beq_iff_eq] at member
  exact ⟨d, member.1, only, member.2.1, batch, jobId, there⟩

/-- No run of a worker ends with an error that only the pool gives. -/
theorem IsManned.isOfPool_eq (manned : f.IsManned) {d : Duty σ} (member : d ∈ f.duties)
    {e : JobError} (finished : d.run.outcome? = some (.error e)) : e.isOfPool = false := by
  obtain ⟨stage, there, own⟩ := manned.begun d member
  rw [Worker.Run.outcome?, there, Option.bind_some] at finished
  exact own.of_outcome? finished

end Floor

theorem Seat.eq_of_set {σ : Type} {seats : List (Seat σ)} {seat other : Nat} {st st' : Seat σ}
    (there : (seats.set seat st)[other]? = some st') : seats[other]? = some st' ∨ st = st' := by
  rw [List.getElem?_set] at there
  split at there
  · rw [Option.ite_none_right_eq_some] at there
    exact .inr (Option.some.inj there.2)
  · exact .inl there

theorem Seat.fits_ofStage {σ : Type} {d : Duty σ} {batch : Nat} {jobId : String}
    {stage : Worker.Stage (Handler σ)} (hb : d.batch = batch) (hj : d.run.copy.id = jobId)
    (there : d.run.stage = some stage) :
    (Seat.ofStage batch jobId stage).Fits ([d].filter Duty.isOpen) := by
  cases stage with
  | done outcome =>
    simp [Seat.ofStage, Seat.Fits, Duty.isOpen, Worker.Run.outcome?, there, Worker.Stage.outcome?]
  | _ =>
    simp [Seat.ofStage, Seat.Fits, Duty.isOpen, Worker.Run.outcome?, there, Worker.Stage.outcome?,
      hb, hj]

namespace Floor

variable {σ : Type} {f f' : Floor σ} {seat : Nat} {st : Seat σ}

theorem isManned_start {settings : Settings} {registry : Registry (Handler σ)} :
    (Watched.start settings registry).floor.IsManned where
  fits there := by
    obtain rfl := List.eq_of_mem_replicate (List.mem_of_getElem? there)
    rfl
  begun _ member := absurd member List.not_mem_nil
  worker _ member := absurd member List.not_mem_nil
  handler? _ member := absurd member List.not_mem_nil

theorem IsManned.fits_set (manned : f.IsManned) {ds : List (Duty σ)}
    (here : st.Fits (Duty.openAt ds seat))
    (others : ∀ other ≠ seat, Duty.openAt ds other = Duty.openAt f.duties other)
    {other : Nat} {st' : Seat σ} (there : (f.seats.set seat st)[other]? = some st') :
    st'.Fits (Duty.openAt ds other) := by
  rw [List.getElem?_set] at there
  split at there
  · next same =>
    rw [Option.ite_none_right_eq_some] at there
    obtain ⟨_, rfl⟩ := Option.some.inj there.2
    exact same ▸ here
  · next differ =>
    rw [others other (Ne.symm differ)]
    exact manned.fits there

theorem IsManned.set (manned : f.IsManned) (here : st.Fits (Duty.openAt f.duties seat)) :
    { f with seats := f.seats.set seat st }.IsManned :=
  ⟨manned.fits_set here fun _ _ => rfl, manned.begun, manned.worker, manned.handler?⟩

variable [RecordStore σ] {now : Instant} {s : σ}

variable {batch : Nat} {jobId : String} {stage next : Worker.Stage (Handler σ)}
  {plan : List (Action σ)} {verdict : Verdict}

theorem IsManned.stage_asked (manned : f.IsManned) (asks : stage.asksStore = true) {d : Duty σ}
    (member : d ∈ f.duties) (its : d.seat = seat) (there : d.run.stage = some stage) :
    (d.run.next now verdict s).stage =
      some ((f.worker seat).call f.registry.find? now stage s).1.1 := by
  rw [Worker.Run.next_ask there asks, manned.worker d member, manned.handler? d member, its]
  rfl

theorem IsManned.moved (manned : f.IsManned)
    (works : f.seats[seat]? = some (.working batch jobId stage plan))
    (moves : ∀ d ∈ f.duties, d.seat = seat → d.run.stage = some stage →
      (d.run.next now verdict s).stage = some next) :
    ∃ d ∈ f.duties.map (Duty.goOn seat now verdict s),
      Duty.openAt (f.duties.map (Duty.goOn seat now verdict s)) seat = [d].filter Duty.isOpen ∧
        d.batch = batch ∧ d.run.copy.id = jobId ∧ d.run.stage = some next := by
  obtain ⟨d, member, only, its, hb, hj, there⟩ := manned.working works
  refine ⟨d.goOn seat now verdict s, List.mem_map_of_mem member, ?_, ?_, ?_, ?_⟩
  · rw [Duty.openAt_goOn_same, only]
    rfl
  · exact (congrArg Assignment.batch (Duty.assignment_goOn (d := d))).trans hb
  · exact (congrArg (fun a => a.record.id) (Duty.assignment_goOn (d := d))).trans hj
  · rw [Duty.run_goOn its]
    exact moves d member its there

theorem IsManned.goOn_cases (manned : f.IsManned)
    (works : f.seats[seat]? = some (.working batch jobId stage plan)) {d : Duty σ}
    (member : d ∈ f.duties) : d.goOn seat now verdict s = d ∨
      d.seat = seat ∧ d.run.copy.id = jobId ∧ d.run.stage = some stage := by
  by_cases its : d.seat = seat
  · cases finished : d.run.outcome? with
    | some outcome => exact .inl (Duty.goOn_of_outcome? finished)
    | none =>
      obtain ⟨d', _, only, _, _, same, there⟩ := manned.working works
      have mine : d ∈ Duty.openAt f.duties seat := by
        simp [Duty.openAt, member, its, Duty.isOpen, finished]
      rw [only, List.mem_singleton] at mine
      subst mine
      exact .inr ⟨its, same, there⟩
  · exact .inl (Duty.goOn_of_ne its)

theorem IsManned.goOn_eq (manned : f.IsManned)
    (works : f.seats[seat]? = some (.working batch jobId stage plan)) {d : Duty σ}
    (member : d ∈ f.duties) (other : d.run.copy.id ≠ jobId) :
    d.goOn seat now verdict s = d :=
  (manned.goOn_cases works member).resolve_right fun moves => other moves.2.1

theorem IsManned.goOn (manned : f.IsManned)
    (works : f.seats[seat]? = some (.working batch jobId stage plan))
    (moves : ∀ d ∈ f.duties, d.seat = seat → d.run.stage = some stage →
      (d.run.next now verdict s).stage = some next) :
    { f with
      seats := f.seats.set seat (.ofStage batch jobId next)
      duties := f.duties.map (Duty.goOn seat now verdict s) }.IsManned := by
  obtain ⟨d, _, only, hb, hj, there⟩ := manned.moved works moves
  refine ⟨manned.fits_set ?_ fun other differ => Duty.openAt_goOn_other differ, ?_, ?_, ?_⟩
  · exact only ▸ Seat.fits_ofStage hb hj there
  · simp only [List.mem_map, forall_exists_index, and_imp]
    rintro _ d member rfl
    obtain ⟨stage, there, own⟩ := manned.begun d member
    unfold Duty.goOn
    split
    · exact Worker.Run.isOwn_next there own
    · exact ⟨stage, there, own⟩
  · simp only [List.mem_map, forall_exists_index, and_imp]
    rintro _ d member rfl
    rw [Duty.worker_goOn, Duty.seat_goOn]
    exact manned.worker d member
  · simp only [List.mem_map, forall_exists_index, and_imp]
    rintro _ d member rfl
    rw [Duty.handler?_goOn]
    exact manned.handler? d member

end Floor

namespace Watched

variable {σ : Type} [RecordStore σ] {w : Watched σ} {f : Floor σ} {now : Instant} {s s' : σ}
  {m : Pool.Move}

theorem Change.isManned (change : w.Change now s m f s') (manned : w.floor.IsManned) :
    f.IsManned := by
  cases change with
  | aside => exact manned
  | begun => exact ⟨manned.fits, manned.begun, manned.worker, manned.handler?⟩
  | fed => exact ⟨manned.fits, manned.begun, manned.worker, manned.handler?⟩
  | rejected => exact ⟨manned.fits, manned.begun, manned.worker, manned.handler?⟩
  | posted => exact ⟨manned.fits, manned.begun, manned.worker, manned.handler?⟩
  | collected => exact ⟨manned.fits, manned.begun, manned.worker, manned.handler?⟩
  | expired => exact ⟨manned.fits, manned.begun, manned.worker, manned.handler?⟩
  | closed => exact ⟨manned.fits, manned.begun, manned.worker, manned.handler?⟩
  | @took seat a rest run stage free first its there =>
    have idle : Duty.openAt w.floor.duties seat = [] := manned.fits free
    have mine : run.worker = w.floor.worker seat := congrArg Worker.Run.worker its
    have taken : (⟨a.batch, run⟩ : Duty σ).seat = seat := congrArg Worker.id mine
    refine ⟨manned.fits_set ?_ ?_, ?_, ?_, ?_⟩
    · have copy : run.copy = a.record := by rw [its]; rfl
      have fits : (Seat.ofStage a.batch a.record.id stage).Fits
          ([(⟨a.batch, run⟩ : Duty σ)].filter Duty.isOpen) :=
        Seat.fits_ofStage rfl (congrArg Record.id copy) there
      rw [Duty.openAt_append, idle, List.nil_append, taken, beq_self_eq_true, Bool.true_and]
      simpa [List.filter_cons] using fits
    · intro other differ
      rw [Duty.openAt_append, taken]
      simp [Ne.symm differ]
    · intro d member
      rcases List.mem_append.mp member with old | new
      · exact manned.begun d old
      · obtain rfl := List.mem_singleton.mp new
        exact ⟨_, congrArg Worker.Run.stage its, (Worker.begun ..).isOwn⟩
    · intro d member
      rcases List.mem_append.mp member with old | new
      · exact manned.worker d old
      · obtain rfl := List.mem_singleton.mp new
        exact taken.symm ▸ mine
    · intro d member
      rcases List.mem_append.mp member with old | new
      · exact manned.handler? d old
      · obtain rfl := List.mem_singleton.mp new
        exact congrArg Worker.Run.handler? its
  | @left seat queue free why kept =>
    have idle : Duty.openAt w.floor.duties seat = [] := manned.fits free
    have kept := manned.set (show (Seat.left : Seat σ).Fits _ from idle)
    exact ⟨kept.fits, kept.begun, kept.worker, kept.handler?⟩
  | asked works asks answered =>
    exact answered ▸ manned.goOn works fun _ member its there =>
      manned.stage_asked asks member its there
  | judged works brought =>
    exact manned.goOn works fun _ _ _ there => congrArg _ (Worker.Run.next_judge there)
  | @acted seat batch jobId record context job handler action rest works goesOn =>
    -- what is left of the plan is no part of a duty
    obtain ⟨d, _, only, _, hb, hj, there⟩ := manned.working works
    exact manned.set ⟨d, only, hb, hj, there⟩
  | @handedOver seat report reports room =>
    have idle : Duty.openAt w.floor.duties seat = [] := manned.fits reports
    have kept := manned.set (show (Seat.free : Seat σ).Fits _ from idle)
    exact ⟨kept.fits, kept.begun, kept.worker, kept.handler?⟩

theorem Step.isManned {w' : Watched σ} {b : Pool.Beat} (step : Step w b w')
    (manned : w.floor.IsManned) : w'.floor.IsManned := by
  cases step with
  | of h => exact (change_of_step? h).isManned manned

theorem isManned_of_trace {settings : Settings} {registry : Registry (Handler σ)}
    {beats : List Pool.Beat} (trace : Trace Step (start settings registry) beats w) :
    w.floor.IsManned :=
  trace.keeps (fun manned step => step.isManned manned) Floor.isManned_start

end Watched

end JobQueue
