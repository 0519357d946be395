import JobQueue.Proofs.Pool.Service
import Mathlib.Data.List.Nodup

/-!
# What a call to shut a pool down says

The first call waits for the workers, a later one returns at once. How far that is, and who may have
left by then, every run keeps (`Floor.IsOrderly`). A worker is busy as long as its run on a record is
not over (`busyCount_eq`), so the first call tells how many are: an error with their number, or
success, and then none of them will ever work again (`Floor.IsOver`). A later call says that all is
well, whatever the workers do (`not_answersTruly_secondCall`).
-/

namespace JobQueue

open Time (Instant)

-- ---------------------------------------------------------------------------
-- How far the shutdown is
-- ---------------------------------------------------------------------------

namespace Floor

variable {σ : Type}

/-- Whether the pool accepts batches until it is asked to be shut down, its workers are told to leave
by that call alone, and those who left without being told had nothing left to do. -/
structure IsOrderly (f : Floor σ) : Prop where
  asked : f.accepting = true ↔ f.closing = .notAsked
  told : f.stopping = true → f.closing = .over
  staffed : f.seats.length = f.settings.workerCount
  seated : ∀ d ∈ f.duties, d.seat < f.seats.length
  left : ∀ {seat : Nat}, f.seats[seat]? = some .left →
    f.stopping = true ∨ f.accepting = false ∧ f.feeder = none ∧ f.queue = []

theorem isOrderly_start {settings : Settings} {registry : Registry (Handler σ)} :
    (Watched.start settings registry).floor.IsOrderly where
  asked := by simp [Watched.start, Watched.floor, Pool.start]
  told := nofun
  staffed := List.length_replicate
  seated _ member := absurd member List.not_mem_nil
  left gone := by cases List.eq_of_mem_replicate (List.mem_of_getElem? gone)

structure IsOver (f : Floor σ) : Prop where
  leaving : f.stopping = true ∨ ∀ st ∈ f.seats, st = .left
  idle : ∀ st ∈ f.seats, st.isBusy = false

end Floor

theorem Seat.Fits.length_le {σ : Type} {st : Seat σ} {ds : List (Duty σ)} (fits : st.Fits ds) :
    ds.length ≤ 1 := by
  cases st with
  | working =>
    obtain ⟨d, rfl, _⟩ := fits
    simp
  | _ =>
    obtain rfl : ds = [] := fits
    simp

namespace Pool

variable {σ : Type} {p p' : Pool σ} {events : List Event} {result : Except ShutdownError Unit}
  {now : Instant} {seat : Nat} {s s' : σ}

-- ---------------------------------------------------------------------------
-- Moves that answer nobody
-- ---------------------------------------------------------------------------

theorem not_shut_seen {seen : List Worker.Event} : .shut result ∉ Pool.seen seat seen := by
  simp [Pool.seen]

theorem not_shut_settle {t : Turn} {c : Collection} : .shut result ∉ (p.settle t c).2 := by
  unfold settle
  split
  · simp [finish]
  · simp

theorem not_shut_submit {ticket : Nat} {records : List Record}
    (h : p.submit ticket records = (p', events)) : .shut result ∉ events := by
  obtain rfl := congrArg Prod.snd h
  unfold submit
  split <;> simp

theorem not_shut_begin? (h : p.begin? = some (p', events)) : .shut result ∉ events := by
  unfold begin? at h
  split at h
  · dsimp only at h
    split at h
    · cases h
      simp
    · cases h
      simp
  · cases h

theorem not_shut_take? (h : p.take? now seat = some (p', events)) : .shut result ∉ events := by
  unfold take? at h
  split at h
  · split at h
    · cases h
    · cases h
      exact not_shut_seen
  · cases h

theorem not_shut_work? [RecordStore σ] (h : p.work? now seat s = some (p', s', events)) :
    .shut result ∉ events := by
  unfold work? at h
  split at h
  · split at h
    · cases h
      exact not_shut_seen
    · cases h
  · cases h

theorem not_shut_act? (h : p.act? now seat s = some (p', s', events)) : .shut result ∉ events := by
  unfold act? at h
  split at h
  · dsimp only at h
    split at h
    · cases h
      exact not_shut_seen
    · cases h
      exact not_shut_seen
  · cases h

theorem not_shut_collect? (h : p.collect? = some (p', events)) : .shut result ∉ events := by
  unfold collect? at h
  split at h
  · obtain rfl := congrArg Prod.snd (Option.some.inj h)
    exact not_shut_settle
  · cases h

theorem not_shut_expire? (h : p.expire? = some (p', events)) : .shut result ∉ events := by
  unfold expire? at h
  split at h
  · split at h
    · obtain rfl := congrArg Prod.snd (Option.some.inj h)
      exact not_shut_settle
    · cases h
      simp
  · cases h

-- ---------------------------------------------------------------------------
-- Moves that answer a call
-- ---------------------------------------------------------------------------

inductive Answers (p : Pool σ) : Move → Except ShutdownError Unit → Pool σ → Prop
  | again (asked : p.closing ≠ .notAsked) :
      Answers p .shutdown (.ok ()) { p with accepting := false }
  | drained (gone : p.isEmpty = true) : Answers p .drained (.ok ()) { p with closing := .over }
  | missed : Answers p .deadline p.deadlineResult { p with closing := .over, stopping := true }

theorem Answers.of_shutdown (h : p.shutdown = (p', events)) (said : .shut result ∈ events) :
    p.Answers .shutdown result p' := by
  unfold shutdown at h
  split at h
  · cases h
    cases said
  · next asked =>
    cases h
    obtain rfl : result = .ok () := by simpa using said
    exact .again asked

theorem Answers.of_drained? (h : p.drained? = some (p', events)) (said : .shut result ∈ events) :
    p.Answers .drained result p' := by
  unfold drained? at h
  split at h
  · next why =>
    cases h
    obtain rfl : result = .ok () := by simpa using said
    exact .drained why.2
  · cases h

theorem Answers.of_deadline? (h : p.deadline? = some (p', events))
    (said : .shut result ∈ events) : p.Answers .deadline result p' := by
  unfold deadline? at h
  split at h
  · cases h
    obtain rfl : result = p.deadlineResult := by simpa using said
    exact .missed
  · cases h

end Pool

namespace Watched

open Pool (Move Beat)

variable {σ : Type} [RecordStore σ] {w w' : Watched σ} {f : Floor σ} {now : Instant} {s s' : σ}
  {m : Move} {b : Beat} {beats after : List Beat} {seat : Nat} {settings : Settings}
  {registry : Registry (Handler σ)}

omit [RecordStore σ] in
theorem Shuts.asked {accepting stopping : Bool} {closing : Closing}
    (why : w.Shuts m accepting stopping closing) (orderly : w.floor.IsOrderly) :
    (accepting = true ↔ closing = .notAsked) ∧ (stopping = true → closing = .over) := by
  have asked := orderly.asked
  have told := orderly.told
  cases why with
  | first new => exact ⟨by simp, fun stops => by simp [told stops] at new⟩
  | again before => exact ⟨by simp [before], told⟩
  | drained waits => exact ⟨by simp [asked, waits], fun _ => rfl⟩
  | missed waits => exact ⟨by simp [asked, waits], fun _ => rfl⟩

omit [RecordStore σ] in
theorem Shuts.left {accepting stopping : Bool} {closing : Closing}
    (why : w.Shuts m accepting stopping closing) {nothing : Prop}
    (left : w.floor.stopping = true ∨ w.floor.accepting = false ∧ nothing) :
    stopping = true ∨ accepting = false ∧ nothing := by
  cases why with
  | first => exact left.imp_right fun both => ⟨rfl, both.2⟩
  | again => exact left.imp_right fun both => ⟨rfl, both.2⟩
  | drained => exact left
  | missed => exact .inl rfl

theorem Change.isOrderly (change : w.Change now s m f s') (orderly : w.floor.IsOrderly) :
    f.IsOrderly := by
  have length {seat : Nat} {st : Seat σ} :
      (w.floor.seats.set seat st).length = w.floor.settings.workerCount := by
    rw [List.length_set, orderly.staffed]
  have inside {seat : Nat} {st : Seat σ} (d : Duty σ) (member : d ∈ w.floor.duties) :
      d.seat < (w.floor.seats.set seat st).length := by
    rw [List.length_set]
    exact orderly.seated d member
  have goneOn {seat other : Nat} {st : Seat σ} {verdict : Verdict} (d : Duty σ)
      (member : d ∈ w.floor.duties.map (Duty.goOn other now verdict s)) :
      d.seat < (w.floor.seats.set seat st).length := by
    obtain ⟨before, had, rfl⟩ := List.mem_map.mp member
    rw [Duty.seat_goOn]
    exact inside before had
  -- a worker that has not left just now left before
  have before {seat other : Nat} {st : Seat σ} (differ : st ≠ .left)
      (gone : (w.floor.seats.set seat st)[other]? = some .left) :
      w.floor.stopping = true ∨
        w.floor.accepting = false ∧ w.floor.feeder = none ∧ w.floor.queue = [] :=
    orderly.left ((Seat.eq_of_set gone).resolve_right differ)
  have ofStage {batch : Nat} {jobId : String} {stage : Worker.Stage (Handler σ)} :
      Seat.ofStage batch jobId stage ≠ .left := by
    cases stage <;> simp [Seat.ofStage]
  cases change with
  | aside => exact orderly
  | begun idle accepting =>
    refine ⟨orderly.asked, orderly.told, orderly.staffed, orderly.seated, fun gone => ?_⟩
    simpa [accepting] using orderly.left gone
  | fed its =>
    refine ⟨orderly.asked, orderly.told, orderly.staffed, orderly.seated, fun gone => ?_⟩
    exact (orderly.left gone).imp_right fun nothing => by simp [nothing.2.1] at its
  | rejected its =>
    refine ⟨orderly.asked, orderly.told, orderly.staffed, orderly.seated, fun gone => ?_⟩
    exact (orderly.left gone).imp_right fun nothing => by simp [nothing.2.1] at its
  | posted its =>
    refine ⟨orderly.asked, orderly.told, orderly.staffed, orderly.seated, fun gone => ?_⟩
    exact (orderly.left gone).imp_right fun nothing => by simp [nothing.2.1] at its
  | @took seat a rest run stage free first its =>
    refine ⟨orderly.asked, orderly.told, length, fun d member => ?_, fun gone => ?_⟩
    · rcases List.mem_append.mp member with old | new
      · exact inside d old
      · obtain rfl := List.mem_singleton.mp new
        rw [List.length_set]
        exact its ▸ (List.getElem?_eq_some_iff.mp free).1
    · exact (before ofStage gone).imp_right fun nothing => by simp [nothing.2.2] at first
  | @left seat queue free why kept =>
    refine ⟨orderly.asked, orderly.told, length, inside, fun _ => ?_⟩
    refine why.imp_right fun nothing => ?_
    obtain ⟨isFed, empty⟩ := nothing
    simp only [Pool.isFed, Bool.and_eq_true, Bool.not_eq_true', Option.isNone_iff_eq_none] at isFed
    exact ⟨isFed.1, isFed.2, kept.elim (· ▸ empty) id⟩
  | asked => exact ⟨orderly.asked, orderly.told, length, goneOn, before ofStage⟩
  | judged => exact ⟨orderly.asked, orderly.told, length, goneOn, before ofStage⟩
  | acted => exact ⟨orderly.asked, orderly.told, length, inside, before (by simp)⟩
  | handedOver => exact ⟨orderly.asked, orderly.told, length, inside, before (by simp)⟩
  | collected first kept =>
    refine ⟨orderly.asked, orderly.told, orderly.staffed, orderly.seated, fun gone => ?_⟩
    exact (orderly.left gone).imp_right fun nothing =>
      ⟨nothing.1, kept.elim (· ▸ nothing.2.1) id, nothing.2.2⟩
  | expired kept =>
    refine ⟨orderly.asked, orderly.told, orderly.staffed, orderly.seated, fun gone => ?_⟩
    exact (orderly.left gone).imp_right fun nothing =>
      ⟨nothing.1, kept.elim (· ▸ nothing.2.1) id, nothing.2.2⟩
  | closed why =>
    exact ⟨(why.asked orderly).1, (why.asked orderly).2, orderly.staffed, orderly.seated,
      fun gone => why.left (orderly.left gone)⟩

theorem Step.isOrderly (step : Step w b w') (orderly : w.floor.IsOrderly) :
    w'.floor.IsOrderly := by
  cases step with
  | of h => exact (change_of_step? h).isOrderly orderly

theorem isOrderly_of_trace (trace : Trace Step (start settings registry) beats w) :
    w.floor.IsOrderly :=
  trace.keeps (fun orderly step => step.isOrderly orderly) Floor.isOrderly_start

/-- A pool that was asked to shut down takes no more batches. -/
theorem Change.refuses (change : w.Change now s m f s')
    (closed : w.floor.accepting = false ∨ m = .shutdown) : f.accepting = false := by
  have stays (other : m ≠ .shutdown) : w.floor.accepting = false := closed.resolve_right other
  cases change with
  | aside why => exact stays (by rcases why with rfl | ⟨_, _, rfl⟩ <;> simp)
  | rejected _ why => exact stays (by rcases why with ⟨rfl, _⟩ | ⟨⟨rfl, _⟩, _⟩ <;> simp)
  | closed why =>
    cases why with
    | first => rfl
    | again => rfl
    | drained => exact stays (by simp)
    | missed => exact stays (by simp)
  | _ => exact stays (by simp)

-- ---------------------------------------------------------------------------
-- Who is busy
-- ---------------------------------------------------------------------------

def atWork (w : Watched σ) : Nat := w.duties.countP Duty.isOpen

omit [RecordStore σ] in
theorem isBusy_iff (manned : w.floor.IsManned) (inside : seat < w.pool.seats.length) :
    w.pool.seats[seat]?.any Seat.isBusy = true ↔ ∃ d ∈ w.duties, d.isOpen = true ∧ d.seat = seat := by
  have fits := manned.fits (List.getElem?_eq_getElem inside)
  rw [List.getElem?_eq_getElem inside, Option.any_some]
  have listed : (∃ d ∈ w.duties, d.isOpen = true ∧ d.seat = seat) ↔
      Duty.openAt w.floor.duties seat ≠ [] := by
    simp [Duty.openAt, floor, and_comm]
  rw [listed]
  generalize w.pool.seats[seat] = st at fits
  cases st with
  | working =>
    obtain ⟨d, only, _⟩ := fits
    simp [Seat.isBusy, only]
  | _ => simpa [Seat.isBusy, Seat.Fits] using fits

omit [RecordStore σ] in
/-- A worker is busy as long as its run on a record is not over. -/
theorem busyCount_eq (manned : w.floor.IsManned) (orderly : w.floor.IsOrderly) :
    w.pool.busyCount = w.atWork := by
  have apart : ((w.duties.filter Duty.isOpen).map Duty.seat).Nodup := by
    rw [List.nodup_iff_count_le_one]
    intro seat
    rw [List.count, List.countP_map, List.countP_filter, List.countP_eq_length_filter]
    by_cases inside : seat < w.pool.seats.length
    · exact (manned.fits (List.getElem?_eq_getElem inside)).length_le
    · have nobody : Duty.openAt w.duties seat = [] := by
        rw [Duty.openAt, List.filter_eq_nil_iff]
        rintro d member its
        simp only [Bool.and_eq_true, beq_iff_eq] at its
        exact inside (its.1 ▸ orderly.seated d member)
      have none : (Duty.openAt w.duties seat).length ≤ 1 := by simp [nobody]
      exact none
  have same : ((w.duties.filter Duty.isOpen).map Duty.seat).Perm
      ((List.range w.pool.seats.length).filter fun i => w.pool.seats[i]?.any Seat.isBusy) := by
    rw [List.perm_ext_iff_of_nodup apart (List.nodup_range.filter _)]
    intro seat
    rw [List.mem_filter, List.mem_range, List.mem_map]
    constructor
    · rintro ⟨d, member, rfl⟩
      rw [List.mem_filter] at member
      have inside := orderly.seated d member.1
      exact ⟨inside, (isBusy_iff manned inside).mpr ⟨d, member.1, member.2, rfl⟩⟩
    · rintro ⟨inside, busy⟩
      obtain ⟨d, member, isOpen, its⟩ := (isBusy_iff manned inside).mp busy
      exact ⟨d, List.mem_filter.mpr ⟨member, isOpen⟩, its⟩
  have length := same.length_eq
  rw [List.length_map, ← List.countP_eq_length_filter, ← List.countP_eq_length_filter,
    countP_range_getElem?] at length
  exact length.symm

-- ---------------------------------------------------------------------------
-- Nobody works any more
-- ---------------------------------------------------------------------------

omit [RecordStore σ] in
theorem atWork_eq_zero_iff (manned : w.floor.IsManned) (orderly : w.floor.IsOrderly) :
    w.atWork = 0 ↔ ∀ st ∈ w.floor.seats, st.isBusy = false := by
  rw [← busyCount_eq manned orderly, Pool.busyCount, List.countP_eq_zero]
  simp [floor]

theorem Change.asks (change : w.Change now s m f s') (new : w.floor.closing = .notAsked)
    (asked : f.closing ≠ .notAsked) : m = .shutdown := by
  cases change with
  | closed why =>
    cases why with
    | first => rfl
    | again => rfl
    | drained waits => cases new.symm.trans waits
    | missed waits => cases new.symm.trans waits
  | _ => exact absurd new asked

theorem Change.isOver (change : w.Change now s m f s') (ended : w.floor.IsOver) : f.IsOver := by
  have busy {seat batch : Nat} {jobId : String} {stage : Worker.Stage (Handler σ)}
      {plan : List (Action σ)}
      (works : w.floor.seats[seat]? = some (.working batch jobId stage plan)) : False := by
    cases ended.idle _ (List.mem_of_getElem? works)
  have stays {seat : Nat} {st : Seat σ} (there : w.floor.seats[seat]? = some st)
      (differ : st ≠ .left) : w.floor.stopping = true :=
    ended.leaving.resolve_right fun all => differ (all _ (List.mem_of_getElem? there))
  have idle {seat : Nat} {st : Seat σ} (rests : st.isBusy = false) :
      ∀ st' ∈ w.floor.seats.set seat st, st'.isBusy = false := by
    intro st' member
    rcases List.mem_or_eq_of_mem_set member with old | rfl
    · exact ended.idle st' old
    · exact rests
  cases change with
  | took free first its there goesOn => cases (stays free nofun).symm.trans goesOn
  | left free => exact ⟨.inl (stays free nofun), idle rfl⟩
  | asked works => exact (busy works).elim
  | judged works => exact (busy works).elim
  | acted works => exact (busy works).elim
  | handedOver reports => exact ⟨.inl (stays reports nofun), idle rfl⟩
  | closed why =>
    refine ⟨?_, ended.idle⟩
    cases why with
    | first => exact ended.leaving
    | again => exact ended.leaving
    | drained => exact ended.leaving
    | missed => exact .inl rfl
  | _ => exact ⟨ended.leaving, ended.idle⟩

theorem Step.isOver (step : Step w b w') (ended : w.floor.IsOver) : w'.floor.IsOver := by
  cases step with
  | of h => exact (change_of_step? h).isOver ended

-- ---------------------------------------------------------------------------
-- Answers
-- ---------------------------------------------------------------------------

/-- Whether an answer to a call to shut a pool down is true of its workers. -/
def Warrants (w : Watched σ) : Except ShutdownError Unit → Prop
  | .ok () => w.atWork = 0
  | .error (.deadlineExceeded busy) => 0 < busy ∧ busy = w.atWork

theorem Step.answers (step : Step w b w') {result : Except ShutdownError Unit}
    (said : .shut result ∈ b.events) : w.pool.Answers b.move result w'.pool := by
  cases step with
  | @of _ s s' now m events h =>
    obtain ⟨moved, _⟩ := step?_eq_some_iff.mp h
    have quiet {p? : Option (Pool σ)}
        (h : (p?.map fun p => (p, s, ([] : List Pool.Event))) = some (w'.pool, s', events)) :
        False := by
      obtain ⟨_, _, same⟩ := Option.map_eq_some_iff.mp h
      simp only [Prod.mk.injEq] at same
      simp [← same.2.2] at said
    have loud {p? : Option (Pool σ × List Pool.Event)}
        (h : (p?.map fun next => (next.1, s, next.2)) = some (w'.pool, s', events)) :
        p? = some (w'.pool, events) := by
      obtain ⟨_, made, same⟩ := Option.map_eq_some_iff.mp h
      simp only [Prod.mk.injEq] at same
      rw [made, ← same.1, ← same.2.2]
    cases m with
    | submit => exact (Pool.not_shut_submit (Option.some.inj (loud moved)) said).elim
    | begin => exact (Pool.not_shut_begin? (loud moved) said).elim
    | feed => exact (quiet moved).elim
    | giveUp => exact (quiet moved).elim
    | refuse => exact (quiet moved).elim
    | post => exact (quiet moved).elim
    | take => exact (Pool.not_shut_take? (loud moved) said).elim
    | leave => exact (quiet moved).elim
    | work => exact (Pool.not_shut_work? moved said).elim
    | act => exact (Pool.not_shut_act? moved said).elim
    | handOver => exact (quiet moved).elim
    | collect => exact (Pool.not_shut_collect? (loud moved) said).elim
    | expire => exact (Pool.not_shut_expire? (loud moved) said).elim
    | shutdown => exact .of_shutdown (Option.some.inj (loud moved)) said
    | drained => exact .of_drained? (loud moved) said
    | deadline => exact .of_deadline? (loud moved) said

theorem exists_shutdown (trace : Trace Step (start settings registry) beats w)
    (asked : w.pool.closing ≠ .notAsked) : ∃ b ∈ beats, b.move = .shutdown := by
  induction trace with
  | nil => exact absurd rfl asked
  | @snoc w w' beats b _ last ih =>
    by_cases new : w.pool.closing = .notAsked
    · refine ⟨b, by simp, ?_⟩
      cases last with
      | of h => exact (change_of_step? h).asks new asked
    · obtain ⟨b, earlier, its⟩ := ih new
      exact ⟨b, List.mem_append_left _ earlier, its⟩

/-- The answer to a call to shut a pool down is true, unless it is a later call that returns while
somebody works: the first call says whether anybody works, and how many. If it says that all is
well, nobody will ever work again. -/
theorem warrants_iff (before : Trace Step (start settings registry) beats w) (step : Step w b w')
    {result : Except ShutdownError Unit} (said : .shut result ∈ b.events) :
    (w'.Warrants result ↔ (b.move = .shutdown → w'.atWork = 0)) ∧
      (b.move = .shutdown → result = .ok () ∧ ∃ b ∈ beats, b.move = .shutdown) ∧
      (b.move ≠ .shutdown → result = .ok () →
        ∀ after w'', Trace Step w' after w'' → w''.atWork = 0) := by
  have whole := before.snoc step
  have manned := isManned_of_trace whole
  have orderly := isOrderly_of_trace whole
  have working := busyCount_eq manned orderly
  have stays (leaving : w'.floor.stopping = true ∨ ∀ st ∈ w'.floor.seats, st = .left)
      (idle : w'.atWork = 0) {after : List Beat} {w'' : Watched σ}
      (later : Trace Step w' after w'') : w''.atWork = 0 := by
    have ended : w'.floor.IsOver := ⟨leaving, (atWork_eq_zero_iff manned orderly).mp idle⟩
    have ended := later.keeps (fun ended step => Step.isOver step ended) ended
    exact (atWork_eq_zero_iff (isManned_of_trace (whole.append later))
      (isOrderly_of_trace (whole.append later))).mpr ended.idle
  obtain ⟨p', ds'⟩ := w'
  obtain ⟨now, m, notice, events⟩ := b
  cases step.answers said with
  | again asked => exact ⟨by simp [Warrants], fun _ => ⟨rfl, exists_shutdown before asked⟩, by simp⟩
  | drained gone =>
    have left : ∀ st ∈ w.pool.seats, st = .left := by
      intro st member
      have has := List.all_eq_true.mp gone st member
      cases st with
      | left => rfl
      | _ => cases has
    have idle : (⟨{ w.pool with closing := .over }, ds'⟩ : Watched σ).atWork = 0 := by
      rw [atWork_eq_zero_iff manned orderly]
      rintro st member
      rw [left st member]
      rfl
    exact ⟨by simpa [Warrants] using idle, by simp, fun _ _ _ _ later => stays (.inr left) idle later⟩
  | missed =>
    have same : w.pool.busyCount =
        (⟨{ w.pool with closing := .over, stopping := true }, ds'⟩ : Watched σ).atWork := working
    unfold Pool.deadlineResult
    split
    · next none =>
      have idle := same.symm.trans none
      exact ⟨by simpa [Warrants] using idle, by simp, fun _ _ _ _ later => stays (.inl rfl) idle later⟩
    · next some =>
      have busy := Nat.pos_of_ne_zero some
      exact ⟨by simp [Warrants, ← same, busy], by simp, by simp⟩

def AnswersTruly (settings : Settings) (registry : Registry (Handler σ)) : Prop :=
  ∀ beats w b w', Trace Step (start settings registry) beats w → Step w b w' →
    ∀ result, .shut result ∈ b.events → w'.Warrants result

end Watched

def Pool.Event.shut? : Pool.Event → Option (Except ShutdownError Unit)
  | shut result => some result
  | returned _ _ | worker _ _ => none

theorem Pool.Event.shut?_eq_some_iff {e : Pool.Event} {result : Except ShutdownError Unit} :
    e.shut? = some result ↔ e = .shut result := by
  cases e <;> simp [shut?]

namespace Watched

open Pool (Beat Move)

/-- One worker takes a record that it can claim, and the first call misses its deadline. -/
def caughtAtWork : List Move :=
  [.submit 0 [{ Pool.strayRecord "a" with collection := queueCollection }], .begin, .feed, .take 0,
    .shutdown]

theorem warrants_iff_caughtAtWork : ∃ beats w b w',
    Trace Step (start ⟨1, 300, 30, 300⟩ .empty : Watched MemoryStore) beats w ∧ Step w b w' ∧
      .shut (.error (.deadlineExceeded 1)) ∈ b.events ∧
      w'.Warrants (.error (.deadlineExceeded 1)) := by
  have checked : (Trace.play? cue? (start ⟨1, 300, 30, 300⟩ .empty)
      (Pool.movesAtOnce caughtAtWork)).any fun played =>
        (played.2.cue? ⟨.epoch, .deadline, Keyed.empty⟩).any fun last =>
          decide (last.1.move ≠ .shutdown) &&
            last.1.events.filterMap Pool.Event.shut? == [.error (.deadlineExceeded 1)] := by
    decide +kernel
  obtain ⟨beats, w, before, checked⟩ := Trace.exists_of_play? step_of_cue? checked
  obtain ⟨⟨b, w'⟩, last, checked⟩ := (Option.any_eq_true _ _).mp checked
  simp only [Bool.and_eq_true, decide_eq_true_eq, beq_iff_eq] at checked
  obtain ⟨first, answers⟩ := checked
  have step := step_of_cue? last
  have said : .shut (.error (.deadlineExceeded 1)) ∈ b.events := by
    obtain ⟨e, member, its⟩ := List.mem_filterMap.mp (answers ▸ List.mem_singleton_self _)
    exact Pool.Event.shut?_eq_some_iff.mp its ▸ member
  exact ⟨beats, w, b, w', before, step, said,
    (warrants_iff before step said).1.mpr fun again => absurd again first⟩

/-- A second call says that all is well while a worker is inside its run. -/
theorem not_answersTruly_secondCall :
    ¬ AnswersTruly (σ := MemoryStore) ⟨1, 300, 30, 300⟩ .empty := by
  intro truly
  have checked : (Trace.play? cue? (start ⟨1, 300, 30, 300⟩ .empty)
      (Pool.movesAtOnce (caughtAtWork ++ [.deadline]))).any fun played =>
        (played.2.cue? ⟨.epoch, .shutdown, Keyed.empty⟩).any fun last =>
          last.1.events.filterMap Pool.Event.shut? == [.ok ()] && last.2.atWork == 1 := by
    decide +kernel
  obtain ⟨beats, w, before, checked⟩ := Trace.exists_of_play? step_of_cue? checked
  obtain ⟨⟨b, w'⟩, last, checked⟩ := (Option.any_eq_true _ _).mp checked
  simp only [Bool.and_eq_true, beq_iff_eq] at checked
  obtain ⟨answers, works⟩ := checked
  have said : .shut (.ok ()) ∈ b.events := by
    obtain ⟨e, member, its⟩ := List.mem_filterMap.mp (answers ▸ List.mem_singleton_self _)
    exact Pool.Event.shut?_eq_some_iff.mp its ▸ member
  have idle : w'.atWork = 0 := truly beats w b w' before (step_of_cue? last) _ said
  rw [works] at idle
  cases idle

end Watched

end JobQueue
