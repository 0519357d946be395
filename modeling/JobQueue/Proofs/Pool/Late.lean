import JobQueue.Proofs.Pool.Progress
import JobQueue.Proofs.Pool.Shutdown

/-!
# Reports that nobody takes

A report that comes after its batch has returned stays among the results until another batch
collects; when they are full, a worker waits with its report, and cannot leave. Between two batches
that is so as soon as more reports are late than the results hold (`drains_iff`), and only waits for
a report that have run out make reports late (`underway_le_of_trace`).
-/

namespace JobQueue

open Time (Instant)

-- ---------------------------------------------------------------------------
-- What is on its way and what is waited for
-- ---------------------------------------------------------------------------

namespace Collection

variable {c c' : Collection} {n : Notice}

theorem IsKept.remaining_of_stuck (kept : c.IsKept) (none : c.note? .timeout = none) :
    c.remaining = 0 := by
  have complete : c.isComplete = true := by
    by_contra waits
    obtain ⟨i, target⟩ := kept.target?_timeout (Bool.eq_false_iff.mpr waits)
    obtain ⟨c', noted, _⟩ := kept.note?_closes target
    rw [none] at noted
    cases noted
  simpa [isComplete] using complete

end Collection

namespace Pool

variable {σ : Type} {p p' : Pool σ} {b : Beat} {beats : List Beat} {settings : Settings}
  {registry : Registry (Handler σ)}

def IsKept (p : Pool σ) : Prop := ∀ ticket c, p.collecting? = some (ticket, c) → c.IsKept

def awaited (p : Pool σ) : Nat := p.collecting?.elim 0 fun its => its.2.remaining

theorem collecting?_settle {t : Turn} {c : Collection} {ticket : Nat} {c' : Collection}
    (collects : (p.settle t c).1.collecting? = some (ticket, c')) : c' = c := by
  unfold settle at collects
  split at collects
  · cases collects
  · cases collects
    rfl

theorem awaited_settle {t : Turn} {c : Collection} : (p.settle t c).1.awaited = c.remaining := by
  unfold settle
  split
  · next complete =>
    simpa [awaited, collecting?, finish, Collection.isComplete, eq_comm] using complete
  · rfl

theorem Effect.isKept (e : p.Effect b p') (kept : p.IsKept) : p'.IsKept := by
  intro ticket c collects
  cases e with
  | submitted => exact kept ticket c (collecting?_submit ▸ collects)
  | begun =>
    cases collects
    exact Collection.isKept_ofRecords _ _
  | refused => exact kept ticket c collects
  | told _ _ its _ noted =>
    obtain rfl := collecting?_settle collects
    exact (kept _ _ (congrArg (Option.map _) its)).note noted
  | stuck => cases collects
  | framed _ _ frame => exact kept ticket c (frame.collecting ▸ collects)

/-- A report is on its way for a slot that is open, or for one that a wait has closed. -/
theorem Effect.underway_le (e : p.Effect b p') (kept : p.IsKept) {given : Nat}
    (bound : p.underway (fun _ => true) ≤ p.awaited + given) :
    p'.underway (fun _ => true) ≤ p'.awaited + (given + [b].countP (·.move = .expire)) := by
  have shrinks (later : b.move ≠ .begin) : p'.underway (fun _ => true) + b.reports.length ≤
      p.underway (fun _ => true) := by
    simpa using e.underway later fun _ => true
  cases e with
  | @submitted now ticket records =>
    have same : (p.submit ticket records).1.awaited = p.awaited := by
      rw [awaited, awaited, collecting?_submit]
    rw [underway_submit, same]
    omega
  | @begun now next rest idle =>
    have none : p.awaited = 0 := by simp [awaited, collecting?, idle]
    rw [underway_begun idle]
    simp only [awaited, collecting?, Option.map_some, Option.elim_some, Collection.ofRecords,
      List.length_map, Bool.toNat_true]
    omega
  | refused => exact Nat.le_trans bound (Nat.add_le_add_left (Nat.le_add_right _ _) _)
  | @told now m n t c results notice its taken noted =>
    have fewer := shrinks (by rintro rfl; cases notice)
    have before : p.awaited = t.collection.remaining := by simp [awaited, collecting?, its]
    have kept := kept _ _ (congrArg (Option.map _) its)
    rw [awaited_settle]
    simp only [Beat.reports, Option.elim_some] at fewer
    rcases kept.note?_cases noted with ⟨rfl, r, rfl⟩ | ⟨i, _, closes⟩
    · omega
    · have less := closes.remaining
      cases n with
      | report r =>
        simp only [Notice.reports, List.length_singleton] at fewer
        omega
      | timeout =>
        obtain rfl : m = .expire := by
          cases m with
          | expire => rfl
          | collect =>
            obtain ⟨r, _, its⟩ := Option.map_eq_some_iff.mp notice
            cases its
          | _ => cases notice
        simp only [Notice.reports, List.length_nil] at fewer
        simp only [decide_true, List.countP_singleton, if_true]
        omega
  | @stuck now t its noted =>
    have before : p.awaited = t.collection.remaining := by simp [awaited, collecting?, its]
    have none := (kept _ _ (congrArg (Option.map _) its)).remaining_of_stuck noted
    have fewer := shrinks (by simp)
    omega
  | framed _ later frame =>
    have same : p'.awaited = p.awaited := by rw [awaited, awaited, frame.collecting]
    have fewer := shrinks later
    omega

section
variable [RecordStore σ]

theorem isKept_of_trace (before : Trace Step (start settings registry) beats p) : p.IsKept :=
  before.keeps (fun kept step => step.effect.isKept kept) nofun

theorem underway_le_of_trace (before : Trace Step (start settings registry) beats p) :
    p.underway (fun _ => true) ≤ p.awaited + beats.countP (·.move = .expire) := by
  induction before with
  | nil => simp [underway_start]
  | snoc before last ih =>
    rw [List.countP_append]
    exact last.effect.underway_le (isKept_of_trace before) ih

end

-- ---------------------------------------------------------------------------
-- Between two batches
-- ---------------------------------------------------------------------------

end Pool

def Seat.isReporting {σ : Type} : Seat σ → Bool
  | reporting _ => true
  | free | working _ _ _ _ | left => false

/-- Whether a move is the pool's own: neither a call nor the deadline of one. -/
def Pool.Move.isOwn : Pool.Move → Bool
  | submit _ _ | shutdown | deadline => false
  | _ => true

namespace Pool

variable {σ : Type} {p p' : Pool σ} {b : Beat}

/-- Whether no batch has or awaits its turn, nothing is queued and nobody works. -/
structure IsIdle (p : Pool σ) : Prop where
  turn : p.turn = none
  line : p.line = []
  queue : p.queue = []
  busy : p.busyCount = 0

def IsBlocked (p : Pool σ) (seat : Nat) : Prop :=
  ∃ r, p.seats[seat]? = some (.reporting r) ∧ p.capacity ≤ p.results.length

instance : Decidable p.IsIdle :=
  decidable_of_iff (p.turn = none ∧ p.line = [] ∧ p.queue = [] ∧ p.busyCount = 0)
    ⟨fun ⟨turn, line, queue, busy⟩ => ⟨turn, line, queue, busy⟩,
      fun ⟨turn, line, queue, busy⟩ => ⟨turn, line, queue, busy⟩⟩

def late (p : Pool σ) : Nat := p.results.length + p.seats.countP Seat.isReporting

/-- Whether all workers leave while a call waits for that, in whichever order the pool moves. -/
inductive WillDrain [RecordStore σ] : Pool σ → Prop
  | gone {p : Pool σ} (waits : p.closing = .draining) (gone : p.isEmpty = true) : WillDrain p
  | later {p : Pool σ}
      (goesOn : ∀ now store, ∃ m next, m.isOwn = true ∧ p.step? now store m = some next)
      (all : ∀ b p', Step p b p' → b.move.isOwn = true → WillDrain p') : WillDrain p

/-- Whether a call to shut the pool down ends because all workers leave, whatever other callers do,
unless its deadline is at once. -/
def Drains [RecordStore σ] (p : Pool σ) : Prop :=
  ∀ beats p', Trace Step p beats p' → (∀ b ∈ beats, b.move ≠ .deadline) →
    (∃ b ∈ beats, b.move = .drained) ∨ p'.WillDrain

/-- How many reports are still to come between two batches: those that nobody has taken, and one for
each record that is queued or being worked on. -/
def outstanding (p : Pool σ) : Nat := p.late + p.queue.length + p.busyCount

theorem underway_eq_outstanding (none : p.turn = none) :
    p.underway (fun _ => true) = p.outstanding := by
  have held (seats : List (Seat σ)) : seats.countP (fun st => st.batch?.any fun _ => true) =
      seats.countP Seat.isReporting + seats.countP Seat.isBusy := by
    induction seats with
    | nil => rfl
    | cons st seats ih =>
      rw [List.countP_cons, List.countP_cons, List.countP_cons, ih]
      cases st <;> simp [Seat.batch?, Seat.isReporting, Seat.isBusy] <;> omega
  simp only [underway, held, outstanding, late, busyCount, feeder?, none, List.countP_true,
    Option.bind_none, Option.elim_none]
  omega

theorem IsIdle.underway_eq_late (idle : p.IsIdle) : p.underway (fun _ => true) = p.late := by
  rw [underway_eq_outstanding idle.turn, outstanding, idle.queue, idle.busy]
  rfl

theorem late_of_isBlocked {seat : Nat} (blocked : p.IsBlocked seat) : p.capacity < p.late := by
  obtain ⟨r, there, full⟩ := blocked
  have some : 0 < p.seats.countP Seat.isReporting :=
    List.countP_pos_iff.mpr ⟨_, List.mem_of_getElem? there, rfl⟩
  unfold late
  omega

theorem exists_isBlocked (few : p.results.length ≤ p.capacity) (many : p.capacity < p.late)
    (stuck : ∀ seat, p.handOver? seat = none) : ∃ seat, p.IsBlocked seat := by
  have some : 0 < p.seats.countP Seat.isReporting := by
    unfold late at many
    omega
  obtain ⟨st, member, reports⟩ := List.countP_pos_iff.mp some
  obtain ⟨seat, there⟩ := List.getElem?_of_mem member
  cases st with
  | reporting r =>
    refine ⟨seat, r, there, ?_⟩
    by_contra room
    have handsOver := stuck seat
    simp [handOver?, there, Nat.lt_of_not_le room] at handsOver
  | _ => cases reports

theorem turn_of_effect (e : p.Effect b p') (idle : p.turn = none) (closed : p.accepting = false) :
    p'.turn = none := by
  cases e with
  | submitted =>
    unfold submit
    split <;> exact idle
  | begun _ _ accepting => simp [closed] at accepting
  | refused => exact idle
  | told _ _ its => simp [idle] at its
  | stuck its => simp [idle] at its
  | framed _ _ frame => simpa [collecting?, idle] using frame.collecting

end Pool

namespace Watched

open Pool (Move Beat)

variable {σ : Type} [RecordStore σ] {w w' : Watched σ} {f : Floor σ} {now : Instant} {s s' : σ}
  {m : Move} {b : Beat} {beats : List Beat} {settings : Settings} {registry : Registry (Handler σ)}

/-- Whether a pool that is asked to shut down has nothing left to do but to let its workers go. -/
structure IsResting (w : Watched σ) : Prop where
  turn : w.pool.turn = none
  closed : w.floor.accepting = false
  queue : w.floor.queue = []
  idle : ∀ st ∈ w.floor.seats, st.isBusy = false

/-- In a pool that rests, workers may leave and hand reports over. -/
theorem Change.of_isResting (change : w.Change now s m f s') (rests : w.IsResting)
    (later : m ≠ .collect) :
    f.accepting = false ∧ f.queue = [] ∧ (∀ st ∈ f.seats, st.isBusy = false) ∧
      f.results.length + f.seats.countP Seat.isReporting =
        w.floor.results.length + w.floor.seats.countP Seat.isReporting := by
  have unfed : w.floor.feeder = none := by simp [floor, Pool.feeder?, rests.turn]
  have busy {seat batch : Nat} {jobId : String} {stage : Worker.Stage (Handler σ)}
      {plan : List (Action σ)}
      (works : w.floor.seats[seat]? = some (.working batch jobId stage plan)) : False := by
    cases rests.idle _ (List.mem_of_getElem? works)
  have idle {seat : Nat} {st : Seat σ} (rest : st.isBusy = false) :
      ∀ st' ∈ w.floor.seats.set seat st, st'.isBusy = false := by
    intro st' member
    rcases List.mem_or_eq_of_mem_set member with old | rfl
    · exact rests.idle st' old
    · exact rest
  cases change with
  | begun _ accepting => simp [rests.closed] at accepting
  | fed its => simp [unfed] at its
  | rejected its => simp [unfed] at its
  | posted its => simp [unfed] at its
  | took _ first => simp [rests.queue] at first
  | left free why kept =>
    have moved := countP_set_add Seat.isReporting .left free
    simp only [Seat.isReporting, Bool.toNat_false, Nat.add_zero] at moved
    refine ⟨rests.closed, ?_, idle rfl, congrArg _ moved⟩
    rcases kept with rfl | rfl
    · exact rests.queue
    · rfl
  | asked works => exact (busy works).elim
  | judged works => exact (busy works).elim
  | acted works => exact (busy works).elim
  | handedOver reports =>
    have moved := countP_set_add Seat.isReporting .free reports
    simp only [Seat.isReporting, Bool.toNat_false, Bool.toNat_true] at moved
    refine ⟨rests.closed, rests.queue, idle rfl, ?_⟩
    dsimp only
    rw [List.length_append, List.length_singleton]
    omega
  | collected => exact absurd rfl later
  | closed why =>
    refine ⟨?_, rests.queue, rests.idle, rfl⟩
    cases why with
    | first => rfl
    | again => rfl
    | drained => exact rests.closed
    | missed => exact rests.closed
  | _ => exact ⟨rests.closed, rests.queue, rests.idle, rfl⟩

theorem Step.isResting (step : Step w b w') (rests : w.IsResting) :
    w'.IsResting ∧ w'.pool.late = w.pool.late := by
  have turn := Pool.turn_of_effect step.pool.effect rests.turn rests.closed
  cases step with
  | @of _ s s' now m events h =>
    have later : m ≠ Move.collect := by
      rintro rfl
      have moved := (step?_eq_some_iff.mp h).1
      simp [Pool.step?, Pool.collect?, rests.turn] at moved
    obtain ⟨closed, queue, idle, late⟩ := (change_of_step? h).of_isResting rests later
    exact ⟨⟨turn, closed, queue, idle⟩, late⟩

omit [RecordStore σ] in
theorem IsResting.mem_of_stays (rests : w.IsResting) (stays : w.pool.isEmpty = false) :
    ∃ seat : Nat, w.pool.seats[seat]? = some .free ∨
      ∃ r, w.pool.seats[seat]? = some (.reporting r) := by
  rw [Pool.isEmpty, List.all_eq_false] at stays
  obtain ⟨st, member, there⟩ := stays
  obtain ⟨seat, its⟩ := List.getElem?_of_mem member
  cases st with
  | free => exact ⟨seat, .inl its⟩
  | reporting r => exact ⟨seat, .inr ⟨r, its⟩⟩
  | working => cases rests.idle _ member
  | left => exact absurd rfl there

/-- As long as a worker is there, one can move if the results hold all late reports. -/
theorem exists_own (rests : w.IsResting) (stays : w.pool.isEmpty = false)
    (few : w.pool.late ≤ w.pool.capacity) (now : Instant) (s : σ) :
    ∃ m next, m.isOwn = true ∧ w.pool.step? now s m = some next := by
  obtain ⟨seat, free | ⟨r, reports⟩⟩ := rests.mem_of_stays stays
  · have leaves : ∃ next, w.pool.leave? seat = some next := by
      have closed : w.pool.accepting = false := rests.closed
      have queue : w.pool.queue = [] := rests.queue
      simp [Pool.leave?, free, Pool.isFed, closed, Pool.feeder?, rests.turn, queue]
    obtain ⟨next, leaves⟩ := leaves
    exact ⟨.leave seat, _, rfl, congrArg (Option.map _) leaves⟩
  · have here : 0 < w.pool.seats.countP Seat.isReporting :=
      List.countP_pos_iff.mpr ⟨_, List.mem_of_getElem? reports, rfl⟩
    have room : w.pool.results.length < w.pool.capacity := by
      unfold Pool.late at few
      omega
    have handsOver : ∃ next, w.pool.handOver? seat = some next := by
      simp [Pool.handOver?, reports, room]
    obtain ⟨next, handsOver⟩ := handsOver
    exact ⟨.handOver seat, _, rfl, congrArg (Option.map _) handsOver⟩

theorem isQuiet_of_isResting {next : Pool.Next σ} (rests : w.IsResting) (own : m.isOwn = true)
    (moves : w.pool.step? now s m = some next) : m.isQuiet = true := by
  cases m with
  | giveUp => simp [Pool.step?, Pool.giveUp?, Pool.feeder?, rests.turn] at moves
  | expire => simp [Pool.step?, Pool.expire?, rests.turn] at moves
  | submit => cases own
  | shutdown => cases own
  | _ => rfl

theorem Change.closing_eq (change : w.Change now s m f s')
    (waits : w.floor.closing = .draining) :
    f.closing = .draining ∨ m = .drained ∧ w.pool.isEmpty = true ∨ m = .deadline := by
  cases change with
  | closed why =>
    cases why with
    | first => exact .inl rfl
    | again => exact .inl waits
    | drained _ gone => exact .inr (.inl ⟨rfl, gone⟩)
    | missed => exact .inr (.inr rfl)
  | _ => exact .inl waits

theorem Step.closing_eq (step : Step w b w') (waits : w.pool.closing = .draining) :
    w'.pool.closing = .draining ∨ b.move = .drained ∧ w.pool.isEmpty = true ∨
      b.move = .deadline := by
  cases step with
  | of h => exact (change_of_step? h).closing_eq waits

omit [RecordStore σ] in
theorem wellFounded_rank : WellFounded fun w w' : Watched σ =>
    Prod.Lex (· < ·) (· < ·) w.rank w'.rank :=
  InvImage.wf rank (WellFounded.prod_lex wellFounded_lt wellFounded_lt)

theorem willDrain_of_isResting (rests : w.IsResting) (waits : w.pool.closing = .draining)
    (few : w.pool.late ≤ w.pool.capacity) : w.pool.WillDrain := by
  induction w using wellFounded_rank.induction with
  | _ w ih =>
    cases stays : w.pool.isEmpty with
    | true => exact .gone waits stays
    | false =>
      refine .later (exists_own rests stays few) fun b p' moves own => ?_
      cases moves with
      | @of _ s s' now m events h =>
        have quiet := isQuiet_of_isResting rests own h
        have step := Step.of_pool h
        have goes : w.step? now s m = some (⟨p', w.pool.attend now s w.duties m⟩, s', events) :=
          step?_eq_some_iff.mpr ⟨h, rfl⟩
        obtain ⟨rests', late⟩ := step.isResting rests
        have capacity : Pool.capacity p' = w.pool.capacity :=
          congrArg (·.workerCount * 2) step.rules.1
        refine ih _ (rank_lt goes quiet) rests' ?_ ?_
        · rcases step.closing_eq waits with waits | ⟨_, gone⟩ | missed
          · exact waits
          · rw [stays] at gone
            cases gone
          · dsimp only at missed
            rw [missed] at own
            cases own
        · rw [late]
          exact few.trans_eq capacity.symm

theorem isResting_of_trace (run : Trace Step w beats w') (rests : w.IsResting)
    (waits : w.pool.closing = .draining) (early : ∀ b ∈ beats, b.move ≠ .deadline) :
    w'.IsResting ∧ w'.pool.late = w.pool.late ∧ w'.pool.capacity = w.pool.capacity ∧
      ((∃ b ∈ beats, b.move = .drained) ∨ w'.pool.closing = .draining) := by
  induction run with
  | nil => exact ⟨rests, rfl, rfl, .inr waits⟩
  | @snoc _ _ beats b _ last ih =>
    obtain ⟨rests, late, capacity, so⟩ :=
      ih fun b earlier => early b (List.mem_append_left _ earlier)
    obtain ⟨rests', late'⟩ := last.isResting rests
    have capacity' := congrArg (·.workerCount * 2) last.rules.1
    refine ⟨rests', late'.trans late, Eq.trans capacity' capacity, ?_⟩
    rcases so with ⟨b, earlier, its⟩ | waits
    · exact .inl ⟨b, List.mem_append_left _ earlier, its⟩
    · rcases last.closing_eq waits with waits | ⟨its, _⟩ | missed
      · exact .inr waits
      · exact .inl ⟨b, by simp, its⟩
      · exact absurd missed (early b (by simp))

/-- If more reports are late than the results hold, some worker never leaves. -/
theorem not_willDrain (rests : w.IsResting) (full : w.floor.HasFewResults)
    (many : w.pool.capacity < w.pool.late) (s : σ) : ¬ w.pool.WillDrain := by
  intro drains
  generalize its : w.pool = p at drains
  induction drains generalizing w with
  | gone _ gone =>
    subst its
    have none : w.pool.seats.countP Seat.isReporting = 0 := by
      rw [List.countP_eq_zero]
      intro st member
      have left := List.all_eq_true.mp gone st member
      cases st with
      | left => simp [Seat.isReporting]
      | _ => cases left
    have few : w.pool.results.length ≤ w.pool.capacity := full
    unfold Pool.late at many
    omega
  | later goesOn _ ih =>
    subst its
    obtain ⟨m, ⟨p', s', events⟩, own, moves⟩ := goesOn .epoch s
    have step := Step.of_pool moves
    obtain ⟨rests', late⟩ := step.isResting rests
    have capacity : Pool.capacity p' = w.pool.capacity :=
      congrArg (·.workerCount * 2) step.rules.1
    refine ih _ p' (.of moves) own rests' (step.hasFewResults full) ?_ rfl
    rw [late]
    exact capacity.trans_lt many

end Watched

namespace Pool

variable {σ : Type} [RecordStore σ] {p p₁ : Pool σ} {b : Beat} {beats : List Beat}
  {settings : Settings} {registry : Registry (Handler σ)}

theorem shut_of_step (asks : Step p b p₁) (its : b.move = .shutdown)
    (new : p.closing = .notAsked) : p₁ = { p with accepting := false, closing := .draining } := by
  cases asks with
  | of h =>
    dsimp only at its
    subst its
    simp only [step?, shutdown, new, Option.map_some, Option.some.injEq, Prod.mk.injEq] at h
    exact h.1.symm

/-- The first call to shut down an idle pool ends because all workers leave, whatever its deadline,
exactly if the results hold all reports that nobody has taken; otherwise a worker is blocked or will
be. No more reports are late than waits for a report have run out. -/
theorem drains_iff (before : Trace Step (start settings registry) beats p) (idle : p.IsIdle)
    (new : p.closing = .notAsked) (asks : Step p b p₁) (its : b.move = .shutdown) :
    (p₁.Drains ↔ p.late ≤ p.capacity) ∧
      ((∃ seat, p.IsBlocked seat) → p.capacity < p.late) ∧
      (p.capacity < p.late → (∀ seat, p.handOver? seat = none) → ∃ seat, p.IsBlocked seat) ∧
      p.late ≤ beats.countP (·.move = .expire) := by
  obtain rfl := shut_of_step asks its new
  obtain ⟨ds, watched⟩ := Watched.exists_trace [] before
  have full : p.results.length ≤ p.capacity := Watched.length_results_le_of_trace watched
  have rests : (⟨{ p with accepting := false, closing := .draining }, ds⟩ : Watched σ).IsResting :=
    ⟨idle.turn, rfl, idle.queue, fun st member =>
      Bool.eq_false_iff.mpr (List.countP_eq_zero.mp idle.busy st member)⟩
  refine ⟨⟨fun drains => ?_, fun few beats p' run early => ?_⟩, ?_, ?_, ?_⟩
  · by_contra many
    cases asks with
    | @of _ _ s =>
      rcases drains [] _ (.nil _) (by simp) with ⟨_, none, _⟩ | drains
      · cases none
      · exact Watched.not_willDrain rests full (Nat.lt_of_not_le many) s drains
  · obtain ⟨ds', run⟩ := Watched.exists_trace ds run
    obtain ⟨rests, late, capacity, so⟩ := Watched.isResting_of_trace run rests rfl early
    refine so.imp_right fun waits => Watched.willDrain_of_isResting rests waits ?_
    rw [late, capacity]
    exact few
  · rintro ⟨seat, blocked⟩
    exact late_of_isBlocked blocked
  · exact fun many stuck => exists_isBlocked full many stuck
  · have bound := underway_le_of_trace before
    have none : p.awaited = 0 := by simp [awaited, collecting?, idle.turn]
    rw [idle.underway_eq_late, none, Nat.zero_add] at bound
    exact bound

/-- The waits of a batch of as many records run out while a single worker has the first of them. -/
def ranOutTogether (ids : List String) : List Move :=
  [.submit 0 (ids.map strayRecord), .begin, .feed, .take 0] ++ ids.tail.map (fun _ => .feed) ++
    ids.map fun _ => .expire

theorem drains_iff_twoLate : ∃ beats p b p₁,
    Trace Step (start ⟨1, 300, 30, 300⟩ .empty : Pool MemoryStore) beats p ∧ p.IsIdle ∧
      p.closing = .notAsked ∧ Step p b p₁ ∧ b.move = .shutdown ∧ p.late = 2 ∧ p₁.Drains := by
  have checked : (Trace.play? cue? (start ⟨1, 300, 30, 300⟩ .empty)
      (movesAtOnce (ranOutTogether ["a", "b"] ++ [.handOver 0, .take 0]))).any fun played =>
        decide played.2.IsIdle && decide (played.2.closing = .notAsked) &&
          played.2.late == 2 && played.2.capacity == 2 &&
          (played.2.cue? ⟨.epoch, .shutdown, Keyed.empty⟩).any fun last =>
            decide (last.1.move = .shutdown) := by
    decide +kernel
  obtain ⟨beats, p, before, checked⟩ := Trace.exists_of_play? step_of_cue? checked
  simp only [Bool.and_eq_true, decide_eq_true_eq, beq_iff_eq] at checked
  obtain ⟨⟨⟨⟨idle, new⟩, late⟩, capacity⟩, asked⟩ := checked
  obtain ⟨⟨b, p₁⟩, last, its⟩ := (Option.any_eq_true _ _).mp asked
  have asks := step_of_cue? last
  have its : b.move = .shutdown := by simpa using its
  have few : p.late ≤ p.capacity := by rw [late, capacity]
  exact ⟨beats, p, b, p₁, before, idle, new, asks, its, late,
    (drains_iff before idle new asks its).1.mpr few⟩

/-- Whether no worker of an idle pool is blocked, so that a first call to shut it down ends because
all workers leave. -/
def NeverWedges (settings : Settings) (registry : Registry (Handler σ)) : Prop :=
  ∀ beats p, Trace Step (start settings registry) beats p → p.IsIdle →
    (∀ seat, ¬ p.IsBlocked seat) ∧
      ∀ b p₁, Step p b p₁ → b.move = .shutdown → p.closing = .notAsked → p₁.Drains

/-- Three reports are late, and the results hold two. -/
theorem not_neverWedges_threeLate : ¬ NeverWedges (σ := MemoryStore) ⟨1, 300, 30, 300⟩ .empty := by
  intro never
  have checked : (Trace.play? cue? (start ⟨1, 300, 30, 300⟩ .empty)
      (movesAtOnce (ranOutTogether ["a", "b", "c"] ++
        [.handOver 0, .take 0, .handOver 0, .take 0]))).any fun played =>
        decide played.2.IsIdle && played.2.seats[0]?.any Seat.isReporting &&
          played.2.capacity == played.2.results.length := by
    decide +kernel
  obtain ⟨beats, p, before, checked⟩ := Trace.exists_of_play? step_of_cue? checked
  simp only [Bool.and_eq_true, decide_eq_true_eq, beq_iff_eq] at checked
  obtain ⟨⟨idle, reports⟩, full⟩ := checked
  obtain ⟨st, there, its⟩ := (Option.any_eq_true _ _).mp reports
  cases st with
  | reporting r => exact (never beats p before idle).1 0 ⟨r, there, Nat.le_of_eq full⟩
  | _ => cases its

end Pool

end JobQueue
