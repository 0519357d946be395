import JobQueue.Proofs.Pool.Owed

/-!
# The course of a batch

A batch whose turn is next in a pool in which nobody works, while no caller moves and no wait runs
out. However its feeder, its workers and its collection take turns, something can be done until it
returns; then each of its records has come to an end that is good, if each would come to one when a
worker takes it up (`Occasion.Waiting.ends`).
-/

namespace JobQueue

open Time (Instant)
open Pool (Move Beat Event)

/-- A pool, and the store that its workers share. Nobody else writes to it. -/
structure Workshop (σ : Type) where
  pool : Pool σ
  store : σ

inductive Workshop.Step {σ : Type} [RecordStore σ] : Workshop σ → Beat → Workshop σ → Prop
  | of {ws : Workshop σ} {p' : Pool σ} {s' : σ} {now : Instant} {m : Move} {events : List Event}
      (h : ws.pool.step? now ws.store m = some (p', s', events)) :
      Step ws ⟨now, m, ws.pool.notice? m, events⟩ ⟨p', s'⟩

section
variable {σ : Type} [RecordStore σ] {ws ws' : Workshop σ} {b : Beat} {c : Instant × Move}

def Workshop.cue? (ws : Workshop σ) (c : Instant × Move) : Option (Beat × Workshop σ) :=
  (ws.pool.step? c.1 ws.store c.2).map fun next =>
    (⟨c.1, c.2, ws.pool.notice? c.2, next.2.2⟩, ⟨next.1, next.2.1⟩)

theorem Workshop.step_of_cue? (cue : ws.cue? c = some (b, ws')) : Step ws b ws' := by
  obtain ⟨⟨p', s', events⟩, h, same⟩ := Option.map_eq_some_iff.mp cue
  obtain ⟨rfl, rfl⟩ := Prod.mk.inj same
  exact .of h

inductive Watched.StepOn : Watched σ × σ → Beat → Watched σ × σ → Prop
  | of {w w' : Watched σ} {s s' : σ} {now : Instant} {m : Move} {events : List Event}
      (h : w.step? now s m = some (w', s', events)) :
      StepOn (w, s) ⟨now, m, w.pool.notice? m, events⟩ (w', s')

theorem Workshop.exists_watched {beats : List Beat} (ds : List (Duty σ))
    (trace : Trace Step ws beats ws') : ∃ ds',
      Trace Watched.StepOn (⟨ws.pool, ds⟩, ws.store) beats (⟨ws'.pool, ds'⟩, ws'.store) := by
  induction trace with
  | nil => exact ⟨ds, .nil _⟩
  | snoc _ last ih =>
    obtain ⟨ds, before⟩ := ih
    cases last with
    | of h => exact ⟨_, before.snoc (.of (Watched.step?_eq_some_iff.mpr ⟨h, rfl⟩))⟩

/-- No run of moves without a caller goes on for ever. -/
theorem Workshop.not_forever (states : Nat → Workshop σ) (beats : Nat → Beat) :
    ¬ ∀ i, Step (states i) (beats i) (states (i + 1)) ∧ (beats i).move.isQuiet = true := by
  intro steps
  let both (i : Nat) : Pool σ × σ := ((states i).pool, (states i).store)
  have moves (i : Nat) : (beats i).move.isQuiet = true ∧ ∃ events,
      (both i).1.step? (beats i).time (both i).2 (beats i).move =
        some ((both (i + 1)).1, (both (i + 1)).2, events) := by
    obtain ⟨step, quiet⟩ := steps i
    refine ⟨quiet, ?_⟩
    dsimp only [both]
    generalize beats i = b at step
    generalize states (i + 1) = next at step
    cases step with
    | of h => exact ⟨_, h⟩
  exact Watched.not_forever moves

end

/-- Whether a move is none of a caller and no end of a wait, at a time that the clock shows, and at
one at which copies are checked if a worker takes a record. -/
structure Pool.Beat.Suits (times checks : Instant → Prop) (b : Beat) : Prop where
  quiet : b.move.isQuiet = true
  time : times b.time
  check : ∀ seat, b.move = .take seat → checks b.time

/-- A batch, what the pool that it is submitted to goes by, and what is stored then. -/
structure Occasion where
  settings : Settings
  registry : Registry (Handler MemoryStore)
  /-- The number that the pool gives to its next batch. -/
  number : Nat
  ticket : Nat
  records : List Record
  store : MemoryStore

namespace Occasion

def submitted (o : Occasion) (p : Pool MemoryStore) : Workshop MemoryStore :=
  ⟨(p.submit o.ticket o.records).1, o.store⟩

def returnedBy (o : Occasion) (p : Pool MemoryStore) (beats : List Beat) :
    List (Nat × List JobOutcome) :=
  (p.submit o.ticket o.records).2.filterMap Event.returned? ++ beats.flatMap Beat.returned

def next (o : Occasion) : Submission := ⟨o.ticket, o.records⟩

/-- Whether each record of the batch would come to a good end if it were taken up at a time of a
check, and no reading of the clock makes a difference to that later. -/
structure Promises (o : Occasion) (times checks : Instant → Prop) (t : Instant)
    (good : Record → Ending → Prop) : Prop where
  distinct : (o.records.map Record.id).Nodup
  handsOff : Worker.AreHandsOff o.registry.find?
  now : times t
  timeless : IsTimeless times good
  begins : ∀ r ∈ o.records, ∀ (worker : Worker) now, checks now →
    worker.window = o.settings.reservationWindow →
      good r ((worker.begin now r).1.fate worker o.registry.find? t (o.store.find? r.id))

structure Going (o : Occasion) (t : Instant) (good : Record → Ending → Prop)
    (w : Watched MemoryStore) (s : MemoryStore) (h : History)
    (returned : List (Nat × List JobOutcome)) : Prop where
  accounts : w.Accounts o.number o.records
  settings : w.floor.settings = o.settings
  registry : w.floor.registry = o.registry
  line : w.pool.line = []
  serving : w.floor.IsServing
  ended : w.floor.AllEnded o.number
  plans : w.floor.KeepsPlans
  alone : w.floor.errands (fun a => a.batch != o.number) = 0
  fated : w.floor.IsFated t good o.store s
  served : w.pool.Served o.next o.number h returned
  heard : ∀ n ∈ h.map Prod.fst, ∃ r, n = .report r ∧ (r.batch = o.number → w.floor.Ended r)
  owed : w.IsOwed

variable {o : Occasion} {times checks : Instant → Prop} {t now : Instant}
  {good : Record → Ending → Prop} {w w' : Watched MemoryStore} {s s' : MemoryStore} {h : History}
  {returned : List (Nat × List JobOutcome)} {m : Move} {events : List Event}
  {p p' : Pool MemoryStore} {line : List Submission} {earlier : Nat → Prop}

-- ---------------------------------------------------------------------------
-- The duties of the batch
-- ---------------------------------------------------------------------------

theorem Going.handed_eq (going : o.Going t good w s h returned) :
    w.handed o.number = w.duties := by
  refine List.filter_eq_self.mpr fun d member => ?_
  have none := going.alone
  simp only [Floor.errands, Nat.add_eq_zero_iff, List.countP_eq_zero] at none
  simpa [Duty.assignment] using none.2 d member

theorem Going.copy_mem (going : o.Going t good w s h returned) {d : Duty MemoryStore}
    (member : d ∈ w.duties) : d.run.copy ∈ o.records :=
  going.accounts.subperm.subset (List.mem_map_of_mem (going.handed_eq.symm ▸ member))

theorem Going.distinct (going : o.Going t good w s h returned)
    (distinct : (o.records.map Record.id).Nodup) : (w.duties.map (·.run.copy.id)).Nodup := by
  refine List.nodup_iff_count_le_one.mpr fun id => ?_
  have few := going.accounts.subperm.countP_le (·.id == id)
  rw [going.handed_eq, List.countP_map] at few
  rw [List.count, List.countP_map]
  exact Nat.le_trans few (Watched.countP_id_le_one distinct id)

/-- What waits in the queue is a record of the batch that nobody was handed before. -/
theorem Going.waiting (going : o.Going t good w s h returned)
    (distinct : (o.records.map Record.id).Nodup) {a : Assignment} {rest : List Assignment}
    (queue : w.floor.queue = a :: rest) :
    a.record ∈ o.records ∧ ∀ d ∈ w.duties, d.run.copy.id ≠ a.record.id := by
  have own : a.batch = o.number := by
    have none := going.alone
    simp only [Floor.errands, Nat.add_eq_zero_iff, List.countP_eq_zero] at none
    simpa using none.1.2 a (queue ▸ List.mem_cons_self)
  have few (wanted : Record → Bool) (its : wanted a.record = true) :
      1 + w.duties.countP (fun d => wanted d.run.copy) ≤ o.records.countP wanted := by
    have few := going.accounts.floor.few wanted
    have first : Assignment.isFor o.number wanted a = true := by simp [Assignment.isFor, own, its]
    have handed : (w.handed o.number).countP (fun d => wanted d.run.copy) = _ :=
      Watched.countP_handed wanted
    rw [going.handed_eq] at handed
    simp only [Floor.errands, queue, List.countP_cons, first, if_true] at few
    have same : w.floor.duties = w.duties := rfl
    rw [same] at few
    omega
  constructor
  · have there := few (· == a.record) (beq_self_eq_true _)
    have pos : 0 < o.records.countP (· == a.record) := by omega
    obtain ⟨record, member, same⟩ := List.countP_pos_iff.mp pos
    exact beq_iff_eq.mp same ▸ member
  · intro d member same
    have there := few (·.id == a.record.id) (beq_self_eq_true _)
    have one := Watched.countP_id_le_one distinct a.record.id
    have pos : 0 < w.duties.countP fun d => d.run.copy.id == a.record.id :=
      List.countP_pos_iff.mpr ⟨d, member, by simp [same]⟩
    omega

-- ---------------------------------------------------------------------------
-- What every move keeps
-- ---------------------------------------------------------------------------

theorem notice?_of_isQuiet {p : Pool MemoryStore} (quiet : m.isQuiet = true) {n : Notice}
    (told : p.notice? m = some n) : m = .collect ∧ ∃ r ∈ p.results, n = .report r := by
  cases m with
  | collect =>
    obtain ⟨r, first, rfl⟩ := Option.map_eq_some_iff.mp told
    exact ⟨rfl, r, List.mem_of_mem_head? first, rfl⟩
  | expire => cases quiet
  | _ => cases told

/-- What returns before the next batch gets its turn is the call whose turn it is. -/
theorem earlier_of_effect {b : Beat} (e : p.Effect b p') (later : b.move ≠ .begin)
    (turn : ∀ ticket c, p.collecting? = some (ticket, c) → earlier ticket) :
    (∀ ticket c, p'.collecting? = some (ticket, c) → earlier ticket) ∧
      ∀ call ∈ b.returned, earlier call.1 := by
  have finishes {now : Instant} {m : Move} {n : Notice} {t : Turn} {c : Collection}
      (its : p.turn = some t) (call : Nat × List JobOutcome)
      (said : call ∈ (⟨now, m, some n, (p.finish t c).2⟩ : Beat).returned) : earlier call.1 := by
    have own := turn _ _ (congrArg (Option.map _) its)
    cases m with
    | submit => cases said
    | _ =>
      obtain rfl := List.mem_singleton.mp said
      exact own
  cases e with
  | submitted =>
    exact ⟨fun ticket c collects => turn ticket c (Pool.collecting?_submit ▸ collects), nofun⟩
  | begun => exact absurd rfl later
  | refused => exact absurd rfl later
  | told results notice its =>
    unfold Pool.settle
    split
    · exact ⟨nofun, finishes its⟩
    · refine ⟨fun ticket c collects => ?_, ?_⟩
      · obtain ⟨rfl, _⟩ := Prod.mk.inj (Option.some.inj collects)
        exact turn _ _ (congrArg (Option.map _) its)
      · simp [Pool.Beat.returned_of_silent]
  | stuck its => exact ⟨nofun, finishes its⟩
  | framed _ _ frame silent =>
    exact ⟨fun ticket c collects => turn ticket c (frame.collecting ▸ collects), by simp [silent]⟩

theorem Going.step (going : o.Going t good w s h returned)
    (promises : o.Promises times checks t good) (step : w.step? now s m = some (w', s', events))
    (suits : (⟨now, m, w.pool.notice? m, events⟩ : Beat).Suits times checks) :
    ∃ h', o.Going t good w' s' h'
      (returned ++ (⟨now, m, w.pool.notice? m, events⟩ : Beat).returned) := by
  obtain ⟨quiet, hn, check⟩ := suits
  have change := Watched.change_of_step? step
  have effect := (Watched.Step.of step).pool.effect
  have later : m ≠ .begin := by
    rintro rfl
    have moved := (Watched.step?_eq_some_iff.mp step).1
    simp [Pool.step?, Pool.begin?, going.line] at moved
  obtain ⟨settings, registry⟩ := change.rules
  obtain ⟨h', told, served⟩ := going.served.step effect later
  refine ⟨h', ?_⟩
  constructor
  case accounts => exact (Watched.Step.of step).accounts promises.distinct going.accounts
  case settings => exact settings.trans going.settings
  case registry => exact registry.trans going.registry
  case line => exact (Watched.line_of_effect effect quiet later).trans going.line
  case serving => exact change.isServing quiet going.serving
  case ended => exact change.allEnded quiet going.accounts.manned going.serving going.ended
  case plans => exact change.keepsPlans (going.registry ▸ promises.handsOff) going.plans
  case alone =>
    have few : w'.floor.errands (fun a => a.batch != o.number) ≤ _ :=
      change.errands_le fun begins => absurd begins later
    exact Nat.eq_zero_of_le_zero (going.alone ▸ few)
  case fated =>
    refine change.isFated promises.timeless going.accounts.manned going.plans
      (going.distinct promises.distinct) hn promises.now ?_ going.fated
    intro seat a rest takes queue
    obtain ⟨member, nobody⟩ := going.waiting promises.distinct queue
    rw [going.fated.others _ nobody, going.registry]
    exact promises.begins a.record member _ now (check seat takes)
      (congrArg Settings.reservationWindow going.settings)
  case served => exact served
  case heard =>
    intro n listed
    rw [told, List.mem_append, Option.mem_toList] at listed
    rcases listed with old | new
    · obtain ⟨r, rfl, ended⟩ := going.heard n old
      exact ⟨r, rfl, fun own => change.ended (ended own)⟩
    · obtain ⟨_, r, waits, rfl⟩ := notice?_of_isQuiet quiet new
      exact ⟨r, rfl, fun own => change.ended (going.ended r (.results waits) own)⟩
  case owed =>
    refine (Watched.Step.of step).isOwed (change.isServing quiet going.serving).stays ?_ going.owed
    simp [going.line]

-- ---------------------------------------------------------------------------
-- How it begins
-- ---------------------------------------------------------------------------

/-- Whether nothing goes on in a pool, before the batch gets its turn, but that the batch of an
earlier ticket collects what is reported to it. -/
structure Waiting (o : Occasion) (earlier : Nat → Prop) (p : Pool MemoryStore)
    (line : List Submission) : Prop where
  settings : p.settings = o.settings
  registry : p.registry = o.registry
  number : p.nextBatch = o.number
  line : p.line = line
  jobless : (Watched.floor ⟨p, []⟩).IsJobless
  serving : (Watched.floor ⟨p, []⟩).IsServing
  turn : ∀ ticket c, p.collecting? = some (ticket, c) → earlier ticket
  owed : (⟨p, []⟩ : Watched MemoryStore).IsOwed
  fresh : p.underway (· == o.number) = 0

theorem Waiting.not_working (waits : o.Waiting earlier p line) {seat batch : Nat} {jobId : String}
    {stage : Worker.Stage (Handler MemoryStore)} {plan : List (Action MemoryStore)} :
    p.seats[seat]? ≠ some (.working batch jobId stage plan) := by
  intro works
  cases waits.jobless.rests _ (List.mem_of_getElem? works)

theorem Waiting.not_tells (waits : o.Waiting earlier p line) {r : Report}
    (own : r.batch = o.number) : ¬ (Watched.floor ⟨p, []⟩).Tells r := by
  intro told
  have some := Watched.underway_of_tells told
  rw [own] at some
  exact Nat.ne_of_gt some waits.fresh

theorem Waiting.manned (waits : o.Waiting earlier p line) : (Watched.floor ⟨p, []⟩).IsManned := by
  refine ⟨?_, by simp [Watched.floor], by simp [Watched.floor], by simp [Watched.floor]⟩
  intro seat st there
  cases st with
  | working => exact absurd there waits.not_working
  | _ => rfl

def begun (p : Pool MemoryStore) (next : Submission) (rest : List Submission) :
    Pool MemoryStore :=
  { p with
    line := rest
    nextBatch := p.nextBatch + 1
    turn := some ⟨next.ticket, .ofRecords p.nextBatch next.records,
      Feeder.ofRecords? p.nextBatch next.records⟩ }

theorem Waiting.begins {next : Submission} {rest : List Submission}
    (waits : o.Waiting earlier p (next :: rest)) (idle : p.turn = none) :
    p.step? now s .begin = some (begun p next rest, s, []) := by
  have accepting : p.accepting = true := waits.serving.accepting
  simp [Pool.step?, Pool.begin?, begun, idle, waits.line, accepting]

theorem Waiting.of_begin (waits : o.Waiting earlier p line)
    (moved : p.step? now s .begin = some (p', s', events)) :
    s' = s ∧ events = [] ∧ ∃ next rest, line = next :: rest ∧ p' = begun p next rest := by
  cases its : p.turn with
  | some => simp [Pool.step?, Pool.begin?, its] at moved
  | none =>
    cases line with
    | nil => simp [Pool.step?, Pool.begin?, its, waits.line] at moved
    | cons next rest =>
      rw [waits.begins its] at moved
      cases moved
      exact ⟨rfl, rfl, next, rest, rfl, rfl⟩

/-- Nothing can happen before the batch gets its turn but that an earlier one collects. -/
theorem Waiting.step (waits : o.Waiting earlier p line)
    (filled : ∀ next ∈ line, next.records ≠ [])
    (moved : p.step? now s m = some (p', s', events)) (quiet : m.isQuiet = true) :
    s' = s ∧ (∀ call ∈ (⟨now, m, p.notice? m, events⟩ : Beat).returned, earlier call.1) ∧
      (o.Waiting earlier p' line ∨ ∃ next rest, line = next :: rest ∧ p' = begun p next rest) := by
  by_cases begins : m = .begin
  · subst begins
    obtain ⟨rfl, rfl, next, rest, its, rfl⟩ := waits.of_begin moved
    rw [Pool.Beat.returned_of_silent]
    exact ⟨rfl, fun _ none => absurd none List.not_mem_nil, .inr ⟨next, rest, its, rfl⟩⟩
  · have effect := (Pool.Step.of moved).effect
    have attends : p.attend now s [] m = [] := Watched.attend_nil waits.jobless.queue
    have step : (⟨p, []⟩ : Watched MemoryStore).step? now s m = some (⟨p', []⟩, s', events) :=
      Watched.step?_eq_some_iff.mpr ⟨moved, attends.symm⟩
    have change := Watched.change_of_step? step
    obtain ⟨jobless, rfl⟩ := change.isJobless waits.jobless begins
    have serving := change.isServing quiet waits.serving
    obtain ⟨turn, returned⟩ := earlier_of_effect effect begins waits.turn
    obtain ⟨settings, registry⟩ := change.rules
    refine ⟨rfl, returned, .inl ⟨settings.trans waits.settings, registry.trans waits.registry, ?_,
      ?_, jobless, serving, turn, ?_, ?_⟩⟩
    · have same := Watched.nextBatch_of_effect effect
      rw [if_neg begins] at same
      exact same.trans waits.number
    · exact (Watched.line_of_effect effect quiet begins).trans waits.line
    · exact (Watched.Step.of step).isOwed serving.stays (waits.line ▸ filled) waits.owed
    · have none := waits.fresh
      have fewer := effect.underway begins (· == o.number)
      omega

theorem Waiting.going (waits : o.Waiting earlier p line) (filled : o.records ≠ []) :
    o.Going t good ⟨begun p o.next [], []⟩ o.store [] [] := by
  let w : Watched MemoryStore := ⟨begun p o.next [], []⟩
  have brings (wanted : Assignment → Bool) : w.floor.errands wanted =
      o.records.countP fun record => wanted ⟨p.nextBatch, record⟩ := by
    have queue : p.queue = [] := waits.jobless.queue
    have fed : (Feeder.ofRecords? p.nextBatch o.records).elim 0 (Feeder.errands wanted) =
        o.records.countP fun record => wanted ⟨p.nextBatch, record⟩ := Feeder.errands_ofRecords?
    simpa [Floor.errands, w, Watched.floor, begun, Pool.feeder?, queue, next] using fed
  have untold {r : Report} (told : w.floor.Tells r) (own : r.batch = o.number) : False := by
    cases told with
    | feeder its => exact Watched.load_ofRecords? its
    | results listed => exact waits.not_tells own (.results listed)
    | seat reports => exact waits.not_tells own (.seat reports)
  constructor
  case accounts =>
    have manned := waits.manned
    refine ⟨⟨manned.fits, manned.begun, manned.worker, manned.handler?⟩, ?_, fun wanted => ?_,
      fun told own => (untold told own).elim⟩
    · exact waits.number ▸ Nat.lt_succ_self _
    · rw [brings, waits.number]
      simp [Assignment.isFor]
  case settings => exact waits.settings
  case registry => exact waits.registry
  case line => rfl
  case serving =>
    have serving := waits.serving
    exact ⟨serving.accepting, serving.stopping, serving.closing, serving.inhabited, serving.stays⟩
  case ended => exact fun _ told own => (untold told own).elim
  case plans => exact fun works => (waits.not_working works).elim
  case alone =>
    rw [brings, waits.number]
    simp
  case fated => exact ⟨fun _ member => absurd member List.not_mem_nil, fun _ _ => rfl⟩
  case served =>
    have some : (Collection.ofRecords p.nextBatch o.records).isComplete = false := by
      simpa [Collection.ofRecords, Collection.isComplete] using filled
    exact .waiting rfl waits.number (.start p.nextBatch o.records) some rfl
  case heard => exact fun _ listed => absurd listed List.not_mem_nil
  case owed =>
    intro ticket c collecting
    obtain ⟨_, rfl⟩ := Prod.mk.inj (Option.some.inj collecting)
    exact Watched.owes_begun filled

-- ---------------------------------------------------------------------------
-- How it ends
-- ---------------------------------------------------------------------------

theorem Going.exists_duty (going : o.Going t good w s h returned)
    (distinct : (o.records.map Record.id).Nodup) {outcomes : List JobOutcome}
    (filling : h.IsFilling o.number o.next.jobIds)
    (answers : h.Answers o.next.jobIds outcomes) {i : Nat} {r : Record} {out : JobOutcome}
    (its : o.records[i]? = some r) (there : outcomes[i]? = some out) :
    ∃ d ∈ w.duties, d.run.copy = r ∧ d.run.outcome? = some out.outcome := by
  obtain ⟨k, n, told, same⟩ := answers.told there
  have listed : n ∈ h.map Prod.fst := List.mem_map_of_mem (List.mem_of_getElem? told)
  obtain ⟨report, rfl, ended⟩ := going.heard n listed
  obtain ⟨own, name, _⟩ := filling.report told
  obtain ⟨d, member, _, mine, finished⟩ := ended own
  have name' : o.next.jobIds[i]? = some r.id := by simp [Submission.jobIds, next, its]
  have same : report.outcome = out.outcome := same
  refine ⟨d, member, ?_, same ▸ finished⟩
  refine List.inj_on_of_nodup_map distinct (going.copy_mem member) (List.mem_of_getElem? its) ?_
  rw [mine]
  exact Option.some.inj (name.symm.trans name')

theorem Going.isGood (going : o.Going t good w s h returned) {d : Duty MemoryStore}
    (member : d ∈ w.duties) {outcome : Outcome} (finished : d.run.outcome? = some outcome) :
    good d.run.copy (outcome, s.find? d.run.copy.id) := by
  obtain ⟨stage, at_, _, fate⟩ := going.fated.each d member
  rw [Worker.Run.outcome?, at_, Option.bind_some] at finished
  cases stage with
  | done outcome' =>
    obtain rfl := Option.some.inj finished
    exact fate
  | _ => cases finished

/-- Once workers have come to an end with all records of the batch, no job is queued or running. -/
theorem Going.isJobless (going : o.Going t good w s h returned)
    (distinct : (o.records.map Record.id).Nodup) (idle : w.pool.turn = none)
    (all : ∀ r ∈ o.records, ∃ d ∈ w.duties, d.run.copy = r ∧
      ∃ outcome, d.run.outcome? = some outcome) :
    (Watched.floor ⟨w.pool, []⟩).IsJobless := by
  refine ⟨?_, ?_, ?_⟩
  · intro g fed
    have none : w.pool.feeder? = none := by simp [Pool.feeder?, idle]
    cases none.symm.trans fed
  · cases queue : w.floor.queue with
    | nil => exact queue
    | cons a rest =>
      obtain ⟨member, nobody⟩ := going.waiting distinct queue
      obtain ⟨d, handed, copy, _⟩ := all a.record member
      exact absurd (congrArg Record.id copy) (nobody d handed)
  · intro st inside
    obtain ⟨seat, there⟩ := List.getElem?_of_mem inside
    cases st with
    | working =>
      obtain ⟨d, member, only, _⟩ := going.accounts.manned.working there
      obtain ⟨d', member', copy, outcome, finished⟩ := all d.run.copy (going.copy_mem member)
      obtain rfl : d' = d := List.inj_on_of_nodup_map (going.distinct distinct) member' member
        (congrArg Record.id copy)
      have isOpen : d' ∈ Duty.openAt w.floor.duties seat := only ▸ List.mem_singleton_self d'
      simp [Duty.openAt, Duty.isOpen, finished] at isOpen
    | _ => rfl

theorem Going.exists_quiet (going : o.Going t good w s h []) (now : Instant) :
    ∃ m next, m.isQuiet = true ∧ w.pool.step? now s m = some next := by
  cases going.served with
  | waiting collecting =>
    obtain ⟨t, its, _⟩ := Option.map_eq_some_iff.mp collecting
    exact going.owed.exists_quiet going.accounts.manned going.serving its now s
  | done _ _ _ _ said => cases said

theorem Waiting.exists_quiet {next : Submission} {rest : List Submission}
    (waits : o.Waiting earlier p (next :: rest)) (now : Instant) (s : MemoryStore) :
    ∃ m next, m.isQuiet = true ∧ p.step? now s m = some next := by
  cases its : p.turn with
  | none => exact ⟨.begin, _, rfl, waits.begins its⟩
  | some t => exact waits.owed.exists_quiet waits.manned waits.serving its now s

-- ---------------------------------------------------------------------------
-- Runs
-- ---------------------------------------------------------------------------

variable {ws : Workshop MemoryStore} {beats : List Beat} {x : Watched MemoryStore × MemoryStore}

theorem Waiting.submitted (idle : o.Waiting earlier p []) (filled : o.records ≠ []) :
    (o.submitted p).store = o.store ∧ o.Waiting earlier (o.submitted p).pool [o.next] := by
  have line : p.line = [] := idle.line
  have some : o.records.isEmpty = false := by simpa using filled
  simp only [Occasion.submitted, Pool.submit, some, line, List.nil_append, Bool.false_eq_true,
    if_false]
  exact ⟨trivial, idle.settings, idle.registry, idle.number, rfl, idle.jobless, idle.serving,
    idle.turn, idle.owed, idle.fresh⟩

theorem Waiting.course (promises : o.Promises times checks t good)
    (waits : o.Waiting earlier p line)
    (own : line = [] ∨ line = [o.next] ∧ o.records ≠ [])
    (trace : Trace Watched.StepOn (⟨p, []⟩, o.store) beats x)
    (suits : ∀ b ∈ beats, b.Suits times checks) :
    ∃ others, (∀ call ∈ others, earlier call.1) ∧
      (beats.flatMap Beat.returned = others ∧ x.2 = o.store ∧ x.1.duties = [] ∧
          o.Waiting earlier x.1.pool line ∨
        line ≠ [] ∧ ∃ h said, beats.flatMap Beat.returned = others ++ said ∧
          o.Going t good x.1 x.2 h said) := by
  induction trace with
  | nil => exact ⟨[], by simp, .inl ⟨rfl, rfl, rfl, waits⟩⟩
  | @snoc y _ beats b before last ih =>
    obtain ⟨others, of, before⟩ := ih fun b earlier => suits b (List.mem_append_left _ earlier)
    have suits := suits b (List.mem_append_right _ (List.mem_singleton_self _))
    rw [List.flatMap_append, List.flatMap_singleton]
    cases last with
    | @of w w' s s' now m events step =>
      rcases before with ⟨said, stored, unhanded, waits⟩ | ⟨some, h, said, all, going⟩
      · have filled (next : Submission) (member : next ∈ line) : next.records ≠ [] := by
          rcases own with rfl | ⟨rfl, filled⟩
          · cases member
          · exact List.mem_singleton.mp member ▸ filled
        obtain ⟨moved, handed⟩ := Watched.step?_eq_some_iff.mp step
        have queue : w.pool.queue = [] := waits.jobless.queue
        rw [unhanded, Watched.attend_nil queue] at handed
        obtain ⟨rfl, returned, after⟩ := waits.step filled moved suits.quiet
        refine ⟨others ++ Beat.returned _, List.forall_mem_append.mpr ⟨of, returned⟩, ?_⟩
        rw [said]
        rcases after with still | ⟨next, rest, its, begins⟩
        · exact .inl ⟨rfl, stored, handed, still⟩
        · obtain ⟨rfl, some⟩ := own.resolve_left (by simp [its])
          cases its
          refine .inr ⟨by simp, [], [], by simp, ?_⟩
          obtain ⟨pool, duties⟩ := w'
          subst begins handed stored
          exact waits.going some
      · obtain ⟨h', going⟩ := going.step promises step suits
        exact ⟨others, of, .inr ⟨some, h', _, by rw [all, List.append_assoc], going⟩⟩

structure Settled (o : Occasion) (good : Record → Ending → Prop)
    (x : Watched MemoryStore × MemoryStore) (outcomes : List JobOutcome) : Prop where
  order : outcomes.map JobOutcome.jobId = o.records.map Record.id
  each : ∀ {i : Nat} {r : Record} {out : JobOutcome}, o.records[i]? = some r →
    outcomes[i]? = some out → ∃ d ∈ x.1.duties, d.run.copy = r ∧
      d.run.outcome? = some out.outcome ∧ good r (out.outcome, x.2.find? r.id)
  others : ∀ id, (∀ r ∈ o.records, r.id ≠ id) → x.2.find? id = o.store.find? id
  settings : x.1.pool.settings = o.settings
  line : x.1.pool.line = []
  jobless : (Watched.floor ⟨x.1.pool, []⟩).IsJobless
  accepting : x.1.pool.accepting = true

theorem Waiting.settled_nil (waits : o.Waiting earlier x.1.pool []) (none : o.records = [])
    (stored : x.2 = o.store) : o.Settled good x [] where
  order := by simp [none]
  each := by simp
  others _ _ := by rw [stored]
  settings := waits.settings
  line := waits.line
  jobless := waits.jobless
  accepting := waits.serving.accepting

theorem Going.settled (going : o.Going t good x.1 x.2 h returned)
    (distinct : (o.records.map Record.id).Nodup) (idle : x.1.pool.turn = none)
    {outcomes : List JobOutcome} (filling : h.IsFilling o.number o.next.jobIds)
    (answers : h.Answers o.next.jobIds outcomes) : o.Settled good x outcomes where
  order := answers.order
  each its there := by
    obtain ⟨d, member, copy, finished⟩ := going.exists_duty distinct filling answers its there
    exact ⟨d, member, copy, finished, copy ▸ going.isGood member finished⟩
  others id differ := going.fated.others id fun d member => differ _ (going.copy_mem member)
  settings := going.settings
  line := going.line
  jobless := by
    refine going.isJobless distinct idle fun r member => ?_
    obtain ⟨i, its⟩ := List.getElem?_of_mem member
    have long : outcomes.length = o.records.length := by
      simpa [Submission.jobIds, next] using congrArg List.length answers.order
    have inside : i < outcomes.length := long ▸ (List.getElem?_eq_some_iff.mp its).1
    obtain ⟨d, handed, copy, finished⟩ := going.exists_duty distinct filling answers its
      (List.getElem?_eq_getElem inside)
    exact ⟨d, handed, copy, _, finished⟩
  accepting := going.serving.accepting

/-- What a run without a caller comes to: the batch has not returned, and something can be done, or
it has returned once and is settled. -/
theorem Waiting.settles (promises : o.Promises times checks t good) (idle : o.Waiting earlier p [])
    (trace : Trace Watched.StepOn (⟨(o.submitted p).pool, []⟩, o.store) beats x)
    (suits : ∀ b ∈ beats, b.Suits times checks) :
    ∃ others, (∀ call ∈ others, earlier call.1) ∧
      (o.returnedBy p beats = others ∧ (∀ now, ∃ b ws', Workshop.Step ⟨x.1.pool, x.2⟩ b ws' ∧
          b.move.isQuiet = true ∧ b.time = now) ∨
        ∃ outcomes, (o.returnedBy p beats).Perm ((o.ticket, outcomes) :: others) ∧
          o.Settled good x outcomes) := by
  by_cases filled : o.records = []
  · have same : (o.submitted p).pool = p := by simp [Occasion.submitted, Pool.submit, filled]
    rw [same] at trace
    obtain ⟨others, of, ⟨said, stored, _, waits⟩ | ⟨some, _⟩⟩ :=
      idle.course promises (.inl rfl) trace suits
    · refine ⟨others, of, .inr ⟨[], ?_, waits.settled_nil filled stored⟩⟩
      simp [returnedBy, Pool.submit, filled, Event.returned?, said]
    · exact absurd rfl some
  · have waits := (idle.submitted filled).2
    have silent : (p.submit o.ticket o.records).2 = [] := by simp [Pool.submit, filled]
    rw [returnedBy, silent, List.filterMap_nil, List.nil_append]
    obtain ⟨others, of, course⟩ := waits.course promises (.inr ⟨rfl, filled⟩) trace suits
    refine ⟨others, of, ?_⟩
    rcases course with ⟨said, _, _, waits⟩ | ⟨_, h, mine, all, going⟩
    · refine .inl ⟨said, fun now => ?_⟩
      obtain ⟨m, ⟨p', s', events⟩, quiet, moved⟩ := waits.exists_quiet now x.2
      exact ⟨_, _, .of moved, quiet, rfl⟩
    · cases going.served with
      | waiting collecting its open' waits silent =>
        subst silent
        refine .inl ⟨by rw [all, List.append_nil], fun now => ?_⟩
        obtain ⟨m, ⟨p', s', events⟩, quiet, moved⟩ := going.exists_quiet now
        exact ⟨_, _, .of moved, quiet, rfl⟩
      | @done c idle its filled complete said =>
        refine .inr ⟨c.outcomes, ?_, going.settled promises.distinct
          (Option.map_eq_none_iff.mp idle) (its ▸ filled.filling) (filled.answers complete)⟩
        rw [all, said]
        exact List.perm_append_singleton _ _

/-- What a run without a caller comes to: the batch has not returned, and something can be done, or
it has returned once, each of its records has come to a good end, and no other has changed. -/
theorem Waiting.ends (promises : o.Promises times checks t good) (idle : o.Waiting earlier p [])
    (trace : Trace Workshop.Step (o.submitted p) beats ws)
    (suits : ∀ b ∈ beats, b.Suits times checks) :
    ∃ others, (∀ call ∈ others, earlier call.1) ∧
      (o.returnedBy p beats = others ∧ (∀ now, ∃ b ws', Workshop.Step ws b ws' ∧
          b.move.isQuiet = true ∧ b.time = now) ∨
        ∃ outcomes, (o.returnedBy p beats).Perm ((o.ticket, outcomes) :: others) ∧
          outcomes.map JobOutcome.jobId = o.records.map Record.id ∧
          (∀ (i : Nat) r out, o.records[i]? = some r → outcomes[i]? = some out →
            good r (out.outcome, ws.store.find? r.id)) ∧
          ∀ id, (∀ r ∈ o.records, r.id ≠ id) → ws.store.find? id = o.store.find? id) := by
  obtain ⟨ds, watched⟩ := Workshop.exists_watched [] trace
  obtain ⟨others, of, goesOn | ⟨outcomes, said, settled⟩⟩ := idle.settles promises watched suits
  · exact ⟨others, of, .inl goesOn⟩
  · refine ⟨others, of, .inr ⟨outcomes, said, settled.order, ?_, settled.others⟩⟩
    intro i r out its there
    obtain ⟨d, _, _, _, fine⟩ := settled.each its there
    exact fine

end Occasion

end JobQueue
