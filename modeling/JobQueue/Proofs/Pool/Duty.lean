import JobQueue.Proofs.Pool.Beat
import JobQueue.Proofs.Shift.Play

/-!
# Who was handed what

A pool does not remember which records it handed to its workers. A watched pool does: it keeps a
duty for every record that a worker took, with the run of the worker on it, and the runs go on as
runs of workers do. Watching changes nothing (`Watched.exists_trace`). `Watched.Change` says once
what a move does to what is on the floor: the feeder, the queue, the results, the seats and the
duties.
-/

namespace JobQueue

open Time (Instant)

namespace Worker.Run

variable {σ η : Type} [RecordStore σ] {r : Run η} {now : Instant} {verdict : Verdict} {s : σ}
  {stage : Stage η}

def next (r : Run η) (now : Instant) (verdict : Verdict) (s : σ) : Run η :=
  (r.move? now verdict s).elim r fun m => m.2.1

theorem next_fresh (w : Worker) (handler? : String → Option η) (copy : Record) :
    (fresh w handler? copy).next now verdict s = (fresh w handler? copy).goOn (w.begin now copy) :=
  rfl

theorem next_ask (h : r.stage = some stage) (asks : stage.asksStore = true) :
    r.next now verdict s = r.goOn (r.worker.call r.handler? now stage s).1 := by
  cases stage with
  | handling => cases asks
  | done => cases asks
  | _ => simp [next, move?, h, Stage.request?]

theorem next_judge {record : Record} {context : Context} {job : Job} {handler : η}
    (h : r.stage = some (.handling record context job handler)) :
    r.next now verdict s = r.goOn (onVerdict record context verdict) := by
  simp [next, move?, h]

theorem next_of_outcome? {outcome : Outcome} (h : r.outcome? = some outcome) :
    r.next now verdict s = r := by
  obtain ⟨stage, there, finished⟩ := Option.bind_eq_some_iff.mp h
  cases stage with
  | done => simp [next, move?, there, Stage.request?]
  | _ => cases finished

@[simp] theorem copy_next : (r.next now verdict s).copy = r.copy := by
  cases moved : r.move? now verdict s with
  | none => simp [next, moved]
  | some m => simpa [next, moved] using (step_iff_move?.mpr ⟨verdict, moved⟩).copy_eq

@[simp] theorem worker_next : (r.next now verdict s).worker = r.worker := by
  cases moved : r.move? now verdict s with
  | none => simp [next, moved]
  | some m => simpa [next, moved] using (step_iff_move?.mpr ⟨verdict, moved⟩).worker_eq

@[simp] theorem handler?_next : (r.next now verdict s).handler? = r.handler? := by
  cases moved : r.move? now verdict s with
  | none => simp [next, moved]
  | some m => simpa [next, moved] using (step_iff_move?.mpr ⟨verdict, moved⟩).handler?_eq

end Worker.Run

structure Duty (σ : Type) where
  batch : Nat
  run : Worker.Run (Handler σ)

namespace Duty

variable {σ : Type} [RecordStore σ]

def seat (d : Duty σ) : Nat := d.run.worker.id

def assignment (d : Duty σ) : Assignment := ⟨d.batch, d.run.copy⟩

def goOn (seat : Nat) (now : Instant) (verdict : Verdict) (s : σ) (d : Duty σ) : Duty σ :=
  if d.seat = seat then { d with run := d.run.next now verdict s } else d

end Duty

namespace Pool

variable {σ : Type}

def verdict? (p : Pool σ) (now : Instant) (seat : Nat) (s : σ) : Option Verdict :=
  match p.seats[seat]? with
  | some (.working _ _ (.handling _ _ _ _) []) => some .succeeded
  | some (.working _ _ (.handling _ _ _ _) (action :: _)) => (action.perform now s).1
  | _ => none

/-- The duties after a move: a worker that takes a record has one more, and the runs of those that
work go on. -/
def attend [RecordStore σ] (p : Pool σ) (now : Instant) (s : σ) (duties : List (Duty σ)) :
    Move → List (Duty σ)
  | .take seat =>
    match p.queue with
    | a :: _ =>
      let run := Worker.Run.fresh (p.worker seat) p.registry.find? a.record
      duties ++ [⟨a.batch, run.next now .succeeded s⟩]
    | [] => duties
  | .work seat => duties.map (Duty.goOn seat now .succeeded s)
  | .act seat =>
    match p.verdict? now seat s with
    | some verdict => duties.map (Duty.goOn seat now verdict s)
    | none => duties
  | _ => duties

end Pool

structure Watched (σ : Type) where
  pool : Pool σ
  duties : List (Duty σ)

namespace Watched

open Pool (Move Event Beat)

variable {σ : Type} {w w' : Watched σ} {b : Beat} {beats : List Beat}

def start (settings : Settings) (registry : Registry (Handler σ)) : Watched σ :=
  ⟨.start settings registry, []⟩

variable [RecordStore σ]

def step? (now : Instant) (w : Watched σ) (s : σ) (m : Move) :
    Option (Watched σ × σ × List Event) :=
  (w.pool.step? now s m).map fun next => (⟨next.1, w.pool.attend now s w.duties m⟩, next.2)

inductive Step : Watched σ → Beat → Watched σ → Prop
  | of {w w' : Watched σ} {s s' : σ} {now : Instant} {m : Move} {events : List Event}
      (h : w.step? now s m = some (w', s', events)) :
      Step w ⟨now, m, w.pool.notice? m, events⟩ w'

theorem step?_eq_some_iff {now : Instant} {s s' : σ} {m : Move} {events : List Event} :
    w.step? now s m = some (w', s', events) ↔
      w.pool.step? now s m = some (w'.pool, s', events) ∧
        w'.duties = w.pool.attend now s w.duties m := by
  obtain ⟨p', ds'⟩ := w'
  simp only [step?, Option.map_eq_some_iff, Prod.mk.injEq, Watched.mk.injEq]
  constructor
  · rintro ⟨⟨p, rest⟩, moved, ⟨rfl, rfl⟩, rfl⟩
    exact ⟨moved, rfl⟩
  · rintro ⟨moved, rfl⟩
    exact ⟨_, moved, ⟨rfl, rfl⟩, rfl⟩

theorem Step.of_pool {now : Instant} {s s' : σ} {m : Move} {p' : Pool σ} {events : List Event}
    (h : w.pool.step? now s m = some (p', s', events)) :
    Step w ⟨now, m, w.pool.notice? m, events⟩ ⟨p', w.pool.attend now s w.duties m⟩ :=
  .of (step?_eq_some_iff.mpr ⟨h, rfl⟩)

theorem Step.pool (step : Step w b w') : w.pool.Step b w'.pool := by
  cases step with
  | of h => exact .of (step?_eq_some_iff.mp h).1

theorem pool_trace (trace : Trace Step w beats w') : Trace Pool.Step w.pool beats w'.pool := by
  induction trace with
  | nil => exact .nil _
  | snoc _ last ih => exact ih.snoc last.pool

theorem exists_trace {p p' : Pool σ} (ds : List (Duty σ)) (trace : Trace Pool.Step p beats p') :
    ∃ ds', Trace Step ⟨p, ds⟩ beats ⟨p', ds'⟩ := by
  induction trace with
  | nil => exact ⟨ds, .nil _⟩
  | snoc _ last ih =>
    obtain ⟨ds, before⟩ := ih
    cases last with
    | of h => exact ⟨_, before.snoc (.of_pool h)⟩

end Watched

-- ---------------------------------------------------------------------------
-- What a move changes
-- ---------------------------------------------------------------------------

/-- Where the records and the reports of a pool are, and what its workers go by. -/
structure Floor (σ : Type) where
  settings : Settings
  registry : Registry (Handler σ)
  accepting : Bool
  closing : Closing
  stopping : Bool
  feeder : Option Feeder
  queue : List Assignment
  results : List Report
  seats : List (Seat σ)
  duties : List (Duty σ)

def Floor.worker {σ : Type} (f : Floor σ) (seat : Nat) : Worker :=
  ⟨seat, f.settings.reservationWindow⟩

namespace Watched

open Pool (Move Event Beat)

variable {σ : Type} {w w' : Watched σ} {f : Feeder} {now : Instant} {s s' : σ} {m : Move}
  {seat : Nat} {events : List Event}

def floor (w : Watched σ) : Floor σ :=
  ⟨w.pool.settings, w.pool.registry, w.pool.accepting, w.pool.closing, w.pool.stopping,
    w.pool.feeder?, w.pool.queue, w.pool.results, w.pool.seats, w.duties⟩

/-- What a move that has to do with the shutdown of a pool makes of whether the pool accepts batches,
whether its workers are to leave, and how far the shutdown is. -/
inductive Shuts (w : Watched σ) : Move → (accepting stopping : Bool) → Closing → Prop
  | first (new : w.floor.closing = .notAsked) :
      Shuts w .shutdown false w.floor.stopping .draining
  | again (asked : w.floor.closing ≠ .notAsked) :
      Shuts w .shutdown false w.floor.stopping w.floor.closing
  | drained (waits : w.floor.closing = .draining) (gone : w.pool.isEmpty = true) :
      Shuts w .drained w.floor.accepting w.floor.stopping .over
  | missed (waits : w.floor.closing = .draining) (stays : w.pool.isEmpty = false) :
      Shuts w .deadline w.floor.accepting true .over

inductive Change [RecordStore σ] (w : Watched σ) (now : Instant) (s : σ) :
    Move → Floor σ → σ → Prop
  | aside {m : Move} (why : m = .begin ∨ ∃ ticket records, m = .submit ticket records) :
      Change w now s m w.floor s
  | begun {records : List Record} (idle : w.floor.feeder = none)
      (accepting : w.floor.accepting = true) :
      Change w now s .begin
        { w.floor with feeder := Feeder.ofRecords? w.pool.nextBatch records } s
  | fed {batch : Nat} {record : Record} {rest : List Record}
      (its : w.floor.feeder = some ⟨batch, .record record, rest⟩) :
      Change w now s .feed
        { w.floor with
          feeder := Feeder.ofRecords? batch rest
          queue := w.floor.queue ++ [⟨batch, record⟩] } s
  | rejected {m : Move} {batch : Nat} {record : Record} {rest : List Record} {e : JobError}
      (its : w.floor.feeder = some ⟨batch, .record record, rest⟩)
      (why : m = .giveUp ∧ e = .enqueueTimeout ∨
        (m = .refuse ∧ w.pool.isEmpty = true) ∧ e = .poolClosed) :
      Change w now s m
        { w.floor with feeder := some ⟨batch, .report ⟨batch, record.id, .error e⟩, rest⟩ } s
  | posted {batch : Nat} {report : Report} {rest : List Record}
      (its : w.floor.feeder = some ⟨batch, .report report, rest⟩)
      (room : w.floor.results.length < w.pool.capacity) :
      Change w now s .post
        { w.floor with
          feeder := Feeder.ofRecords? batch rest
          results := w.floor.results ++ [report] } s
  | took {seat : Nat} {a : Assignment} {rest : List Assignment} {run : Worker.Run (Handler σ)}
      {stage : Worker.Stage (Handler σ)} (free : w.floor.seats[seat]? = some .free)
      (first : w.floor.queue = a :: rest)
      (its : run = (Worker.Run.fresh (w.floor.worker seat) w.floor.registry.find? a.record).goOn
        ((w.floor.worker seat).begin now a.record))
      (there : run.stage = some stage) (stays : w.floor.stopping = false) :
      Change w now s (.take seat)
        { w.floor with
          queue := rest
          seats := w.floor.seats.set seat (.ofStage a.batch a.record.id stage)
          duties := w.floor.duties ++ [⟨a.batch, run⟩] } s
  | left {seat : Nat} {queue : List Assignment} (free : w.floor.seats[seat]? = some .free)
      (why : w.pool.stopping = true ∨ w.pool.isFed = true ∧ w.floor.queue = [])
      (kept : queue = w.floor.queue ∨ queue = []) :
      Change w now s (.leave seat)
        { w.floor with queue, seats := w.floor.seats.set seat .left } s
  | asked {seat batch : Nat} {jobId : String} {stage : Worker.Stage (Handler σ)}
      {plan : List (Action σ)} {next : Worker.Progress (Handler σ) × σ}
      (works : w.floor.seats[seat]? = some (.working batch jobId stage plan))
      (asks : stage.asksStore = true)
      (answered : next = (w.floor.worker seat).call w.floor.registry.find? now stage s) :
      Change w now s (.work seat)
        { w.floor with
          seats := w.floor.seats.set seat (.ofStage batch jobId next.1.1)
          duties := w.floor.duties.map (Duty.goOn seat now .succeeded s) } next.2
  | judged {seat batch : Nat} {jobId : String} {record : Record} {context : Context} {job : Job}
      {handler : Handler σ} {plan : List (Action σ)} {verdict : Verdict}
      (works : w.floor.seats[seat]? =
        some (.working batch jobId (.handling record context job handler) plan))
      (brought : plan = [] ∧ verdict = .succeeded ∨ ∃ rest, plan = .stop verdict :: rest) :
      Change w now s (.act seat)
        { w.floor with
          seats := w.floor.seats.set seat
            (.ofStage batch jobId (Worker.onVerdict record context verdict).1)
          duties := w.floor.duties.map (Duty.goOn seat now verdict s) } s
  | acted {seat batch : Nat} {jobId : String} {record : Record} {context : Context} {job : Job}
      {handler : Handler σ} {action : Action σ} {rest : List (Action σ)}
      (works : w.floor.seats[seat]? =
        some (.working batch jobId (.handling record context job handler) (action :: rest)))
      (goesOn : ∀ verdict, action ≠ .stop verdict) :
      Change w now s (.act seat)
        { w.floor with
          seats := w.floor.seats.set seat
            (.working batch jobId (.handling record context job handler) rest) }
        (action.perform now s).2.2
  | handedOver {seat : Nat} {report : Report}
      (reports : w.floor.seats[seat]? = some (.reporting report))
      (room : w.floor.results.length < w.pool.capacity) :
      Change w now s (.handOver seat)
        { w.floor with
          seats := w.floor.seats.set seat .free
          results := w.floor.results ++ [report] } s
  | collected {report : Report} {rest : List Report} {feeder : Option Feeder}
      (first : w.floor.results = report :: rest)
      (kept : feeder = w.floor.feeder ∨ feeder = none) :
      Change w now s .collect { w.floor with feeder, results := rest } s
  | expired {feeder : Option Feeder} (kept : feeder = w.floor.feeder ∨ feeder = none) :
      Change w now s .expire { w.floor with feeder } s
  | closed {m : Move} {accepting stopping : Bool} {closing : Closing}
      (why : w.Shuts m accepting stopping closing) :
      Change w now s m { w.floor with accepting, closing, stopping } s

theorem floor_withFeeder {p : Pool σ} {feeder : Option Feeder} {queue : List Assignment}
    {results : List Report} {ds : List (Duty σ)} (its : p.feeder? = some f) :
    floor ⟨{ p with queue, results }.withFeeder feeder, ds⟩ =
      { floor ⟨p, ds⟩ with feeder, queue, results } := by
  obtain ⟨t, turn, _⟩ := Pool.turn_of_feeder? its
  simp [floor, Pool.feeder?, Pool.withFeeder, turn]

theorem floor_settle {p : Pool σ} {t : Turn} {c : Collection} (ds : List (Duty σ))
    (its : p.turn = some t) : ∃ feeder, (feeder = p.feeder? ∨ feeder = none) ∧
      floor ⟨(p.settle t c).1, ds⟩ = { floor ⟨p, ds⟩ with feeder } := by
  unfold Pool.settle
  split
  · exact ⟨none, .inr rfl, rfl⟩
  · exact ⟨p.feeder?, .inl rfl, by simp [floor, Pool.feeder?, its]⟩

section
variable [RecordStore σ] {p' : Pool σ}

theorem Change.rules {g : Floor σ} (change : w.Change now s m g s') :
    g.settings = w.floor.settings ∧ g.registry = w.floor.registry := by
  cases change <;> exact ⟨rfl, rfl⟩

theorem Change.of_feed? (h : w.pool.feed? = some p') :
    w.Change now s .feed (floor ⟨p', w.duties⟩) s := by
  unfold Pool.feed? at h
  split at h
  · next batch record rest its =>
    split at h
    · obtain rfl := Option.some.inj h
      rw [floor_withFeeder its]
      exact .fed its
    · cases h
  · cases h

theorem Change.of_giveUp? (h : w.pool.giveUp? = some p') :
    w.Change now s .giveUp (floor ⟨p', w.duties⟩) s := by
  unfold Pool.giveUp? at h
  split at h
  · next batch record rest its =>
    split at h
    · obtain rfl := Option.some.inj h
      rw [Pool.reject, floor_withFeeder its]
      exact .rejected its (.inl ⟨rfl, rfl⟩)
    · cases h
  · cases h

theorem Change.of_refuse? (h : w.pool.refuse? = some p') :
    w.Change now s .refuse (floor ⟨p', w.duties⟩) s := by
  unfold Pool.refuse? at h
  split at h
  · next batch record rest its =>
    split at h
    · next nobody =>
      obtain rfl := Option.some.inj h
      rw [Pool.reject, floor_withFeeder its]
      exact .rejected its (.inr ⟨⟨rfl, nobody⟩, rfl⟩)
    · cases h
  · cases h

theorem Change.of_post? (h : w.pool.post? = some p') :
    w.Change now s .post (floor ⟨p', w.duties⟩) s := by
  unfold Pool.post? at h
  split at h
  · next batch report rest its =>
    split at h
    · next room =>
      obtain rfl := Option.some.inj h
      rw [floor_withFeeder its]
      exact .posted its room
    · cases h
  · cases h

theorem Change.of_begin? (h : w.pool.begin? = some (p', events)) :
    w.Change now s .begin (floor ⟨p', w.duties⟩) s := by
  unfold Pool.begin? at h
  split at h
  · next next rest idle first =>
    dsimp only at h
    split at h
    · next accepting =>
      obtain rfl := congrArg Prod.fst (Option.some.inj h)
      exact .begun (by simp [floor, Pool.feeder?, idle]) accepting
    · obtain rfl := congrArg Prod.fst (Option.some.inj h)
      exact .aside (.inl rfl)
  · cases h

theorem Change.of_take? (h : w.pool.take? now seat = some (p', events)) :
    w.Change now s (.take seat) (floor ⟨p', w.pool.attend now s w.duties (.take seat)⟩) s := by
  unfold Pool.take? at h
  split at h
  · next a rest free first =>
    split at h
    · cases h
    · next stays =>
      obtain rfl := congrArg Prod.fst (Option.some.inj h)
      simp only [Pool.attend, first]
      exact .took free first (Worker.Run.next_fresh _ _ _) rfl (Bool.eq_false_iff.mpr stays)
  · cases h

theorem Change.of_leave? (h : w.pool.leave? seat = some p') :
    w.Change now s (.leave seat) (floor ⟨p', w.duties⟩) s := by
  unfold Pool.leave? at h
  split at h
  · next free =>
    split at h
    · next why =>
      obtain rfl := Option.some.inj h
      refine .left free (why.imp_right fun fed => ⟨fed.1, List.isEmpty_iff.mp fed.2⟩) ?_
      split
      · exact .inr rfl
      · exact .inl rfl
    · cases h
  · cases h

theorem Change.of_work? (h : w.pool.work? now seat s = some (p', s', events)) :
    w.Change now s (.work seat) (floor ⟨p', w.pool.attend now s w.duties (.work seat)⟩) s' := by
  unfold Pool.work? at h
  split at h
  · next batch jobId stage plan works =>
    split at h
    · next asks =>
      cases h
      exact .asked works asks rfl
    · cases h
  · cases h

theorem Change.of_act? (h : w.pool.act? now seat s = some (p', s', events)) :
    w.Change now s (.act seat) (floor ⟨p', w.pool.attend now s w.duties (.act seat)⟩) s' := by
  unfold Pool.act? at h
  split at h
  · next batch jobId record context job handler plan works =>
    cases plan with
    | nil =>
      cases h
      simp only [Pool.attend, Pool.verdict?, works]
      exact .judged works (.inl ⟨rfl, rfl⟩)
    | cons action rest =>
      cases action with
      | stop verdict =>
        cases h
        simp only [Pool.attend, Pool.verdict?, works, Action.perform]
        exact .judged works (.inr ⟨rest, rfl⟩)
      | _ =>
        cases h
        simp only [Pool.attend, Pool.verdict?, works, Action.perform]
        exact .acted works (by simp)
  · cases h

theorem Change.of_handOver? (h : w.pool.handOver? seat = some p') :
    w.Change now s (.handOver seat) (floor ⟨p', w.duties⟩) s := by
  unfold Pool.handOver? at h
  split at h
  · next report reports =>
    split at h
    · next room =>
      obtain rfl := Option.some.inj h
      exact .handedOver reports room
    · cases h
  · cases h

theorem Change.of_collect? (h : w.pool.collect? = some (p', events)) :
    w.Change now s .collect (floor ⟨p', w.duties⟩) s := by
  unfold Pool.collect? at h
  split at h
  · next t r rest its first =>
    obtain rfl := congrArg Prod.fst (Option.some.inj h)
    obtain ⟨feeder, kept, same⟩ := floor_settle (p := { w.pool with results := rest })
      (c := t.collection.receive r) w.duties its
    dsimp only at same ⊢
    rw [same]
    exact .collected first kept
  · cases h

theorem Change.of_expire? (h : w.pool.expire? = some (p', events)) :
    w.Change now s .expire (floor ⟨p', w.duties⟩) s := by
  unfold Pool.expire? at h
  split at h
  · next t its _ =>
    split at h
    · next c _ =>
      obtain rfl := congrArg Prod.fst (Option.some.inj h)
      obtain ⟨feeder, kept, same⟩ := floor_settle (c := c) w.duties its
      dsimp only at same ⊢
      rw [same]
      exact .expired kept
    · obtain rfl := congrArg Prod.fst (Option.some.inj h)
      exact .expired (.inr rfl)
  · cases h

theorem Change.of_shutdown : w.Change now s .shutdown (floor ⟨w.pool.shutdown.1, w.duties⟩) s := by
  unfold Pool.shutdown
  split
  · next new => exact .closed (.first new)
  · next asked => exact .closed (.again asked)

theorem Change.of_drained? (h : w.pool.drained? = some (p', events)) :
    w.Change now s .drained (floor ⟨p', w.duties⟩) s := by
  unfold Pool.drained? at h
  split at h
  · next why =>
    obtain rfl := congrArg Prod.fst (Option.some.inj h)
    exact .closed (.drained why.1 why.2)
  · cases h

theorem Change.of_deadline? (h : w.pool.deadline? = some (p', events)) :
    w.Change now s .deadline (floor ⟨p', w.duties⟩) s := by
  unfold Pool.deadline? at h
  split at h
  · next why =>
    obtain rfl := congrArg Prod.fst (Option.some.inj h)
    exact .closed (.missed why.1 (by simpa using why.2))
  · cases h

theorem change_of_step? (h : w.step? now s m = some (w', s', events)) :
    w.Change now s m w'.floor s' := by
  obtain ⟨moved, duties⟩ := step?_eq_some_iff.mp h
  obtain ⟨p', ds'⟩ := w'
  dsimp only at moved duties
  subst duties
  have quiet {p? : Option (Pool σ)}
      (h : (p?.map fun p => (p, s, ([] : List Event))) = some (p', s', events)) :
      p? = some p' ∧ s' = s := by
    obtain ⟨_, made, same⟩ := Option.map_eq_some_iff.mp h
    simp only [Prod.mk.injEq] at same
    obtain ⟨rfl, rfl, _⟩ := same
    exact ⟨made, rfl⟩
  have loud {p? : Option (Pool σ × List Event)}
      (h : (p?.map fun next => (next.1, s, next.2)) = some (p', s', events)) :
      p? = some (p', events) ∧ s' = s := by
    obtain ⟨_, made, same⟩ := Option.map_eq_some_iff.mp h
    simp only [Prod.mk.injEq] at same
    obtain ⟨rfl, rfl, rfl⟩ := same
    exact ⟨made, rfl⟩
  cases m with
  | submit ticket records =>
    obtain ⟨rfl, rest⟩ := Prod.mk.inj (Option.some.inj moved)
    obtain rfl := congrArg Prod.fst rest
    have same : floor ⟨(w.pool.submit ticket records).1, w.duties⟩ = w.floor := by
      unfold Pool.submit
      split <;> rfl
    exact same ▸ .aside (.inr ⟨ticket, records, rfl⟩)
  | begin => obtain ⟨made, rfl⟩ := loud moved; exact .of_begin? made
  | feed => obtain ⟨made, rfl⟩ := quiet moved; exact .of_feed? made
  | giveUp => obtain ⟨made, rfl⟩ := quiet moved; exact .of_giveUp? made
  | refuse => obtain ⟨made, rfl⟩ := quiet moved; exact .of_refuse? made
  | post => obtain ⟨made, rfl⟩ := quiet moved; exact .of_post? made
  | take seat => obtain ⟨made, rfl⟩ := loud moved; exact .of_take? made
  | leave seat => obtain ⟨made, rfl⟩ := quiet moved; exact .of_leave? made
  | work seat => exact .of_work? moved
  | act seat => exact .of_act? moved
  | handOver seat => obtain ⟨made, rfl⟩ := quiet moved; exact .of_handOver? made
  | collect => obtain ⟨made, rfl⟩ := loud moved; exact .of_collect? made
  | expire => obtain ⟨made, rfl⟩ := loud moved; exact .of_expire? made
  | shutdown =>
    obtain ⟨rfl, rest⟩ := Prod.mk.inj (Option.some.inj moved)
    obtain rfl := congrArg Prod.fst rest
    exact .of_shutdown
  | drained => obtain ⟨made, rfl⟩ := loud moved; exact .of_drained? made
  | deadline => obtain ⟨made, rfl⟩ := loud moved; exact .of_deadline? made

variable {b : Pool.Beat} {beats : List Pool.Beat}

theorem Step.rules (step : Step w b w') :
    w'.pool.settings = w.pool.settings ∧ w'.pool.registry = w.pool.registry := by
  cases step with
  | of h => exact (change_of_step? h).rules

theorem rules_of_trace (run : Trace Step w beats w') :
    w'.pool.settings = w.pool.settings ∧ w'.pool.registry = w.pool.registry := by
  induction run with
  | nil => exact ⟨rfl, rfl⟩
  | snoc _ last ih => exact ⟨last.rules.1.trans ih.1, last.rules.2.trans ih.2⟩

end

end Watched

end JobQueue
