import JobQueue.Pool.Move
import JobQueue.Proofs.Pool.Filling
import JobQueue.Proofs.Trace
import Mathlib.Tactic.Ring

/-!
# Pools at work

The moves of a pool as steps of a system. What the workers' stores hold is left open at every step,
so others may write to them too. `Step.effect` says what a step means for the batches: most steps
leave them alone (`Frame`); a batch is submitted, gets its turn, or is told something. None of
them adds to what is on its way to the batches, except that a batch which gets its turn brings its
records.
-/

namespace JobQueue

open Time (Instant)

def Seat.batch? {σ : Type} : Seat σ → Option Nat
  | working batch _ _ _ => some batch
  | reporting report => some report.batch
  | free | left => none

def Feeder.underway (wanted : Nat → Bool) (f : Feeder) : Nat :=
  let first := match f.load with
    | .record _ => f.batch
    | .report r => r.batch
  (wanted first).toNat + (wanted f.batch).toNat * f.rest.length

namespace Pool

variable {σ : Type}

def Event.returned? : Event → Option (Nat × List JobOutcome)
  | returned ticket outcomes => some (ticket, outcomes)
  | shut _ | worker _ _ => none

def notice? (p : Pool σ) : Move → Option Notice
  | .collect => p.results.head?.map .report
  | .expire => some .timeout
  | _ => none

structure Beat where
  time : Instant
  move : Move
  notice : Option Notice
  events : List Event

/-- What calls with a batch that had to wait for its turn returned with a move. -/
def Beat.returned (b : Beat) : List (Nat × List JobOutcome) :=
  match b.move with
  | .submit _ _ => []
  | _ => b.events.filterMap Event.returned?

def Beat.reports (b : Beat) : List Report := b.notice.elim [] Notice.reports

/-- One move of a pool, whatever is stored. -/
inductive Step [RecordStore σ] : Pool σ → Beat → Pool σ → Prop
  | of {p p' : Pool σ} {store store' : σ} {now : Instant} {m : Move} {events : List Event}
      (h : p.step? now store m = some (p', store', events)) :
      Step p ⟨now, m, p.notice? m, events⟩ p'

def collecting? (p : Pool σ) : Option (Nat × Collection) :=
  p.turn.map fun t => (t.ticket, t.collection)

/-- How many records of the wanted batches are on their way: those that a feeder or a worker has,
and those that wait in the queue or among the results. -/
def underway (p : Pool σ) (wanted : Nat → Bool) : Nat :=
  p.queue.countP (fun a => wanted a.batch) + p.results.countP (fun r => wanted r.batch) +
    p.seats.countP (fun s => s.batch?.any wanted) + p.feeder?.elim 0 (Feeder.underway wanted)

/-- What most moves leave: the line, and the batch whose turn it is. They bring nothing on its
way either. -/
structure Frame (p p' : Pool σ) : Prop where
  line : p'.line = p.line
  nextBatch : p'.nextBatch = p.nextBatch
  collecting : p'.collecting? = p.collecting?
  underway : ∀ wanted, p'.underway wanted ≤ p.underway wanted

-- ---------------------------------------------------------------------------
-- The feeder
-- ---------------------------------------------------------------------------

section
variable {p p' : Pool σ} {f : Feeder} {wanted : Nat → Bool}

theorem one_if_eq_toNat {b : Bool} : (if b = true then 1 else 0) = b.toNat := by
  cases b <;> rfl

theorem underway_ofRecords? {batch : Nat} {records : List Record} :
    (Feeder.ofRecords? batch records).elim 0 (Feeder.underway wanted) =
      (wanted batch).toNat * records.length := by
  cases records with
  | nil => rfl
  | cons record rest =>
    simp only [Feeder.ofRecords?, Option.elim_some, Feeder.underway, List.length_cons]
    ring

theorem turn_of_feeder? (h : p.feeder? = some f) : ∃ t, p.turn = some t ∧ t.feeder = some f :=
  Option.bind_eq_some_iff.mp h

@[simp] theorem collecting?_withFeeder {feeder : Option Feeder} :
    (p.withFeeder feeder).collecting? = p.collecting? := by
  simp [collecting?, withFeeder, Function.comp_def]

theorem Frame.of_feeder {feeder : Option Feeder} (queue : List Assignment)
    (results : List Report) (h : p.feeder? = some f)
    (moved : ∀ wanted : Nat → Bool,
      queue.countP (fun a => wanted a.batch) + results.countP (fun r => wanted r.batch) +
          feeder.elim 0 (Feeder.underway wanted) ≤
        p.queue.countP (fun a => wanted a.batch) + p.results.countP (fun r => wanted r.batch) +
          f.underway wanted) :
    p.Frame ({ p with queue, results }.withFeeder feeder) where
  line := rfl
  nextBatch := rfl
  collecting := collecting?_withFeeder
  underway wanted := by
    obtain ⟨t, turn, _⟩ := turn_of_feeder? h
    have now : ({ p with queue, results }.withFeeder feeder).feeder? = feeder := by
      simp [feeder?, withFeeder, turn]
    have := moved wanted
    simp only [Pool.underway, h, now, Option.elim_some]
    simp only [withFeeder]
    omega

theorem feed?_frame (h : p.feed? = some p') : p.Frame p' := by
  unfold feed? at h
  split at h
  · next batch record rest feeder =>
    split at h
    · obtain rfl := Option.some.inj h
      refine .of_feeder _ p.results feeder fun wanted => ?_
      rw [underway_ofRecords?]
      simp only [Feeder.underway, List.countP_append, List.countP_singleton, one_if_eq_toNat]
      omega
    · cases h
  · cases h

theorem reject_frame {record : Record} {e : JobError} {batch : Nat} {rest : List Record}
    (h : p.feeder? = some ⟨batch, .record record, rest⟩) :
    p.Frame (p.reject ⟨batch, .record record, rest⟩ record e) :=
  .of_feeder p.queue p.results h fun _ => Nat.le_refl _

theorem giveUp?_frame (h : p.giveUp? = some p') : p.Frame p' := by
  unfold giveUp? at h
  split at h
  · next feeder =>
    split at h
    · obtain rfl := Option.some.inj h
      exact reject_frame feeder
    · cases h
  · cases h

theorem refuse?_frame (h : p.refuse? = some p') : p.Frame p' := by
  unfold refuse? at h
  split at h
  · next feeder =>
    split at h
    · obtain rfl := Option.some.inj h
      exact reject_frame feeder
    · cases h
  · cases h

theorem post?_frame (h : p.post? = some p') : p.Frame p' := by
  unfold post? at h
  split at h
  · next batch report rest feeder =>
    split at h
    · obtain rfl := Option.some.inj h
      refine .of_feeder p.queue _ feeder fun wanted => ?_
      rw [underway_ofRecords?]
      simp only [Feeder.underway, List.countP_append, List.countP_singleton, one_if_eq_toNat]
      omega
    · cases h
  · cases h

end

-- ---------------------------------------------------------------------------
-- The workers
-- ---------------------------------------------------------------------------

section
variable {p p' : Pool σ} {seat : Nat} {now : Instant} {store store' : σ} {events : List Event}

@[simp] theorem batch?_ofStage {batch : Nat} {jobId : String}
    {stage : Worker.Stage (Handler σ)} : (Seat.ofStage batch jobId stage).batch? = some batch := by
  cases stage <;> rfl

theorem Frame.of_seat {s s' : Seat σ} (queue : List Assignment) (results : List Report)
    (h : p.seats[seat]? = some s)
    (moved : ∀ wanted : Nat → Bool,
      queue.countP (fun a => wanted a.batch) + results.countP (fun r => wanted r.batch) +
          (s'.batch?.any wanted).toNat ≤
        p.queue.countP (fun a => wanted a.batch) + p.results.countP (fun r => wanted r.batch) +
          (s.batch?.any wanted).toNat) :
    p.Frame ({ p with queue, results }.withSeat seat s') where
  line := rfl
  nextBatch := rfl
  collecting := rfl
  underway wanted := by
    obtain ⟨inside, rfl⟩ := List.getElem?_eq_some_iff.mp h
    have had : (p.seats[seat].batch?.any wanted).toNat ≤
        p.seats.countP fun s => s.batch?.any wanted := by
      cases busy : p.seats[seat].batch?.any wanted with
      | false => exact Nat.zero_le _
      | true => exact List.countP_pos_iff.mpr ⟨_, List.getElem_mem inside, busy⟩
    have feeder : ({ p with queue, results }.withSeat seat s').feeder? = p.feeder? := rfl
    have := moved wanted
    simp only [Pool.underway, feeder]
    simp only [withSeat, List.countP_set inside, one_if_eq_toNat]
    omega

theorem returned_seen {seen : List Worker.Event} :
    (Pool.seen seat seen).filterMap Event.returned? = [] := by
  simp [Pool.seen, Event.returned?]

theorem take?_frame (h : p.take? now seat = some (p', events)) :
    p.Frame p' ∧ events.filterMap Event.returned? = [] := by
  unfold take? at h
  split at h
  · next a rest free queue =>
    split at h
    · cases h
    · cases h
      refine ⟨.of_seat rest p.results free fun wanted => ?_, returned_seen⟩
      rw [batch?_ofStage, queue, List.countP_cons, one_if_eq_toNat, Option.any_some]
      simp only [Seat.batch?, Option.any_none, Bool.toNat_false]
      omega
  · cases h

theorem leave?_frame (h : p.leave? seat = some p') : p.Frame p' := by
  unfold leave? at h
  split at h
  · next free =>
    split at h
    · obtain rfl := Option.some.inj h
      have kept (wanted : Nat → Bool) (gone : Bool) :
          (if gone then [] else p.queue).countP (fun a => wanted a.batch) ≤
            p.queue.countP fun a => wanted a.batch := by
        cases gone <;> simp
      refine .of_seat _ p.results free fun wanted => ?_
      exact Nat.add_le_add_right (Nat.add_le_add_right (kept wanted _) _) _
    · cases h
  · cases h

theorem work?_frame [RecordStore σ] (h : p.work? now seat store = some (p', store', events)) :
    p.Frame p' ∧ events.filterMap Event.returned? = [] := by
  unfold work? at h
  split at h
  · next batch jobId stage plan there =>
    split at h
    · cases h
      refine ⟨.of_seat p.queue p.results there fun wanted => ?_, returned_seen⟩
      rw [batch?_ofStage]
      exact Nat.le_refl _
    · cases h
  · cases h

theorem act?_frame (h : p.act? now seat store = some (p', store', events)) :
    p.Frame p' ∧ events.filterMap Event.returned? = [] := by
  unfold act? at h
  split at h
  · next batch jobId record context job handler plan there =>
    have frame {s : Seat σ} (its : s.batch? = some batch) : p.Frame (p.withSeat seat s) := by
      refine .of_seat p.queue p.results there fun wanted => ?_
      rw [its]
      exact Nat.le_refl _
    dsimp only at h
    split at h
    · cases h
      exact ⟨frame batch?_ofStage, returned_seen⟩
    · cases h
      exact ⟨frame rfl, returned_seen⟩
  · cases h

theorem handOver?_frame (h : p.handOver? seat = some p') : p.Frame p' := by
  unfold handOver? at h
  split at h
  · next report there =>
    split at h
    · obtain rfl := Option.some.inj h
      refine .of_seat p.queue _ there fun wanted => ?_
      simp only [Seat.batch?, List.countP_append, List.countP_singleton, one_if_eq_toNat,
        Option.any_some, Option.any_none, Bool.toNat_false]
      omega
    · cases h
  · cases h

end

-- ---------------------------------------------------------------------------
-- The batches
-- ---------------------------------------------------------------------------

section
variable {p p' : Pool σ} {b : Beat} {m : Move} {now : Instant} {store store' : σ}
  {events : List Event}

inductive Effect (p : Pool σ) : Beat → Pool σ → Prop
  | submitted {now : Instant} {ticket : Nat} {records : List Record} :
      Effect p ⟨now, .submit ticket records, none, (p.submit ticket records).2⟩
        (p.submit ticket records).1
  | begun {now : Instant} {next : Submission} {rest : List Submission} (idle : p.turn = none)
      (first : p.line = next :: rest) (accepting : p.accepting = true) :
      Effect p ⟨now, .begin, none, []⟩
        { p with
          line := rest
          nextBatch := p.nextBatch + 1
          turn := some ⟨next.ticket, .ofRecords p.nextBatch next.records,
            Feeder.ofRecords? p.nextBatch next.records⟩ }
  | refused {now : Instant} {next : Submission} {rest : List Submission} (idle : p.turn = none)
      (first : p.line = next :: rest) (closed : p.accepting = false) :
      Effect p ⟨now, .begin, none, [.returned next.ticket (refusal next.records)]⟩
        { p with line := rest, nextBatch := p.nextBatch + 1 }
  | told {now : Instant} {m : Move} {n : Notice} {t : Turn} {c : Collection}
      (results : List Report) (notice : p.notice? m = some n) (its : p.turn = some t)
      (taken : p.results = n.reports ++ results) (noted : t.collection.note? n = some c) :
      Effect p ⟨now, m, some n, ({ p with results }.settle t c).2⟩ ({ p with results }.settle t c).1
  | stuck {now : Instant} {t : Turn} (its : p.turn = some t)
      (noted : t.collection.note? .timeout = none) :
      Effect p ⟨now, .expire, some .timeout, (p.finish t t.collection).2⟩
        (p.finish t t.collection).1
  | framed {b : Beat} {p' : Pool σ} (none : b.notice = none) (later : b.move ≠ .begin)
      (frame : p.Frame p') (silent : b.returned = []) : Effect p b p'

theorem Beat.returned_of_silent {n : Option Notice} : (⟨now, m, n, []⟩ : Beat).returned = [] := by
  cases m <;> rfl

theorem Effect.of_quiet {p? : Option (Pool σ)} (none : p.notice? m = none) (later : m ≠ .begin)
    (h : (p?.map fun p => (p, store, ([] : List Event))) = some (p', store', events))
    (frame : ∀ {p'}, p? = some p' → p.Frame p') : p.Effect ⟨now, m, p.notice? m, events⟩ p' := by
  obtain ⟨p'', made, same⟩ := Option.map_eq_some_iff.mp h
  simp only [Prod.mk.injEq] at same
  obtain ⟨rfl, _, rfl⟩ := same
  exact .framed none later (frame made) Beat.returned_of_silent

theorem Effect.of_silent (none : p.notice? m = none) (later : m ≠ .begin)
    (h : p.Frame p' ∧ events.filterMap Event.returned? = []) :
    p.Effect ⟨now, m, p.notice? m, events⟩ p' := by
  refine .framed none later h.1 ?_
  cases m with
  | submit => rfl
  | _ => exact h.2

theorem begin?_effect (h : p.begin? = some (p', events)) :
    p.Effect ⟨now, .begin, none, events⟩ p' := by
  unfold begin? at h
  split at h
  · next next rest idle first =>
    dsimp only at h
    split at h
    · next accepting =>
      cases h
      exact .begun idle first accepting
    · next closed =>
      cases h
      exact .refused idle first (Bool.not_eq_true _ ▸ closed)
  · cases h

theorem collect?_effect (h : p.collect? = some (p', events)) :
    p.Effect ⟨now, .collect, p.notice? .collect, events⟩ p' := by
  unfold collect? at h
  split at h
  · next t r rest its results =>
    have notice : p.notice? .collect = some (.report r) := by simp [notice?, results]
    obtain ⟨rfl, rfl⟩ := Prod.mk.inj (Option.some.inj h).symm
    rw [notice]
    exact .told rest notice its results rfl
  · cases h

theorem expire?_effect (h : p.expire? = some (p', events)) :
    p.Effect ⟨now, .expire, p.notice? .expire, events⟩ p' := by
  unfold expire? at h
  split at h
  · next t its results =>
    split at h
    · next c noted =>
      obtain ⟨rfl, rfl⟩ := Prod.mk.inj (Option.some.inj h).symm
      exact .told p.results rfl its rfl noted
    · next noted =>
      obtain ⟨rfl, rfl⟩ := Prod.mk.inj (Option.some.inj h).symm
      exact .stuck its noted
  · cases h

theorem shutdown_frame : p.Frame p.shutdown.1 ∧ p.shutdown.2.filterMap Event.returned? = [] := by
  unfold shutdown
  split
  · exact ⟨⟨rfl, rfl, rfl, fun _ => Nat.le_refl _⟩, rfl⟩
  · exact ⟨⟨rfl, rfl, rfl, fun _ => Nat.le_refl _⟩, rfl⟩

theorem drained?_frame (h : p.drained? = some (p', events)) :
    p.Frame p' ∧ events.filterMap Event.returned? = [] := by
  unfold drained? at h
  split at h
  · cases h
    exact ⟨⟨rfl, rfl, rfl, fun _ => Nat.le_refl _⟩, rfl⟩
  · cases h

theorem deadline?_frame (h : p.deadline? = some (p', events)) :
    p.Frame p' ∧ events.filterMap Event.returned? = [] := by
  unfold deadline? at h
  split at h
  · cases h
    exact ⟨⟨rfl, rfl, rfl, fun _ => Nat.le_refl _⟩, rfl⟩
  · cases h

theorem Step.effect [RecordStore σ] (step : Step p b p') : p.Effect b p' := by
  cases step with
  | @of _ store store' now m events h =>
    have loud {p? : Option (Pool σ × List Event)}
        (h : (p?.map fun next => (next.1, store, next.2)) = some (p', store', events)) :
        p? = some (p', events) := by
      obtain ⟨⟨_, _⟩, made, same⟩ := Option.map_eq_some_iff.mp h
      simp only [Prod.mk.injEq] at same
      obtain ⟨rfl, _, rfl⟩ := same
      exact made
    cases m with
    | submit ticket records =>
      obtain ⟨rfl, rfl⟩ := Prod.mk.inj (Option.some.inj (loud h))
      exact .submitted
    | begin => exact begin?_effect (loud h)
    | feed => exact .of_quiet rfl (by simp) h feed?_frame
    | giveUp => exact .of_quiet rfl (by simp) h giveUp?_frame
    | refuse => exact .of_quiet rfl (by simp) h refuse?_frame
    | post => exact .of_quiet rfl (by simp) h post?_frame
    | take seat => exact .of_silent rfl (by simp) (take?_frame (loud h))
    | leave seat => exact .of_quiet rfl (by simp) h leave?_frame
    | work seat => exact .of_silent rfl (by simp) (work?_frame h)
    | act seat => exact .of_silent rfl (by simp) (act?_frame h)
    | handOver seat => exact .of_quiet rfl (by simp) h handOver?_frame
    | collect => exact collect?_effect (loud h)
    | expire => exact expire?_effect (loud h)
    | shutdown =>
      obtain ⟨rfl, rfl⟩ := Prod.mk.inj (Option.some.inj (loud h)).symm
      exact .of_silent rfl (by simp) shutdown_frame
    | drained => exact .of_silent rfl (by simp) (drained?_frame (loud h))
    | deadline => exact .of_silent rfl (by simp) (deadline?_frame (loud h))

-- ---------------------------------------------------------------------------
-- What is on its way
-- ---------------------------------------------------------------------------

variable {wanted : Nat → Bool}

theorem underway_submit {ticket : Nat} {records : List Record} :
    (p.submit ticket records).1.underway wanted = p.underway wanted := by
  unfold submit
  split <;> rfl

theorem underway_finish {t : Turn} {c : Collection} :
    (p.finish t c).1.underway wanted ≤ p.underway wanted := by
  simp [underway, finish, feeder?]

theorem underway_settle {t : Turn} {c : Collection} (its : p.turn = some t) :
    (p.settle t c).1.underway wanted ≤ p.underway wanted := by
  unfold settle
  split
  · exact underway_finish
  · have feeder : p.feeder? = t.feeder := by simp [feeder?, its]
    simp only [underway, feeder]
    exact Nat.le_refl _

/-- Nothing new is on its way but for a batch that gets its turn, and a report is taken once. -/
theorem Effect.underway (e : p.Effect b p') (later : b.move ≠ .begin) (wanted : Nat → Bool) :
    p'.underway wanted + b.reports.countP (fun r => wanted r.batch) ≤ p.underway wanted := by
  cases e with
  | submitted => exact Nat.le_of_eq underway_submit
  | begun => exact absurd rfl later
  | refused => exact absurd rfl later
  | @told now m n t c results notice its taken =>
    have left : ({ p with results } : Pool σ).underway wanted +
        n.reports.countP (fun r => wanted r.batch) = p.underway wanted := by
      have feeder : ({ p with results } : Pool σ).feeder? = p.feeder? := rfl
      simp only [Pool.underway, taken, feeder, List.countP_append]
      omega
    have settled : ({ p with results }.settle t c).1.underway wanted ≤
        ({ p with results } : Pool σ).underway wanted := underway_settle its
    simp only [Beat.reports, Option.elim_some]
    omega
  | stuck => exact underway_finish
  | framed none later frame silent =>
    simp only [Beat.reports, none, Option.elim_none, List.countP_nil]
    exact frame.underway wanted

theorem underway_begun {rest : List Submission} {nextBatch batch ticket : Nat}
    {records : List Record} {collection : Collection} (idle : p.turn = none) :
    ({ p with
        line := rest
        nextBatch
        turn := some ⟨ticket, collection, Feeder.ofRecords? batch records⟩ } : Pool σ).underway
        wanted = p.underway wanted + (wanted batch).toNat * records.length := by
  simp [underway, feeder?, idle, underway_ofRecords?]

end

-- ---------------------------------------------------------------------------
-- Pools that are played
-- ---------------------------------------------------------------------------

structure Cue (σ : Type) where
  time : Instant
  move : Move
  store : σ

section
variable [RecordStore σ] {p p' : Pool σ} {b : Beat} {c : Cue σ}

def cue? (p : Pool σ) (c : Cue σ) : Option (Beat × Pool σ) :=
  (p.step? c.time c.store c.move).map fun (p', _, events) =>
    (⟨c.time, c.move, p.notice? c.move, events⟩, p')

theorem step_iff_cue? : Step p b p' ↔ ∃ c, p.cue? c = some (b, p') := by
  constructor
  · intro step
    cases step with
    | @of _ store store' now m events h => exact ⟨⟨now, m, store⟩, by simp [cue?, h]⟩
  · rintro ⟨c, cue⟩
    obtain ⟨⟨p'', store', events⟩, h, same⟩ := Option.map_eq_some_iff.mp cue
    obtain ⟨rfl, rfl⟩ := Prod.mk.inj same
    exact .of h

theorem step_of_cue? (cue : p.cue? c = some (b, p')) : Step p b p' := step_iff_cue?.mpr ⟨c, cue⟩

end

end Pool

end JobQueue
