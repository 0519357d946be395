import JobQueue.Proofs.Pool.Claims
import JobQueue.Proofs.Pool.Poll
import JobQueue.Proofs.Worker.Account
import Mathlib.Algebra.Order.Floor.Div

/-!
# One poll after another

A caller polls again and again, each time when the poll before has returned. A record whose attempt
fails is due again at once, and no younger than before, so it is polled again before any younger
one. A record that was due at the start is reached, unless each poll is filled with records before
it (`Workshop.polling_reaches`).
-/

namespace JobQueue

open Time (Instant Span)
open Pool (Beat Event)

-- ---------------------------------------------------------------------------
-- Rounds
-- ---------------------------------------------------------------------------

/-- A poll that has returned: when it was made, what it was submitted to, all moves from then on,
and what it returned. -/
structure Round where
  time : Instant
  asked : Workshop MemoryStore
  beats : List Beat
  outcomes : List JobOutcome

/-- Whether a record was claimed in a round, and the round returned the outcome of an attempt at
it. -/
def Round.Attempts (round : Round) (id : String) : Prop :=
  round.asked.ClaimsIn round.beats id ∧
    ∃ o ∈ round.outcomes, o.jobId = id ∧ o.outcome.isAttempt = true

namespace Workshop

/-- One round: a poll under a ticket that tells it from the batch whose turn it is, and a run up to
its return, or beyond. -/
inductive Polls (limit : Nat) : Workshop MemoryStore → Round → Workshop MemoryStore → Prop
  | of {ws asked ws' : Workshop MemoryStore} {now : Instant} {ticket : Nat} {events : List Event}
      {beats : List Beat} {outcomes : List JobOutcome}
      (new : ∀ t, ws.pool.turn = some t → t.ticket ≠ ticket)
      (asks : ws.poll now limit ticket = .ok (asked, events))
      (run : Trace Step asked beats ws') (follows : ∀ b ∈ beats, b.Follows now)
      (returns : returnedTo ticket events beats = [outcomes]) :
      Polls limit ws ⟨now, asked, beats, outcomes⟩ ws'

structure IsReady (settings : Settings) (registry : Registry (Handler MemoryStore))
    (ws : Workshop MemoryStore) : Prop where
  reached : ∃ earlier, Trace Pool.Step (Pool.start settings registry) earlier ws.pool
  jobless : ws.pool.IsJobless
  accepting : ws.pool.accepting = true

end Workshop

structure MemoryStore.IsSound (s : MemoryStore) : Prop where
  valid : ∀ id r, s.find? id = some r → Record.validate (some r) = .ok r
  regular : ∀ id r since, s.find? id = some r → r.reservedAt = some since →
    since.isLeapSecond = false

-- ---------------------------------------------------------------------------
-- One round
-- ---------------------------------------------------------------------------

structure Round.Serves (round : Round) (due : List Record) (s s' : MemoryStore) : Prop where
  order : round.outcomes.map JobOutcome.jobId = due.map Record.id
  each : ∀ o ∈ round.outcomes, ∃ r ∈ due, r.id = o.jobId ∧ r.Polled (o.outcome, s'.find? r.id) ∧
    round.Attempts r.id
  others : ∀ id, (∀ r ∈ due, r.id ≠ id) → s'.find? id = s.find? id

theorem Record.Polled.isAttempt {r : Record} {e : Ending} (polled : r.Polled e)
    (valid : validate (some r) = .ok r) : e.1.isAttempt = true := by
  cases polled with
  | done => rfl
  | refused bad => cases valid.symm.trans bad
  | failed retry => exact retry

theorem Record.Polled.sameWork {r after : Record} {outcome : Outcome}
    (polled : r.Polled (outcome, some after)) :
    after.SameWork r ∧ (after = r ∨ after.reservedAt = none) := by
  cases polled with
  | refused => exact ⟨.refl r, .inl rfl⟩
  | failed _ _ free work => exact ⟨work, .inr free⟩

theorem Record.Polled.eq_none_of_ok {r : Record} {left : Option Record}
    (polled : r.Polled (.ok (), left)) : left = none := by
  cases polled
  rfl

theorem Floor.IsBacked.claimed {σ : Type} {f : Floor σ} {claimed : String → Prop}
    (backed : f.IsBacked claimed) {d : Duty σ} (member : d ∈ f.duties) {outcome : Outcome}
    (finished : d.run.outcome? = some outcome) (attempt : outcome.isAttempt = true) :
    claimed d.run.copy.id := by
  obtain ⟨stage, there, holds⟩ := backed d member
  rw [Worker.Run.outcome?, there, Option.bind_some] at finished
  cases stage with
  | done =>
    obtain rfl := Option.some.inj finished
    exact holds attempt
  | _ => cases finished

namespace Workshop

variable {settings : Settings} {registry : Registry (Handler MemoryStore)} {limit : Nat}
  {ws ws' : Workshop MemoryStore} {round : Round} {rounds : List Round}

theorem pool_trace {beats : List Beat} (trace : Trace Step ws beats ws') :
    Trace Pool.Step ws.pool beats ws'.pool := by
  refine trace.image (f := Workshop.pool) ?_
  rintro _ _ _ ⟨h⟩
  exact .of h

theorem IsReady.waiting (ready : ws.IsReady settings registry) {ticket : Nat}
    (new : ∀ t, ws.pool.turn = some t → t.ticket ≠ ticket) (records : List Record) :
    (⟨settings, registry, ws.pool.nextBatch, ticket, records, ws.store⟩ : Occasion).Waiting
      (· ≠ ticket) ws.pool [] := by
  obtain ⟨earlier, before⟩ := ready.reached
  exact ready.jobless.waiting before ready.accepting new records ws.store

theorem IsReady.reached_submitted (ready : ws.IsReady settings registry) {ticket : Nat}
    {records : List Record} {beats : List Beat}
    (run : Trace Step ⟨(ws.pool.submit ticket records).1, ws.store⟩ beats ws') :
    ∃ earlier, Trace Pool.Step (Pool.start settings registry) earlier ws'.pool := by
  obtain ⟨earlier, before⟩ := ready.reached
  have submits : ws.pool.step? .epoch ws.store (.submit ticket records) =
      some ((ws.pool.submit ticket records).1, ws.store, (ws.pool.submit ticket records).2) := rfl
  exact ⟨_, (before.snoc (.of submits)).append (pool_trace run)⟩

theorem floor_submit {p : Pool MemoryStore} {ticket : Nat} {records : List Record} :
    Watched.floor ⟨(p.submit ticket records).1, []⟩ = Watched.floor ⟨p, []⟩ := by
  unfold Pool.submit
  split <;> rfl

theorem serves_of_settled {o : Occasion} {x : Watched MemoryStore × MemoryStore}
    {outcomes : List JobOutcome} {asked : Workshop MemoryStore} {beats : List Beat} {now : Instant}
    (settled : o.Settled Record.Polled x outcomes)
    (backed : x.1.floor.IsBacked (asked.ClaimsIn beats))
    (valid : ∀ r ∈ o.records, Record.validate (some r) = .ok r) :
    Round.Serves ⟨now, asked, beats, outcomes⟩ o.records o.store x.2 := by
  refine ⟨settled.order, fun out listed => ?_, settled.others⟩
  obtain ⟨i, there⟩ := List.getElem?_of_mem listed
  have name : (o.records.map Record.id)[i]? = some out.jobId := by simp [← settled.order, there]
  rw [List.getElem?_map, Option.map_eq_some_iff] at name
  obtain ⟨r, its, name⟩ := name
  obtain ⟨d, member, copy, finished, polled⟩ := settled.each its there
  have among := List.mem_of_getElem? its
  have attempt : out.outcome.isAttempt = true := polled.isAttempt (valid r among)
  have claimed := backed.claimed member finished attempt
  rw [copy] at claimed
  exact ⟨r, among, name, polled, claimed, out, listed, name.symm, attempt⟩

/-- What a poll of a pool that is ready comes to: it has not returned, and something can be done, or
it has returned once, has attempted all records that were due, and the pool is ready again. -/
theorem IsReady.settles (ready : ws.IsReady settings registry)
    (hands : Worker.AreHandsOff registry.find?) (sound : ws.store.IsSound) {now : Instant}
    (plain : now.isLeapSecond = false) {ticket : Nat}
    (new : ∀ t, ws.pool.turn = some t → t.ticket ≠ ticket) {asked : Workshop MemoryStore}
    {events : List Event} (asks : ws.poll now limit ticket = .ok (asked, events))
    {beats : List Beat} (run : Trace Step asked beats ws')
    (follows : ∀ b ∈ beats, b.Follows now) :
    (returnedTo ticket events beats = [] ∧
      ∀ time, ∃ b ws'', Step ws' b ws'' ∧ b.move.isQuiet = true ∧ b.time = time) ∨
    ∃ outcomes, returnedTo ticket events beats = [outcomes] ∧ ws'.IsReady settings registry ∧
      ∃ due, ws.store.IsDue now settings.reservationWindow limit due ∧
        Round.Serves ⟨now, asked, beats, outcomes⟩ due ws.store ws'.store := by
  let due := ws.store.due now settings.reservationWindow limit
  let o : Occasion := ⟨settings, registry, ws.pool.nextBatch, ticket, due, ws.store⟩
  have waits : o.Waiting (· ≠ ticket) ws.pool [] := ready.waiting new due
  have listed : ws.store.IsDue now settings.reservationWindow limit due := MemoryStore.isDue
  have submitted : ws.poll now limit ticket =
      .ok (o.submitted ws.pool, (ws.pool.submit ticket due).2) := poll_eq waits.settings
  obtain ⟨rfl, rfl⟩ := Prod.mk.inj (Except.ok.inj (asks.symm.trans submitted))
  obtain ⟨ds, watched⟩ := exists_watched [] run
  have same : Watched.floor ⟨(o.submitted ws.pool).pool, []⟩ = Watched.floor ⟨ws.pool, []⟩ :=
    floor_submit
  have manned : (Watched.floor ⟨(o.submitted ws.pool).pool, []⟩).IsManned := same ▸ waits.manned
  obtain ⟨_, backed⟩ := Watched.backed_of_trace watched manned rfl
  obtain ⟨others, differ, ends⟩ := waits.settles (listed.promises hands plain sound.regular)
    watched fun b member => ⟨(follows b member).1, trivial, (follows b member).2⟩
  have none : others.filter (·.1 == ticket) = [] :=
    List.filter_eq_nil_iff.mpr fun call member => by simpa using differ call member
  have mine : returnedTo ticket (ws.pool.submit ticket due).2 beats =
      ((o.returnedBy ws.pool beats).filter (·.1 == ticket)).map Prod.snd := rfl
  rw [mine]
  rcases ends with ⟨waits, goesOn⟩ | ⟨outcomes, said, settled⟩
  · exact .inl ⟨by rw [waits, none, List.map_nil], goesOn⟩
  · have alone := (said.filter (·.1 == ticket)).map Prod.snd
    have own : (o.ticket == ticket) = true := beq_self_eq_true _
    simp only [List.filter_cons, own, if_true, none] at alone
    refine .inr ⟨outcomes, List.perm_singleton.mp alone,
      ⟨ready.reached_submitted run, ?_, settled.accepting⟩, due, listed, ?_⟩
    · exact ⟨settled.line, settled.jobless.fed, settled.jobless.queue, settled.jobless.rests⟩
    · exact serves_of_settled settled backed fun r member =>
        sound.valid r.id r (listed.stored r member)

/-- A round attempts all records that were due, and leaves the pool ready for the next one. -/
theorem Polls.serves (poll : Polls limit ws round ws') (ready : ws.IsReady settings registry)
    (hands : Worker.AreHandsOff registry.find?) (sound : ws.store.IsSound)
    (plain : round.time.isLeapSecond = false) : ws'.IsReady settings registry ∧
      ∃ due, ws.store.IsDue round.time settings.reservationWindow limit due ∧
        round.Serves due ws.store ws'.store := by
  cases poll with
  | of new asks run follows returns =>
    rcases ready.settles hands sound plain new asks run follows with
      ⟨silent, _⟩ | ⟨outcomes, said, ready, served⟩
    · cases silent.symm.trans returns
    · obtain rfl := List.singleton_inj.mp (said.symm.trans returns)
      exact ⟨ready, served⟩

end Workshop

-- ---------------------------------------------------------------------------
-- Many rounds
-- ---------------------------------------------------------------------------

def outcomesOf (rounds : List Round) : List JobOutcome := rounds.flatMap Round.outcomes

theorem outcomesOf_snoc {rounds : List Round} {round : Round} :
    outcomesOf (rounds ++ [round]) = outcomesOf rounds ++ round.outcomes := by
  simp [outcomesOf]

theorem Record.SameWork.trans {a b c : Record} (first : a.SameWork b) (second : b.SameWork c) :
    a.SameWork c where
  id := first.id.trans second.id
  collection := first.collection.trans second.collection
  payload := first.payload.trans second.payload
  createdAt := first.createdAt.trans second.createdAt

namespace Round

variable {round : Round} {due : List Record} {s s' start : MemoryStore} {now : Instant}
  {window : Span} {limit : Nat} {id : String} {r : Record}

theorem Serves.exists_outcome (serves : round.Serves due s s') (member : r ∈ due) :
    ∃ o ∈ round.outcomes, o.jobId = r.id := by
  have listed : r.id ∈ round.outcomes.map JobOutcome.jobId :=
    serves.order ▸ List.mem_map_of_mem member
  exact List.mem_map.mp listed

theorem Serves.find?_cases (serves : round.Serves due s s')
    (listed : s.IsDue now window limit due) (id : String) : s'.find? id = s.find? id ∨
      ∃ r o, o ∈ round.outcomes ∧ o.jobId = id ∧ s.find? id = some r ∧
        r.Polled (o.outcome, s'.find? id) := by
  by_cases those : ∃ r ∈ due, r.id = id
  · obtain ⟨r, member, rfl⟩ := those
    obtain ⟨o, given, name⟩ := serves.exists_outcome member
    obtain ⟨r', member', same, polled, _⟩ := serves.each o given
    rw [name] at same
    rw [same] at polled
    exact .inr ⟨r', o, given, name, same ▸ listed.stored r' member', polled⟩
  · exact .inl (serves.others id fun r member its => those ⟨r, member, its⟩)

theorem Serves.find?_eq_none (serves : round.Serves due s s')
    (listed : s.IsDue now window limit due) (absent : s.find? id = none) : s'.find? id = none := by
  rcases serves.find?_cases listed id with same | ⟨r, _, _, _, there, _⟩
  · exact same.trans absent
  · cases absent.symm.trans there

/-- Whether a round was filled with attempts at records before another one, as they were stored at
the start. -/
def IsFilledBefore (round : Round) (start : MemoryStore) (limit : Nat) (r : Record) : Prop :=
  round.outcomes.length = limit ∧ ∀ o ∈ round.outcomes, round.Attempts o.jobId ∧
    ∃ first, start.find? o.jobId = some first ∧ first.Precedes r

end Round

structure MemoryStore.Outlasts (start s : MemoryStore) (rounds : List Round) : Prop where
  shrinks : ∀ id r, s.find? id = some r →
    ∃ old, start.find? id = some old ∧ r.SameWork old ∧ (r = old ∨ r.reservedAt = none)
  untouched : ∀ id, (∀ o ∈ outcomesOf rounds, o.jobId ≠ id) → s.find? id = start.find? id
  finished : ∀ o ∈ outcomesOf rounds, o.isOk = true → s.find? o.jobId = none
  once : (((outcomesOf rounds).filter JobOutcome.isOk).map JobOutcome.jobId).Nodup

namespace MemoryStore.Outlasts

variable {start s s' : MemoryStore} {rounds : List Round} {round : Round} {due : List Record}
  {now : Instant} {window : Span} {limit : Nat}

theorem refl (start : MemoryStore) : start.Outlasts start [] where
  shrinks _ r there := ⟨r, there, .refl r, .inl rfl⟩
  untouched _ _ := rfl
  finished _ member := absurd member List.not_mem_nil
  once := List.nodup_nil

theorem isSound (kept : start.Outlasts s rounds) (sound : start.IsSound) : s.IsSound where
  valid id r there := by
    obtain ⟨old, before, work, _⟩ := kept.shrinks id r there
    have valid := (Record.validate_eq_ok_iff.mp (sound.valid id old before)).2
    exact Record.validate_eq_ok_iff.mpr ⟨rfl, work.id ▸ valid.1, work.collection ▸ valid.2⟩
  regular id r since there held := by
    obtain ⟨old, before, _, rfl | free⟩ := kept.shrinks id r there
    · exact sound.regular id r since before held
    · cases free.symm.trans held

theorem step (kept : start.Outlasts s rounds) (listed : s.IsDue now window limit due)
    (serves : round.Serves due s s') : start.Outlasts s' (rounds ++ [round]) := by
  constructor
  case shrinks =>
    intro id r there
    rcases serves.find?_cases listed id with same | ⟨before, o, _, _, stored, polled⟩
    · exact kept.shrinks id r (same ▸ there)
    · obtain ⟨old, first, work, free⟩ := kept.shrinks id before stored
      rw [there] at polled
      obtain ⟨again, rfl | freed⟩ := polled.sameWork
      · exact ⟨old, first, work, free⟩
      · exact ⟨old, first, again.trans work, .inr freed⟩
  case untouched =>
    intro id others
    rw [outcomesOf_snoc, List.forall_mem_append] at others
    refine Eq.trans (serves.others id fun r member its => ?_) (kept.untouched id others.1)
    obtain ⟨o, given, name⟩ := serves.exists_outcome member
    exact others.2 o given (name.trans its)
  case finished =>
    rw [outcomesOf_snoc, List.forall_mem_append]
    constructor
    · intro o earlier finished
      exact serves.find?_eq_none listed (kept.finished o earlier finished)
    · intro o given finished
      obtain ⟨r, _, name, polled, _⟩ := serves.each o given
      cases outcome : o.outcome with
      | error => simp [JobOutcome.isOk, outcome] at finished
      | ok =>
        rw [name, outcome] at polled
        exact polled.eq_none_of_ok
  case once =>
    rw [outcomesOf_snoc, List.filter_append, List.map_append, List.nodup_append]
    refine ⟨kept.once, ?_, ?_⟩
    · refine List.Nodup.sublist (List.filter_sublist.map JobOutcome.jobId) ?_
      rw [serves.order]
      exact listed.distinct
    · -- what is done is gone, and what is gone is not due
      intro id earlier id' new same
      obtain ⟨o, member, rfl⟩ := List.mem_map.mp earlier
      obtain ⟨o', member', rfl⟩ := List.mem_map.mp new
      rw [List.mem_filter] at member member'
      obtain ⟨r, among, name, _⟩ := serves.each o' member'.1
      have there := listed.stored r among
      rw [name, ← same, kept.finished o member.1 member.2] at there
      cases there

end MemoryStore.Outlasts

theorem Round.never_of_filled {start : MemoryStore} {rounds : List Round} {limit : Nat} {r : Record}
    (there : start.find? r.id = some r)
    (filled : ∀ round ∈ rounds, round.IsFilledBefore start limit r) :
    ∀ o ∈ outcomesOf rounds, o.jobId ≠ r.id := by
  intro o listed same
  obtain ⟨round, member, given⟩ := List.mem_flatMap.mp listed
  obtain ⟨_, first, old, precedes⟩ := (filled round member).2 o given
  rw [same, there] at old
  exact precedes.ne (Option.some.inj old).symm

theorem Record.SameWork.precedes {a b c : Record} (work : a.SameWork b) (first : a.Precedes c) :
    b.Precedes c := by
  rwa [Precedes, work.createdAt, work.id] at first

/-- A round attempts a record that is due, or it is filled with records before it. -/
theorem Round.Serves.attempts_or_isFilledBefore {round : Round} {due : List Record}
    {start s s' : MemoryStore} {rounds : List Round} {now : Instant} {window : Span} {limit : Nat}
    {r : Record} (serves : round.Serves due s s') (listed : s.IsDue now window limit due)
    (kept : start.Outlasts s rounds) (there : s.find? r.id = some r) (free : r.IsFree now window) :
    round.Attempts r.id ∨ round.IsFilledBefore start limit r := by
  by_cases member : r ∈ due
  · obtain ⟨o, given, name⟩ := serves.exists_outcome member
    obtain ⟨_, _, same, _, attempts⟩ := serves.each o given
    rw [same, name] at attempts
    exact .inl attempts
  · -- a list that leaves out a record which is due is full, and all of it comes before
    have many : round.outcomes.length = due.length := by
      simpa using congrArg List.length serves.order
    have full : ¬due.length < limit := fun few => member (listed.full few r.id r there free)
    have short := listed.short
    refine .inr ⟨by omega, fun o given => ?_⟩
    obtain ⟨d, among, name, _, attempts⟩ := serves.each o given
    obtain ⟨old, first, work, _⟩ := kept.shrinks d.id d (listed.stored d among)
    rw [name] at attempts first
    exact ⟨attempts, old, first, work.precedes (listed.first r.id r there free member d among)⟩

namespace Workshop

variable {settings : Settings} {registry : Registry (Handler MemoryStore)} {limit : Nat}
  {start : Instant} {ws ws' : Workshop MemoryStore} {round : Round} {rounds : List Round}
  {r : Record}

/-- Rounds on a pool that is ready, by a clock that does not go back to before the start, with
nobody else writing to the store. -/
structure Polling (settings : Settings) (registry : Registry (Handler MemoryStore)) (limit : Nat)
    (start : Instant) (ws : Workshop MemoryStore) (rounds : List Round)
    (ws' : Workshop MemoryStore) : Prop where
  ready : ws.IsReady settings registry
  handsOff : Worker.AreHandsOff registry.find?
  sound : ws.store.IsSound
  plain : start.isLeapSecond = false
  run : Trace (Polls limit) ws rounds ws'
  clock : ∀ round ∈ rounds, round.time.isLeapSecond = false ∧ start ≤ round.time

theorem Polling.outlasts (polling : Polling settings registry limit start ws rounds ws') :
    ws'.IsReady settings registry ∧ ws.store.Outlasts ws'.store rounds ∧
      ∀ r ∈ ws.store.waiting start settings.reservationWindow,
        (∃ round ∈ rounds, round.Attempts r.id) ∨
          ∀ round ∈ rounds, round.IsFilledBefore ws.store limit r := by
  obtain ⟨ready, hands, sound, plain, run, clock⟩ := polling
  induction run with
  | nil => exact ⟨ready, .refl _, fun _ _ => .inr (List.forall_mem_nil _)⟩
  | @snoc w _ rounds round _ last ih =>
    rw [List.forall_mem_append] at clock
    obtain ⟨ready, kept, reached⟩ := ih clock.1
    obtain ⟨plain', later⟩ := clock.2 round (List.mem_singleton_self round)
    obtain ⟨ready, due, listed, serves⟩ := last.serves ready hands (kept.isSound sound) plain'
    refine ⟨ready, kept.step listed serves, fun r waits => ?_⟩
    rcases reached r waits with ⟨earlier, member, attempts⟩ | filled
    · exact .inl ⟨earlier, List.mem_append_left _ member, attempts⟩
    · -- no round attempted the record, so it is as it was at the start
      obtain ⟨stored, free⟩ := MemoryStore.mem_waiting.mp waits
      have there : ws.store.find? r.id = some r := Keyed.find?_of_mem stored
      have others := Round.never_of_filled there filled
      have free : r.IsFree round.time settings.reservationWindow :=
        Record.isReservedWithin_eq_false_iff.mp
          (free.later later plain plain' fun since => sound.regular r.id r since there)
      rcases serves.attempts_or_isFilledBefore listed kept
        ((kept.untouched r.id others).trans there) free with attempts | here
      · exact .inl ⟨round, List.mem_append_right _ (List.mem_singleton_self round), attempts⟩
      · exact .inr (List.forall_mem_append.mpr ⟨filled, List.forall_mem_singleton.mpr here⟩)

end Workshop

-- ---------------------------------------------------------------------------
-- How many polls it takes
-- ---------------------------------------------------------------------------

namespace MemoryStore

def hasDue (s : MemoryStore) (now : Instant) (window : Span)
    (id : String) : Bool :=
  (s.find? id).any fun r => !r.isReservedWithin now window

theorem hasDue_iff {s : MemoryStore} {now : Instant} {window : Span} {id : String} :
    s.hasDue now window id = true ↔ id ∈ (s.waiting now window).map Record.id := by
  rw [hasDue, Option.any_eq_true, List.mem_map]
  constructor
  · rintro ⟨r, there, free⟩
    refine ⟨r, mem_waiting.mpr ⟨Keyed.mem_of_find? there, ?_⟩, id_of_find? there⟩
    exact Record.isReservedWithin_eq_false_iff.mp (by simpa using free)
  · rintro ⟨r, member, rfl⟩
    obtain ⟨stored, free⟩ := mem_waiting.mp member
    refine ⟨r, Keyed.find?_of_mem stored, ?_⟩
    simpa using Record.isReservedWithin_eq_false_iff.mpr free

end MemoryStore

namespace Round

/-- How many attempts of some rounds failed, at records that were due at the start. -/
def failures (s : MemoryStore) (start : Instant) (window : Span) (rounds : List Round) : Nat :=
  (outcomesOf rounds).countP fun o => s.hasDue start window o.jobId && !o.isOk

/-- How many attempts of some rounds were at records that were not due at the start. -/
def latecomers (s : MemoryStore) (start : Instant) (window : Span) (rounds : List Round) : Nat :=
  (outcomesOf rounds).countP fun o => !s.hasDue start window o.jobId

def ReachAll (s : MemoryStore) (start : Instant) (window : Span) (rounds : List Round) : Prop :=
  ∀ r ∈ s.waiting start window, ∃ round ∈ rounds, round.Attempts r.id

variable {s s' : MemoryStore} {rounds : List Round} {start : Instant} {window : Span} {limit : Nat}
  {r : Record}

theorem not_reachAll (waits : r ∈ s.waiting start window)
    (never : ∀ round ∈ rounds, ∀ o ∈ round.outcomes, o.jobId ≠ r.id) :
    ¬ReachAll s start window rounds := by
  intro reached
  obtain ⟨round, member, _, o, given, name, _⟩ := reached r waits
  exact never round member o given name

theorem length_outcomesOf (full : ∀ round ∈ rounds, round.outcomes.length = limit) :
    (outcomesOf rounds).length = rounds.length * limit := by
  rw [outcomesOf, List.length_flatMap, List.map_congr_left full]
  simp

/-- Each record that was due is done once at most, and one that no round attempted is not. -/
theorem length_done_lt (kept : s.Outlasts s' rounds) (waits : r ∈ s.waiting start window)
    (never : ∀ o ∈ outcomesOf rounds, o.jobId ≠ r.id) :
    (outcomesOf rounds).countP (fun o => s.hasDue start window o.jobId && o.isOk) <
      (s.waiting start window).length := by
  let done := (outcomesOf rounds).filter fun o => s.hasDue start window o.jobId && o.isOk
  have distinct : (r.id :: done.map JobOutcome.jobId).Nodup := by
    refine List.nodup_cons.mpr ⟨?_, kept.once.sublist (List.Sublist.map _ ?_)⟩
    · rintro listed
      obtain ⟨o, member, same⟩ := List.mem_map.mp listed
      exact never o (List.mem_of_mem_filter member) same
    · exact List.monotone_filter_right _ fun o both => (Bool.and_eq_true_iff.mp both).2
  have among : (r.id :: done.map JobOutcome.jobId) ⊆ (s.waiting start window).map Record.id := by
    refine List.cons_subset.mpr ⟨List.mem_map_of_mem waits, ?_⟩
    intro id listed
    obtain ⟨o, member, rfl⟩ := List.mem_map.mp listed
    have both := (List.mem_filter.mp member).2
    exact MemoryStore.hasDue_iff.mp (Bool.and_eq_true_iff.mp both).1
  have few := (List.Nodup.subperm distinct among).length_le
  rw [List.length_cons, List.length_map, List.length_map] at few
  rw [List.countP_eq_length_filter]
  exact few

/-- Rounds that are filled before a record hold no more than the other records that were due, the
failures and the latecomers. -/
theorem length_mul_lt (kept : s.Outlasts s' rounds) (waits : r ∈ s.waiting start window)
    (filled : ∀ round ∈ rounds, round.IsFilledBefore s limit r) : rounds.length * limit <
      (s.waiting start window).length + failures s start window rounds +
        latecomers s start window rounds := by
  have there : s.find? r.id = some r := Keyed.find?_of_mem (MemoryStore.mem_waiting.mp waits).1
  let due (o : JobOutcome) : Bool := s.hasDue start window o.jobId
  have done : (outcomesOf rounds).countP (fun o => due o && o.isOk) <
      (s.waiting start window).length :=
    length_done_lt kept waits (never_of_filled there filled)
  have all : (outcomesOf rounds).length =
      (outcomesOf rounds).countP due + latecomers s start window rounds := by
    rw [List.length_eq_countP_add_countP due, latecomers]
    simp [due]
  have parts : (outcomesOf rounds).countP due =
      (outcomesOf rounds).countP (fun o => due o && o.isOk) + failures s start window rounds := by
    rw [List.countP_eq_countP_filter_add _ due JobOutcome.isOk, List.countP_filter,
      List.countP_filter]
    rfl
  rw [length_outcomesOf fun round member => (filled round member).1, parts] at all
  omega

end Round

namespace Workshop

variable {settings : Settings} {registry : Registry (Handler MemoryStore)} {limit : Nat}
  {start : Instant} {ws ws' : Workshop MemoryStore} {rounds : List Round}

/-- Whether a poll can be made, something can be done until it has returned, and nothing can be done
for ever. -/
def HasToReturn (ws : Workshop MemoryStore) (now : Instant) (limit ticket : Nat) : Prop :=
  ∃ asked events, ws.poll now limit ticket = .ok (asked, events) ∧
    (∀ beats ws', Trace Step asked beats ws' → (∀ b ∈ beats, b.Follows now) →
      (∃ outcomes, returnedTo ticket events beats = [outcomes]) ∨
        ∀ time, ∃ b ws'', Step ws' b ws'' ∧ b.move.isQuiet = true ∧ b.time = time) ∧
    ∀ (states : Nat → Workshop MemoryStore) (beats : Nat → Beat), states 0 = asked →
      ¬ ∀ i, Step (states i) (beats i) (states (i + 1)) ∧ (beats i).move.isQuiet = true

theorem IsReady.hasToReturn (ready : ws.IsReady settings registry)
    (hands : Worker.AreHandsOff registry.find?) (sound : ws.store.IsSound) {now : Instant}
    (plain : now.isLeapSecond = false) {ticket : Nat}
    (new : ∀ t, ws.pool.turn = some t → t.ticket ≠ ticket) : ws.HasToReturn now limit ticket := by
  have waits := ready.waiting new []
  refine ⟨_, _, poll_eq waits.settings, fun beats ws' run follows => ?_,
    fun states beats _ => not_forever states beats⟩
  rcases ready.settles hands sound plain new (poll_eq waits.settings) run follows with
    ⟨_, goesOn⟩ | ⟨outcomes, said, _⟩
  · exact .inr goesOn
  · exact .inl ⟨outcomes, said⟩

-- ---------------------------------------------------------------------------
-- Rounds that are played
-- ---------------------------------------------------------------------------

/-- The round by a cue, which says when it is, under which ticket, and what the moves are. It is
there only if the records are stored in the order of service. -/
def round? (limit : Nat) (ws : Workshop MemoryStore) (c : Instant × Nat × List Pool.Move) :
    Option (Round × Workshop MemoryStore) :=
  let free := ws.store.items.filter fun r =>
    !r.isReservedWithin c.1 ws.pool.settings.reservationWindow
  let (pool, events) := ws.pool.submit c.2.1 (free.take limit)
  (Trace.play? cue? ⟨pool, ws.store⟩ (c.2.2.map (c.1, ·))).bind fun played =>
    (returnedTo c.2.1 events played.1).head?.bind fun outcomes =>
      if returnedTo c.2.1 events played.1 = [outcomes] ∧ c.1.isLeapSecond = false ∧
          free.Pairwise (fun a b => a.servedBefore b = true) ∧
          ws.pool.turn.all (·.ticket != c.2.1) = true ∧
          ∀ b ∈ played.1, b.move.isQuiet = true ∧ b.time = c.1 then
        some (⟨c.1, ⟨pool, ws.store⟩, played.1, outcomes⟩, played.2)
      else none

theorem polls_of_round? {round : Round} {c : Instant × Nat × List Pool.Move}
    (cue : ws.round? limit c = some (round, ws')) : Polls limit ws round ws' := by
  obtain ⟨now, ticket, moves⟩ := c
  simp only [round?, Option.bind_eq_some_iff, Option.ite_none_right_eq_some, Option.some.injEq,
    Prod.mk.injEq] at cue
  obtain ⟨⟨beats, _⟩, played, outcomes, _, ⟨returns, plain, sorted, new, quiet⟩, rfl, rfl⟩ := cue
  have due : ws.store.due now ws.pool.settings.reservationWindow limit = _ :=
    congrArg (List.take limit) (List.mergeSort_of_pairwise sorted)
  refine .of (fun t its => ?_) ?_ (Trace.of_play? step_of_cue? played) (fun b member => ?_) returns
  · simpa [its] using new
  · rw [poll_eq rfl, due]
  · refine ⟨(quiet b member).1, fun _ _ => ?_⟩
    rw [(quiet b member).2]
    exact ⟨plain, Instant.le_refl now⟩

theorem isReady_start {s : MemoryStore} :
    IsReady settings registry ⟨.start settings registry, s⟩ := by
  refine ⟨⟨[], .nil _⟩, ⟨rfl, fun g fed => ?_, rfl, fun st member => ?_⟩, rfl⟩
  · cases fed
  · rw [List.eq_of_mem_replicate member]
    rfl

theorem exists_polling {s : MemoryStore} {cues : List (Instant × Nat × List Pool.Move)}
    {check : List Round × Workshop MemoryStore → Bool}
    (hands : Worker.AreHandsOff registry.find?) (plain : start.isLeapSecond = false)
    (sound : ∀ r ∈ s.items, (Text.blank r.id = false ∧ r.collection = queueCollection) ∧
      ∀ since ∈ r.reservedAt, since.isLeapSecond = false)
    (checked : (Trace.play? (round? limit) ⟨.start settings registry, s⟩ cues).any fun played =>
      played.1.all (fun round => !round.time.isLeapSecond && decide (start ≤ round.time)) &&
        check played) :
    ∃ rounds ws', Polling settings registry limit start ⟨.start settings registry, s⟩ rounds ws' ∧
      check (rounds, ws') = true := by
  obtain ⟨⟨rounds, ws'⟩, played, holds⟩ := (Option.any_eq_true _ _).mp checked
  rw [Bool.and_eq_true, List.all_eq_true] at holds
  obtain ⟨clock, holds⟩ := holds
  have run : Trace (Polls limit) ⟨.start settings registry, s⟩ rounds ws' :=
    Trace.of_play? (fun cue => polls_of_round? cue) played
  have kept : s.IsSound := by
    constructor
    · intro id r there
      exact Record.validate_eq_ok_iff.mpr ⟨rfl, (sound r (Keyed.mem_of_find? there)).1⟩
    · intro id r since there held
      exact (sound r (Keyed.mem_of_find? there)).2 since held
  refine ⟨rounds, ws', ⟨isReady_start, hands, kept, plain, run, fun round member => ?_⟩, holds⟩
  simpa using clock round member

/-- How far polling reaches. Each record that is due at the start is claimed and attempted in one of
the rounds, or each of them is filled with attempts at records before it. So all are, once there
are as many rounds as it takes for the records, for the attempts at them that fail, and for those at
records that were not due at the start. Each next poll can be made and has to return. -/
theorem polling_reaches (polling : Polling settings registry limit start ws rounds ws') :
    (∀ r ∈ ws.store.waiting start settings.reservationWindow,
      (∃ round ∈ rounds, round.Attempts r.id) ∨
        ∀ round ∈ rounds, round.IsFilledBefore ws.store limit r) ∧
    (0 < limit →
      ((ws.store.waiting start settings.reservationWindow).length +
          Round.failures ws.store start settings.reservationWindow rounds +
          Round.latecomers ws.store start settings.reservationWindow rounds) ⌈/⌉ limit ≤
        rounds.length →
      Round.ReachAll ws.store start settings.reservationWindow rounds) ∧
    ∀ now ticket, now.isLeapSecond = false → (∀ t, ws'.pool.turn = some t → t.ticket ≠ ticket) →
      ws'.HasToReturn now limit ticket := by
  obtain ⟨ready, kept, reached⟩ := polling.outlasts
  refine ⟨reached, fun some enough r waits => ?_, fun now ticket plain new => ?_⟩
  · refine (reached r waits).resolve_right fun filled => ?_
    have few := Round.length_mul_lt kept waits filled
    rw [ceilDiv_le_iff_le_mul some, Nat.mul_comm] at enough
    omega
  · exact ready.hasToReturn polling.handsOff (kept.isSound polling.sound) plain new

open Occasion (letter fourLetters)

/-- Four letters: two that succeed, one that fails, and one that somebody has just reserved. -/
def fourOfAll : MemoryStore :=
  (((Keyed.empty.put (letter "a" 0 none)).put (letter "b" 0 none)).put (letter "c" 1 none)).put
    (letter "d" 0 (some .epoch))

def oneAttempt : List Pool.Move :=
  [.take 0, .work 0, .act 0, .work 0, .handOver 0, .collect]

/-- Three polls of two records reach the three letters that are due at the start, with two failures
and one letter that comes to be due meanwhile. -/
theorem polling_reaches_fourOfAll : ∃ rounds ws',
    Polling fourLetters.settings fourLetters.registry 2 .epoch
      ⟨.start fourLetters.settings fourLetters.registry, fourOfAll⟩ rounds ws' ∧
    (3 + 2 + 1 : Nat) ⌈/⌉ (2 : Nat) = rounds.length ∧
    Round.ReachAll fourOfAll .epoch fourLetters.settings.reservationWindow rounds ∧
    ws'.HasToReturn (.ofSecond 302) 2 0 := by
  let window := fourLetters.settings.reservationWindow
  let both : List Pool.Move := [.begin, .feed, .feed] ++ oneAttempt ++ oneAttempt
  obtain ⟨rounds, ws', polling, checked⟩ :=
    @exists_polling fourLetters.settings fourLetters.registry 2 .epoch fourOfAll
      [(.epoch, 0, both), (.ofSecond 300, 0, both),
        (.ofSecond 301, 0, [.begin, .feed] ++ oneAttempt)]
      (fun played => played.1.length == 3 &&
        Round.failures fourOfAll .epoch window played.1 == 2 &&
        Round.latecomers fourOfAll .epoch window played.1 == 1 && played.2.pool.turn.isNone)
      Occasion.areHandsOff_fourLetters rfl (by decide +kernel) (by decide +kernel)
  simp only [Bool.and_eq_true, beq_iff_eq, Option.isNone_iff_eq_none] at checked
  obtain ⟨⟨⟨many, fails⟩, late⟩, idle⟩ := checked
  have due : (fourOfAll.waiting .epoch window).length = 3 := by
    rw [MemoryStore.waiting, List.length_mergeSort]
    decide +kernel
  have enough : (3 + 2 + 1 : Nat) ⌈/⌉ (2 : Nat) = rounds.length := many.symm
  obtain ⟨-, reaches, goesOn⟩ := polling_reaches polling
  refine ⟨rounds, ws', polling, enough, reaches Nat.two_pos ?_, goesOn _ _ rfl ?_⟩
  · rw [← enough]
    dsimp only
    rw [due, fails, late]
  · simp [idle]

/-- Rounds of one record each that are played, as many as records are due at the start, and that do
not reach one of them. -/
theorem exists_unreached {s : MemoryStore} {cues : List (Instant × Nat × List Pool.Move)}
    {r : Record} {check : List Round → Bool}
    (waits : r ∈ s.waiting .epoch fourLetters.settings.reservationWindow)
    (sound : ∀ r ∈ s.items, (Text.blank r.id = false ∧ r.collection = queueCollection) ∧
      ∀ since ∈ r.reservedAt, since.isLeapSecond = false)
    (checked : (Trace.play? (round? 1)
        ⟨.start fourLetters.settings fourLetters.registry, s⟩ cues).any fun played =>
      played.1.all (fun round => !round.time.isLeapSecond && decide (.epoch ≤ round.time)) &&
        (played.1.length == (s.items.filter fun r => !r.isReservedWithin .epoch
            fourLetters.settings.reservationWindow).length &&
          (played.1.all fun round => round.outcomes.all (·.jobId != r.id)) && check played.1)) :
    ∃ rounds ws', Polling fourLetters.settings fourLetters.registry 1 .epoch
        ⟨.start fourLetters.settings fourLetters.registry, s⟩ rounds ws' ∧
      (s.waiting .epoch fourLetters.settings.reservationWindow).length ⌈/⌉ (1 : Nat) ≤
        rounds.length ∧
      check rounds = true ∧
      ¬Round.ReachAll s .epoch fourLetters.settings.reservationWindow rounds := by
  obtain ⟨rounds, ws', polling, checked⟩ :=
    exists_polling Occasion.areHandsOff_fourLetters rfl sound checked
  simp only [Bool.and_eq_true, beq_iff_eq, List.all_eq_true, bne_iff_ne] at checked
  obtain ⟨⟨many, never⟩, holds⟩ := checked
  refine ⟨rounds, ws', polling, ?_, holds, Round.not_reachAll waits never⟩
  rw [MemoryStore.waiting, List.length_mergeSort, ceilDiv_one, many]

/-- Two letters, of which the first one fails whenever it is attempted. -/
def twoLetters : MemoryStore := (Keyed.empty.put (letter "a" 1 none)).put (letter "b" 0 none)

/-- Two polls of one record do not reach both of two letters that are due if the first one fails. -/
theorem not_polling_reaches_twoLetters :
    ¬∀ settings registry limit start ws rounds ws',
      Polling settings registry limit start ws rounds ws' → 0 < limit →
        (ws.store.waiting start settings.reservationWindow).length ⌈/⌉ limit ≤ rounds.length →
          Round.ReachAll ws.store start settings.reservationWindow rounds := by
  intro all
  have waits : letter "b" 0 none ∈
      twoLetters.waiting .epoch fourLetters.settings.reservationWindow :=
    MemoryStore.mem_waiting.mpr ⟨by decide +kernel, fun _ held => by cases held⟩
  obtain ⟨rounds, ws', polling, enough, _, unreached⟩ :=
    @exists_unreached twoLetters
      [(.epoch, 0, [.begin, .feed] ++ oneAttempt), (.epoch, 0, [.begin, .feed] ++ oneAttempt)]
      _ (fun _ => true) waits (by decide +kernel) (by decide +kernel)
  exact unreached (all _ _ _ _ _ _ _ polling Nat.one_pos enough)

/-- Two letters that are due, and one before them that somebody has just reserved. -/
def threeThatSucceed : MemoryStore :=
  ((Keyed.empty.put (letter "a" 0 (some .epoch))).put (letter "b" 0 none)).put (letter "c" 0 none)

/-- Nor do two polls reach both if no attempt fails, and a letter before them comes to be due. -/
theorem not_polling_reaches_wornOff :
    ¬∀ settings registry limit start ws rounds ws',
      Polling settings registry limit start ws rounds ws' → 0 < limit →
        (ws.store.waiting start settings.reservationWindow).length ⌈/⌉ limit ≤ rounds.length →
          Round.failures ws.store start settings.reservationWindow rounds = 0 →
            Round.ReachAll ws.store start settings.reservationWindow rounds := by
  intro all
  have waits : letter "c" 0 none ∈
      threeThatSucceed.waiting .epoch fourLetters.settings.reservationWindow :=
    MemoryStore.mem_waiting.mpr ⟨by decide +kernel, fun _ held => by cases held⟩
  obtain ⟨rounds, ws', polling, enough, fails, unreached⟩ :=
    @exists_unreached threeThatSucceed
      [(.epoch, 0, [.begin, .feed] ++ oneAttempt),
        (.ofSecond 300, 0, [.begin, .feed] ++ oneAttempt)]
      _ (fun rounds => Round.failures threeThatSucceed .epoch
        fourLetters.settings.reservationWindow rounds == 0)
      waits (by decide +kernel) (by decide +kernel)
  exact unreached (all _ _ _ _ _ _ _ polling Nat.one_pos enough (beq_iff_eq.mp fails))

end Workshop

end JobQueue
