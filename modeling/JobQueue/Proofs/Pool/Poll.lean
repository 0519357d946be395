import JobQueue.Proofs.Pool.Agreement
import JobQueue.Proofs.Shift.Ledger
import JobQueue.Proofs.Store.Due

/-!
# One poll

A caller asks the store for due records and submits them to a pool in which no job is queued or
running. Each of them is done and gone, or not valid and left alone, or has one more failure counted
and is free; no claim is lost (`Workshop.poll_settles`).
-/

namespace JobQueue

open Time (Instant)
open Pool (Beat Event)

inductive Record.Polled (r : Record) : Ending → Prop
  | done : Polled r (.ok (), none)
  | refused {e : ValidationError} (bad : validate (some r) = .error e) :
      Polled r (.error (.validation e), some r)
  | failed {cause : JobError} {after : Record} (retry : cause.isRetryable = true)
      (counted : after.attempts.toNat = min (r.attempts.toNat + 1) (UInt32.size - 1))
      (free : after.reservedAt = none) (work : after.SameWork r) :
      Polled r (.error cause, some after)

theorem isTimeless_polled {times : Instant → Prop} : IsTimeless times Record.Polled := by
  intro r e e' retimed polled
  cases retimed with
  | refl => exact polled
  | failed base retry =>
    cases polled with
    | refused => cases retry
    | failed _ counted free work =>
      exact .failed retry counted free ⟨work.id, work.collection, work.payload, work.createdAt⟩

theorem Verdict.isRetryable_of_cause? {verdict : Verdict} {cause : JobError}
    (counts : verdict.cause? = some cause) : cause.isRetryable = true := by
  cases verdict <;> cases counts <;> rfl

namespace Worker

variable {σ : Type} {w worker : Worker} {handler? : String → Option (Handler σ)} {t now : Instant}
  {stage : Stage (Handler σ)} {r : Record} {id : String} {cause : JobError}

theorem Stage.isRetryable_of_cause? (on : stage.IsOn id) (counts : stage.cause? = some cause) :
    cause.isRetryable = true := by
  cases stage with
  | handling => exact Verdict.isRetryable_of_cause? counts
  | failing record cause' =>
    obtain rfl := Option.some.inj counts
    exact on.2
  | _ => cases counts

theorem polled_claiming (valid : Record.validate (some r) = .ok r) :
    r.Polled ((Stage.claiming r now).fate w handler? t (some r)) := by
  simp only [Stage.fate, if_true]
  cases counts : (w.dispatch handler? (r.reserve now)).1.cause? with
  | none => exact .done
  | some cause =>
    have on := (dispatched w handler? (r.reserve now)).isOn (Record.validate_reserve now valid)
    have retry := Stage.isRetryable_of_cause? on counts
    exact .failed retry (toNat_countAttempt r.attempts) rfl ⟨rfl, rfl, rfl, rfl⟩

theorem polled_begin (free : r.isReservedWithin now worker.window = false) :
    r.Polled ((worker.begin now r).1.fate w handler? t (some r)) := by
  have begun : Begun worker now r (worker.begin now r : Progress (Handler σ)) := begun ..
  generalize (worker.begin now r : Progress (Handler σ)) = next at begun ⊢
  cases begun with
  | invalid refused => exact .refused refused
  | held _ _ within => cases free.symm.trans within
  | claiming valid => exact polled_claiming valid

end Worker

theorem Record.IsFree.later {r : Record} {now later : Instant} {window : Time.Span}
    (free : r.IsFree now window) (order : now ≤ later) (plain : now.isLeapSecond = false)
    (plain' : later.isLeapSecond = false)
    (regular : ∀ since, r.reservedAt = some since → since.isLeapSecond = false) :
    r.isReservedWithin later window = false := by
  refine isReservedWithin_eq_false_iff.mpr fun since held => ?_
  have waited := free since held
  have passed := Instant.since_nonneg order plain plain'
  have sum := Instant.since_add plain' plain (regular since held)
  omega

/-- Each due record would come to an end of a poll, whenever a worker takes it up. -/
theorem MemoryStore.IsDue.promises {o : Occasion} {polled : Instant} {limit : Nat}
    (listed : o.store.IsDue polled o.settings.reservationWindow limit o.records)
    (hands : Worker.AreHandsOff o.registry.find?) (plain : polled.isLeapSecond = false)
    (regular : ∀ id r since, o.store.find? id = some r → r.reservedAt = some since →
      since.isLeapSecond = false) :
    o.Promises (fun _ => True) (fun now => now.isLeapSecond = false ∧ polled ≤ now) polled
      Record.Polled := by
  refine ⟨listed.distinct, hands, trivial, isTimeless_polled, ?_⟩
  intro r member worker now checked same
  have there : o.store.find? r.id = some r := listed.stored r member
  have free : r.isReservedWithin now worker.window = false := by
    rw [same]
    exact (listed.free r member).later checked.2 plain checked.1
      fun since => regular r.id r since there
  rw [there]
  exact Worker.polled_begin free

-- ---------------------------------------------------------------------------
-- The pool before
-- ---------------------------------------------------------------------------

/-- Whether no job is queued or running. The batch whose turn it is may still collect reports. -/
structure Pool.IsJobless {σ : Type} (p : Pool σ) : Prop where
  line : p.line = []
  fed : ∀ g, p.feeder? = some g → g.rest = [] ∧ ∃ r, g.load = .report r
  queue : p.queue = []
  rests : ∀ st ∈ p.seats, st.isBusy = false

/-- A batch that is submitted to such a pool waits for no more than what is reported. -/
theorem Pool.IsJobless.waiting {p : Pool MemoryStore} {settings : Settings}
    {registry : Registry (Handler MemoryStore)} {beats : List Beat}
    (jobless : p.IsJobless) (before : Trace Pool.Step (Pool.start settings registry) beats p)
    (serves : p.accepting = true) {ticket : Nat} (new : ∀ t, p.turn = some t → t.ticket ≠ ticket)
    (records : List Record) (store : MemoryStore) :
    (⟨settings, registry, p.nextBatch, ticket, records, store⟩ : Occasion).Waiting (· ≠ ticket) p
      [] := by
  obtain ⟨ds, watched⟩ := Watched.exists_trace [] before
  obtain ⟨rules, registered⟩ := Watched.rules_of_trace watched
  have serving := (Watched.isOrderly_of_trace watched).isServing serves
  have owed := Watched.isOwed_of_trace watched serves
  refine ⟨rules, registered, rfl, jobless.line, ⟨jobless.fed, jobless.queue, jobless.rests⟩,
    ⟨serving.accepting, serving.stopping, serving.closing, serving.inhabited, serving.stays⟩,
    fun other c collects => ?_, fun other c collects => ?_,
    isFresh_of_trace before _ (Nat.le_refl _)⟩
  · obtain ⟨t, its, same⟩ := Option.map_eq_some_iff.mp collects
    obtain ⟨rfl, _⟩ := Prod.mk.inj same
    exact new t its
  · obtain ⟨kept, waits, backed⟩ := owed other c collects
    exact ⟨kept, waits, backed⟩

-- ---------------------------------------------------------------------------
-- The poll
-- ---------------------------------------------------------------------------

/-- Whether a move is none of a caller and no end of a wait, and the clock has not gone back since a
poll if it has a worker take a record. -/
def Pool.Beat.Follows (b : Beat) (polled : Instant) : Prop :=
  b.move.isQuiet = true ∧
    ∀ seat, b.move = .take seat → b.time.isLeapSecond = false ∧ polled ≤ b.time

namespace Workshop

def poll {σ : Type} [RecordStore σ] (ws : Workshop σ) (now : Instant) (limit ticket : Nat) :
    Except StoreError (Workshop σ × List Event) :=
  match RecordStore.answer now (.listDue now ws.pool.settings.reservationWindow limit) ws.store with
  | (.error e, _) => .error e
  | (.ok due, store) =>
    let (pool, events) := ws.pool.submit ticket due
    .ok (⟨pool, store⟩, events)

def returnedTo (ticket : Nat) (events : List Event) (beats : List Beat) : List (List JobOutcome) :=
  ((events.filterMap Event.returned? ++ beats.flatMap Beat.returned).filter (·.1 == ticket)).map
    Prod.snd

variable {settings : Settings} {registry : Registry (Handler MemoryStore)} {p : Pool MemoryStore}
  {earlier : List Beat} {store : MemoryStore} {polled : Instant} {limit ticket : Nat}

theorem poll_eq (same : p.settings = settings) :
    Workshop.poll ⟨p, store⟩ polled limit ticket =
      .ok (⟨(p.submit ticket (store.due polled settings.reservationWindow limit)).1, store⟩,
        (p.submit ticket (store.due polled settings.reservationWindow limit)).2) := by
  simp only [Workshop.poll, RecordStore.answer, same]

/-- One poll of a pool in which no job is queued or running. It returns once, with an outcome for
each of the first due records: the job is done, and the record is gone; or the record is not valid,
and stays as it was; or the attempt failed, which is counted, and the record is free. All others
stay as they were. Until then something can always be done, and nothing can be done for ever. -/
theorem poll_settles (before : Trace Pool.Step (Pool.start settings registry) earlier p)
    (jobless : p.IsJobless) (new : ∀ t, p.turn = some t → t.ticket ≠ ticket)
    (serves : p.accepting = true) (hands : Worker.AreHandsOff registry.find?)
    (plain : polled.isLeapSecond = false)
    (regular : ∀ id r since, store.find? id = some r → r.reservedAt = some since →
      since.isLeapSecond = false) :
    ∃ due ws events, Workshop.poll ⟨p, store⟩ polled limit ticket = .ok (ws, events) ∧
      store.IsDue polled settings.reservationWindow limit due ∧
      (∀ beats ws', Trace Workshop.Step ws beats ws' → (∀ b ∈ beats, b.Follows polled) →
        (returnedTo ticket events beats = [] ∧
          ∀ now, ∃ b ws'', Workshop.Step ws' b ws'' ∧ b.move.isQuiet = true ∧ b.time = now) ∨
        ∃ outcomes, returnedTo ticket events beats = [outcomes] ∧
          outcomes.map JobOutcome.jobId = due.map Record.id ∧
          (∀ (i : Nat) r out, due[i]? = some r → outcomes[i]? = some out →
            r.Polled (out.outcome, ws'.store.find? r.id)) ∧
          ∀ id, (∀ r ∈ due, r.id ≠ id) → ws'.store.find? id = store.find? id) ∧
      ∀ (states : Nat → Workshop MemoryStore) (beats : Nat → Beat),
        ¬ ∀ i, Workshop.Step (states i) (beats i) (states (i + 1)) ∧
          (beats i).move.isQuiet = true := by
  let window := settings.reservationWindow
  let due := store.due polled window limit
  let o : Occasion := ⟨settings, registry, p.nextBatch, ticket, due, store⟩
  have waits : o.Waiting (· ≠ ticket) p [] := jobless.waiting before serves new due store
  have listed : store.IsDue polled window limit due := MemoryStore.isDue
  have asked : Workshop.poll ⟨p, store⟩ polled limit ticket =
      .ok (o.submitted p, (p.submit ticket due).2) := poll_eq waits.settings
  have promises : o.Promises (fun _ => True)
      (fun now => now.isLeapSecond = false ∧ polled ≤ now) polled Record.Polled :=
    listed.promises hands plain regular
  refine ⟨due, o.submitted p, (p.submit ticket due).2, asked, listed,
    fun beats ws' run follows => ?_, Workshop.not_forever⟩
  obtain ⟨others, differ, ends⟩ := waits.ends promises run fun b member =>
    ⟨(follows b member).1, trivial, (follows b member).2⟩
  have none : others.filter (·.1 == ticket) = [] :=
    List.filter_eq_nil_iff.mpr fun call member => by simpa using differ call member
  have mine : returnedTo ticket (p.submit ticket due).2 beats =
      ((o.returnedBy p beats).filter (·.1 == ticket)).map Prod.snd := rfl
  rw [mine]
  rcases ends with ⟨waits, goesOn⟩ | ⟨outcomes, said, ends⟩
  · exact .inl ⟨by rw [waits, none, List.map_nil], goesOn⟩
  · have alone := (said.filter (·.1 == ticket)).map Prod.snd
    have own : (o.ticket == ticket) = true := beq_self_eq_true _
    simp only [List.filter_cons, own, if_true, none] at alone
    exact .inr ⟨outcomes, List.perm_singleton.mp alone, ends⟩

open Occasion (letter fourLetters)

/-- Five letters: one that succeeds, one that somebody has just reserved, one whose reservation is
stale and that fails, one that is not for the queue, and one more. -/
def fiveLetters : MemoryStore :=
  ((((Keyed.empty.put (letter "a" 0 none)).put (letter "b" 0 (some .epoch))).put
    (letter "c" 1 (some .earliest))).put { letter "d" 0 none with collection := "desk" }).put
      (letter "e" 0 none)

def threeLetters : List Record :=
  [letter "a" 0 none, letter "c" 1 (some .earliest),
    { letter "d" 0 none with collection := "desk" }]

theorem due_fiveLetters : fiveLetters.due .epoch fourLetters.settings.reservationWindow 3 =
    threeLetters := by
  have sorted : (fiveLetters.items.filter fun r =>
      !r.isReservedWithin .epoch fourLetters.settings.reservationWindow).Pairwise
        fun a b => a.servedBefore b = true := by
    decide +kernel
  rw [MemoryStore.due, List.mergeSort_of_pairwise sorted]
  decide +kernel

/-- An earlier batch is still to be told that its only record is not valid. -/
def oneRefused : List Pool.Move := [.submit 3 [Pool.strayRecord "x"], .begin, .feed, .take 0]

def threeLettersMoves : List Pool.Move :=
  [.handOver 0, .collect, .begin, .feed, .feed, .take 1, .take 0, .feed, .work 1, .work 0, .act 0,
    .act 1, .work 0, .handOver 0, .collect, .take 0, .handOver 0, .work 1, .collect, .handOver 1,
    .collect]

/-- Two workers settle a poll of three of the five letters, after an earlier batch has returned. -/
theorem poll_settles_fiveLetters : ∃ earlier p due ws events beats ws' outcomes,
    Trace Pool.Step (Pool.start fourLetters.settings fourLetters.registry) earlier p ∧
    p.turn.isSome = true ∧ p.IsJobless ∧
    Workshop.poll ⟨p, fiveLetters⟩ .epoch 3 7 = .ok (ws, events) ∧
    Trace Workshop.Step ws beats ws' ∧ (∀ b ∈ beats, b.Follows .epoch) ∧
    fiveLetters.IsDue .epoch fourLetters.settings.reservationWindow 3 due ∧
    returnedTo 7 events beats = [outcomes] ∧
    outcomes.map JobOutcome.jobId = due.map Record.id ∧
    ∀ (i : Nat) r out, due[i]? = some r → outcomes[i]? = some out →
      r.Polled (out.outcome, ws'.store.find? r.id) := by
  have checked : (Trace.play? Pool.cue? (Pool.start fourLetters.settings fourLetters.registry)
      (Pool.movesAtOnce oneRefused)).any fun before =>
        decide (before.2.settings = fourLetters.settings) && before.2.accepting &&
          before.2.turn.any (·.ticket != 7) && before.2.line.isEmpty && before.2.feeder?.isNone &&
          before.2.queue.isEmpty && before.2.seats.all (!·.isBusy) &&
          (Trace.play? Workshop.cue? ⟨(before.2.submit 7 threeLetters).1, fiveLetters⟩
            (threeLettersMoves.map (Instant.epoch, ·))).any fun played =>
              played.1.all (fun b => b.move.isQuiet && decide (b.time = .epoch)) &&
                !(returnedTo 7 (before.2.submit 7 threeLetters).2 played.1).isEmpty := by
    decide +kernel
  obtain ⟨earlier, p, before, checked⟩ := Trace.exists_of_play? Pool.step_of_cue? checked
  simp only [Bool.and_eq_true, decide_eq_true_eq, List.isEmpty_iff, Option.isNone_iff_eq_none,
    List.all_eq_true, Bool.not_eq_true'] at checked
  obtain ⟨⟨⟨⟨⟨⟨⟨settings, serves⟩, turn⟩, line⟩, unfed⟩, queue⟩, rests⟩, checked⟩ := checked
  have jobless : p.IsJobless := ⟨line, fun _ its => by simp [unfed] at its, queue, rests⟩
  obtain ⟨t, its, differs⟩ := (Option.any_eq_true _ _).mp turn
  have new (t' : Turn) (its' : p.turn = some t') : t'.ticket ≠ 7 := by
    obtain rfl := Option.some.inj (its.symm.trans its')
    simpa using differs
  have regular (id : String) (r : Record) (since : Instant)
      (there : fiveLetters.find? id = some r) (held : r.reservedAt = some since) :
      since.isLeapSecond = false := by
    have all : ∀ r ∈ fiveLetters.items, (r.reservedAt.all fun since => !since.isLeapSecond) := by
      decide +kernel
    simpa [held] using all r (Keyed.mem_of_find? there)
  obtain ⟨due, ws, events, asked, listed, runs, _⟩ :=
    @poll_settles _ _ p earlier fiveLetters .epoch 3 7 before jobless new serves
      Occasion.areHandsOff_fourLetters rfl regular
  have asked' : Workshop.poll ⟨p, fiveLetters⟩ .epoch 3 7 =
      .ok (⟨(p.submit 7 threeLetters).1, fiveLetters⟩, (p.submit 7 threeLetters).2) := by
    rw [poll_eq settings, due_fiveLetters]
  obtain ⟨rfl, rfl⟩ := Prod.mk.inj (Except.ok.inj (asked.symm.trans asked'))
  obtain ⟨beats, ws', run, checked⟩ := Trace.exists_of_play? Workshop.step_of_cue? checked
  simp only [Bool.and_eq_true, List.all_eq_true, decide_eq_true_eq, Bool.not_eq_true',
    List.isEmpty_eq_false_iff] at checked
  obtain ⟨quiet, returns⟩ := checked
  have follows (b : Beat) (member : b ∈ beats) : b.Follows .epoch := by
    refine ⟨(quiet b member).1, fun _ _ => ?_⟩
    rw [(quiet b member).2]
    decide
  obtain ⟨outcomes, said, names, polled, _⟩ := (runs beats ws' run follows).resolve_left
    fun waits => returns waits.1
  exact ⟨earlier, p, due, _, _, beats, ws', outcomes, before, Option.isSome_iff_exists.mpr ⟨t, its⟩,
    jobless, asked, run, follows, listed, said, names, polled⟩

end Workshop

end JobQueue
