import JobQueue.Proofs.Pool.Course

/-!
# A pool agrees with one worker

A batch whose handlers leave the store alone and judge a job by what it is, in a pool that nobody
disturbs. However its feeder, its workers and its collection take turns, it returns what one worker
gets that processes its records one after another, and leaves the same store behind, up to readings
of the clock (`Occasion.agreement`).
-/

namespace JobQueue

open Time (Instant Clock)
open Pool (Move Beat Event)

namespace Occasion

def idle (o : Occasion) : Pool MemoryStore :=
  { Pool.start o.settings o.registry with nextBatch := o.number }

def start (o : Occasion) : Workshop MemoryStore :=
  ⟨(o.idle.submit o.ticket o.records).1, o.store⟩

def returned (o : Occasion) (beats : List Beat) : List (Nat × List JobOutcome) :=
  (o.idle.submit o.ticket o.records).2.filterMap Event.returned? ++ beats.flatMap Beat.returned

/-- What keeps the outcome of a batch from depending on who works on which record when, if the
clock shows only certain times. -/
structure IsSteady (o : Occasion) (times : Instant → Prop) : Prop where
  distinct : (o.records.map Record.id).Nodup
  handsOff : Worker.AreHandsOff o.registry.find?
  uniform : ∀ type h, o.registry.find? type = some h → h.IsUniform
  /-- The reservation of each copy is within the window all along, or at no time. -/
  steady : ∀ r ∈ o.records,
    (∀ now, times now → r.isReservedWithin now o.settings.reservationWindow = true) ∨
      ∀ now, times now → r.isReservedWithin now o.settings.reservationWindow = false

theorem IsSteady.same {o : Occasion} {times : Instant → Prop} (steady : o.IsSteady times)
    {r : Record} (member : r ∈ o.records) {now now' : Instant} (h : times now) (h' : times now') :
    r.isReservedWithin now o.settings.reservationWindow =
      r.isReservedWithin now' o.settings.reservationWindow := by
  rcases steady.steady r member with within | without
  · rw [within now h, within now' h']
  · rw [without now h, without now' h']

variable {o : Occasion} {times : Instant → Prop} {fates : Record → Ending} {beats : List Beat}
  {ws : Workshop MemoryStore}

theorem waiting_idle : o.Waiting (fun _ => False) o.idle [] := by
  have free {st : Seat MemoryStore} (member : st ∈ o.idle.seats) : st = .free :=
    List.eq_of_mem_replicate member
  have length_seats : o.idle.seats.length = o.settings.workerCount := List.length_replicate
  have fresh : (Pool.start o.settings o.registry).underway (· == o.number) = 0 :=
    Pool.underway_start _
  have none (ticket : Nat) (c : Collection) (collects : o.idle.collecting? = some (ticket, c)) :
      False := by
    cases collects
  have unfed (g : Feeder) (its : o.idle.feeder? = some g) :
      g.rest = [] ∧ ∃ r, g.load = .report r := by
    cases its
  refine ⟨rfl, rfl, rfl, rfl, ⟨unfed, rfl, fun st member => ?_⟩,
    ⟨rfl, rfl, rfl, ?_, fun gone => ?_⟩, none, fun ticket c its => (none ticket c its).elim, fresh⟩
  · rw [free member]
    rfl
  · intro none
    have count : o.idle.seats.length = 0 := congrArg List.length none
    have some := o.settings.workerCount_pos
    omega
  · cases free (List.mem_of_getElem? gone)

theorem settled_of_ends {outcomes : List JobOutcome}
    (names : outcomes.map JobOutcome.jobId = o.records.map Record.id)
    (ends : ∀ (i : Nat) r out, o.records[i]? = some r → outcomes[i]? = some out →
      SameEnding times (out.outcome, ws.store.find? r.id) (fates r))
    (others : ∀ id, (∀ r ∈ o.records, r.id ≠ id) → ws.store.find? id = o.store.find? id) :
    Worker.Settled times fates o.store o.records (outcomes.map JobOutcome.outcome) ws.store := by
  have length : outcomes.length = o.records.length := by simpa using congrArg List.length names
  constructor
  · refine List.forall₂_iff_get.mpr ⟨by simp [length], fun i hi hi' => ?_⟩
    have inside : i < outcomes.length := by simpa using hi'
    have ending := ends i _ _ (List.getElem?_eq_getElem hi) (List.getElem?_eq_getElem inside)
    simpa using ending.outcome
  · intro r member
    obtain ⟨i, its⟩ := List.getElem?_of_mem member
    have inside : i < outcomes.length := length ▸ (List.getElem?_eq_some_iff.mp its).1
    exact (ends i r _ its (List.getElem?_eq_getElem inside)).stored
  · exact others

/-- A pool agrees with one worker that processes the records one after another. While no caller
moves and no wait runs out, it does not matter who takes which step when: the batch returns once,
for each record what the worker gets for it, in the order of the records, and leaves what the
worker leaves. Until then something can always be done, and nothing can be done for ever. -/
theorem agreement {w : Worker} {desk : Worker.Desk MemoryStore} (steady : o.IsSteady times)
    (window : w.window = o.settings.reservationWindow) (same : desk.store = o.store)
    (shows : Clock.Shows times desk.clock
      (w.processEach o.registry.find? o.records desk).2.clock) :
    (∀ beats ws, Trace Workshop.Step o.start beats ws →
      (∀ b ∈ beats, b.move.isQuiet = true ∧ times b.time) →
        (o.returned beats = [] ∧ ∀ now, ∃ b ws', Workshop.Step ws b ws' ∧
          b.move.isQuiet = true ∧ b.time = now) ∨
        ∃ outcomes, o.returned beats = [(o.ticket, outcomes)] ∧
          outcomes.map JobOutcome.jobId = o.records.map Record.id ∧
          List.Forall₂ (SameOutcome times) (outcomes.map JobOutcome.outcome)
            (w.processEach o.registry.find? o.records desk).1 ∧
          ∀ id, SameStored times (ws.store.find? id)
            ((w.processEach o.registry.find? o.records desk).2.store.find? id)) ∧
    ∀ (states : Nat → Workshop MemoryStore) (beats : Nat → Beat),
      ¬ ∀ i, Workshop.Step (states i) (beats i) (states (i + 1)) ∧
        (beats i).move.isQuiet = true := by
  have ht := shows.now Worker.goes_processEach
  have alone := Worker.settled_processEach steady.distinct steady.handsOff steady.uniform ht
    (fun r member now h => window ▸ steady.same member h ht) shows
  rw [same] at alone
  refine ⟨fun beats ws trace quiet => ?_, Workshop.not_forever⟩
  have promises : o.Promises times times desk.clock.now fun r e =>
      SameEnding times e (w.fateOf o.registry.find? desk.clock.now o.store r) := by
    refine ⟨steady.distinct, steady.handsOff, ht, ?_, ?_⟩
    · intro r e e' retimed same
      exact retimed.sameEnding.trans same
    · intro r member worker now hn own
      exact Worker.fate_begin hn ht (own.trans window.symm) (own ▸ steady.same member hn ht)
        steady.uniform
  have suits (b : Beat) (member : b ∈ beats) : b.Suits times times :=
    ⟨(quiet b member).1, (quiet b member).2, fun _ _ => (quiet b member).2⟩
  obtain ⟨before, none, ends⟩ := waiting_idle.ends promises trace suits
  obtain rfl : before = [] := List.eq_nil_iff_forall_not_mem.mpr none
  refine ends.imp_right ?_
  rintro ⟨outcomes, said, names, ends, others⟩
  obtain ⟨alike, stored⟩ := (settled_of_ends names ends others).agree alone
  exact ⟨outcomes, List.perm_singleton.mp said, names, alike, stored⟩

def letter (id : String) (attempts : UInt32) (reservedAt : Option Instant) : Record :=
  ⟨id, queueCollection, "\x7b\"type\":\"mail\"\x7d", attempts, reservedAt, .epoch, .epoch⟩

def mailer : Handler MemoryStore :=
  ⟨fun _ job => [.stop (if job.attempts = 0 then .succeeded else .failed "no")]⟩

/-- Four letters: one that succeeds, one that somebody has just reserved, one whose copy is stale,
and one that fails. -/
def fourLetters : Occasion where
  settings := ⟨2, 300, 30, 300⟩
  registry := ⟨[("mail", mailer)], by decide⟩
  number := 0
  ticket := 0
  records :=
    [letter "a" 0 none, letter "b" 0 (some .epoch), letter "c" 0 (some .earliest),
      letter "d" 1 none]
  store :=
    ((Keyed.empty.put (letter "a" 0 none)).put (letter "c" 0 none)).put (letter "d" 1 none)

/-- What a clock shows that starts at second 0 and is read a few times. -/
def fewTimes : List Instant := (List.range 16).map fun n => Clock.now ⟨.epoch, n⟩

theorem eq_mailer {type : String} {h : Handler MemoryStore}
    (known : fourLetters.registry.find? type = some h) : h = mailer := by
  obtain ⟨⟨_, _⟩, found, rfl⟩ := Option.map_eq_some_iff.mp known
  exact congrArg Prod.snd (List.mem_singleton.mp (List.mem_of_find?_eq_some found))

theorem areHandsOff_fourLetters : Worker.AreHandsOff fourLetters.registry.find? := by
  intro type h known context job use listed
  obtain rfl := eq_mailer known
  cases List.mem_singleton.mp listed

theorem isSteady_fourLetters : fourLetters.IsSteady (· ∈ fewTimes) where
  distinct := by decide
  handsOff := areHandsOff_fourLetters
  uniform := by
    intro type h known a b _ _ _ _ attempts
    obtain rfl := eq_mailer known
    simp only [mailer, verdictOf, attempts]
  steady := by decide +kernel

def fourLettersMoves : List Move :=
  [.begin, .feed, .feed, .take 1, .take 0, .feed, .work 1, .handOver 0, .act 1, .take 0, .work 0,
    .collect, .feed, .work 1, .work 0, .handOver 0, .take 0, .work 0, .handOver 1, .act 0,
    .collect, .work 0, .collect, .handOver 0, .collect]

/-- Two workers agree with one on the four letters. -/
theorem agreement_fourLetters : ∃ beats ws outcomes,
    Trace Workshop.Step fourLetters.start beats ws ∧
      (∀ b ∈ beats, b.move.isQuiet = true ∧ b.time ∈ fewTimes) ∧
      fourLetters.returned beats = [(0, outcomes)] ∧
      List.Forall₂ (SameOutcome (· ∈ fewTimes)) (outcomes.map JobOutcome.outcome)
        ((⟨7, defaultWindow⟩ : Worker).processEach fourLetters.registry.find? fourLetters.records
          (.ofStore fourLetters.store (.startingAt .epoch))).1 := by
  have checked : (Trace.play? Workshop.cue? fourLetters.start
      (fourLettersMoves.map (Instant.epoch, ·))).any fun played =>
        played.1.all (fun b => b.move.isQuiet && decide (b.time ∈ fewTimes)) &&
          !(fourLetters.returned played.1).isEmpty := by
    decide +kernel
  obtain ⟨beats, ws, trace, checked⟩ := Trace.exists_of_play? Workshop.step_of_cue? checked
  simp only [Bool.and_eq_true, List.all_eq_true, decide_eq_true_eq, Bool.not_eq_true',
    List.isEmpty_eq_false_iff] at checked
  obtain ⟨quiet, returns⟩ := checked
  have window : (⟨7, defaultWindow⟩ : Worker).window = fourLetters.settings.reservationWindow := rfl
  have same : (Worker.Desk.ofStore fourLetters.store (.startingAt .epoch)).store =
      fourLetters.store := rfl
  have few : ((⟨7, defaultWindow⟩ : Worker).processEach fourLetters.registry.find?
      fourLetters.records (.ofStore fourLetters.store (.startingAt .epoch))).2.clock.readings <
        16 := by
    decide +kernel
  have agrees := agreement isSteady_fourLetters window same fun n _ early =>
    List.mem_map_of_mem (List.mem_range.mpr (Nat.lt_of_le_of_lt early few))
  obtain ⟨outcomes, said, _, alike, _⟩ :=
    (agrees.1 beats ws trace quiet).resolve_left fun waits => returns waits.1
  exact ⟨beats, ws, outcomes, trace, quiet, said, alike⟩

end Occasion

end JobQueue
