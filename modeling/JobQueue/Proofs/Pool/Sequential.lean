import JobQueue.Proofs.Pool.Fate

/-!
# One record after another

One worker that processes the records of a batch one after another, with nobody else about. It
leaves each of them to its fate, and touches no other record (`Worker.settled_processEach`).
-/

namespace JobQueue

open Time (Instant Clock)

namespace Time.Clock

/-- Whether all that a clock shows is among some times, up to a later state of it. -/
def Shows (times : Instant → Prop) (first last : Clock) : Prop :=
  ∀ n, first.readings ≤ n → n ≤ last.readings → times (Clock.now ⟨first.start, n⟩)

structure Goes (first last : Clock) : Prop where
  start : last.start = first.start
  readings : first.readings ≤ last.readings

variable {times : Instant → Prop} {a b c : Clock}

theorem Goes.refl (c : Clock) : c.Goes c := ⟨rfl, Nat.le_refl _⟩

theorem Goes.next (c : Clock) : c.Goes c.next := ⟨rfl, Nat.le_succ _⟩

theorem Goes.trans (first : a.Goes b) (second : b.Goes c) : a.Goes c :=
  ⟨second.start.trans first.start, Nat.le_trans first.readings second.readings⟩

theorem Shows.now (shows : Shows times a c) (goes : a.Goes c) : times a.now :=
  shows a.readings (Nat.le_refl _) goes.readings

theorem Shows.first (shows : Shows times a c) (goes : b.Goes c) : Shows times a b :=
  fun n later earlier => shows n later (Nat.le_trans earlier goes.readings)

theorem Shows.last (shows : Shows times a c) (goes : a.Goes b) : Shows times b c :=
  fun n later earlier => goes.start ▸ shows n (Nat.le_trans goes.readings later) earlier

end Time.Clock

namespace Worker

variable {σ : Type} {w : Worker} {handler? : String → Option (Handler σ)}
  {stage : Stage (Handler σ)} {record : Record} {records : List Record}

def processEach [RecordStore σ] (w : Worker) (handler? : String → Option (Handler σ)) :
    List Record → Desk σ → List Outcome × Desk σ
  | [], desk => ([], desk)
  | record :: rest, desk =>
    let first := w.process handler? record desk
    let others := processEach w handler? rest first.2
    (first.1 :: others.1, others.2)

-- ---------------------------------------------------------------------------
-- Clocks go on
-- ---------------------------------------------------------------------------

section
variable {desk : Desk σ}

theorem goes_carryOut {plan : List (Action σ)} : desk.clock.Goes (carryOut desk plan).2.clock := by
  induction plan generalizing desk with
  | nil => exact .refl _
  | cons action rest ih =>
    cases action with
    | stop verdict => exact .next _
    | _ =>
      refine .trans ?_ ih
      exact .next _

theorem verdict_carryOut {plan : List (Action σ)} : (carryOut desk plan).1 = verdictOf plan := by
  induction plan generalizing desk with
  | nil => rfl
  | cons action rest ih =>
    cases action with
    | stop verdict => rfl
    | _ => exact ih

variable [RecordStore σ]

theorem goes_ask : desk.clock.Goes (w.ask handler? stage desk).2.clock := .next _

theorem goes_runFrom : desk.clock.Goes (w.runFrom handler? stage desk).2.clock := by
  induction stage, desk using runFrom.induct w handler? with
  | case3 desk record context job handler next ih =>
    rw [runFrom]
    exact goes_carryOut.trans ih
  | case6 desk outcome =>
    rw [runFrom]
    exact .refl _
  | _ =>
    rename_i ih
    rw [runFrom]
    exact goes_ask.trans ih

theorem goes_process : desk.clock.Goes (w.process handler? record desk).2.clock := by
  refine .trans ?_ goes_runFrom
  exact .next _

theorem goes_processEach : desk.clock.Goes (w.processEach handler? records desk).2.clock := by
  induction records generalizing desk with
  | nil => exact .refl _
  | cons record rest ih => exact goes_process.trans ih

end

-- ---------------------------------------------------------------------------
-- Each record comes to its fate
-- ---------------------------------------------------------------------------

section
variable {handler? : String → Option (Handler MemoryStore)} {stage : Stage (Handler MemoryStore)}
  {desk : Desk MemoryStore} {times : Instant → Prop} {t now : Instant} {id : String}
  {s : MemoryStore} {last : Outcome × MemoryStore}

structure ComesTo (w : Worker) (handler? : String → Option (Handler MemoryStore))
    (times : Instant → Prop) (t : Instant) (id : String) (stage : Stage (Handler MemoryStore))
    (s : MemoryStore) (last : Outcome × MemoryStore) : Prop where
  fate : SameEnding times (last.1, last.2.find? id) (stage.fate w handler? t (s.find? id))
  others : ∀ other ≠ id, last.2.find? other = s.find? other

theorem ComesTo.of_call (on : stage.IsOn id) (asks : stage.asksStore = true) (h : times now)
    (ht : times t) (rest : (w.call handler? now stage s).1.1.IsOn id →
      ComesTo w handler? times t id (w.call handler? now stage s).1.1
        (w.call handler? now stage s).2 last) :
    ComesTo w handler? times t id stage s last := by
  obtain ⟨on', fate, others⟩ := fate_call on asks h ht
  have rest := rest on'
  exact ⟨rest.fate.trans fate.sameEnding, fun other differ =>
    (rest.others other differ).trans (others other differ)⟩

theorem comesTo_runFrom (on : stage.IsOn id) (hands : stage.IsHandsOff)
    (h : AreHandsOff handler?) (ht : times t)
    (shows : Clock.Shows times desk.clock (w.runFrom handler? stage desk).2.clock) :
    ComesTo w handler? times t id stage desk.store
      ((w.runFrom handler? stage desk).1, (w.runFrom handler? stage desk).2.store) := by
  induction stage, desk using runFrom.induct w handler? with
  | case3 desk record context job handler next ih =>
    rw [runFrom] at shows ⊢
    have verdict : (carryOut desk (handler.plan context job)).1 =
        verdictOf (handler.plan context job) := verdict_carryOut
    have kept : next.2.store = desk.store := store_carryOut hands
    have on' : next.1.IsOn id := by
      obtain rfl : record.id = id := on
      exact isOn_onVerdict
    have rest := ih on' isHandsOff_onVerdict (shows.last goes_carryOut)
    have fate : next.1.fate w handler? t (desk.store.find? id) =
        (Stage.handling record context job handler).fate w handler? t (desk.store.find? id) := by
      rw [← fate_onVerdict, ← verdict]
      rfl
    rw [kept] at rest
    exact ⟨fate ▸ rest.fate, rest.others⟩
  | case6 desk outcome =>
    rw [runFrom]
    exact ⟨.refl _, fun _ _ => rfl⟩
  | _ =>
    rename_i ih
    rw [runFrom] at shows ⊢
    refine .of_call on rfl (shows.now (goes_ask.trans goes_runFrom)) ht fun on' => ?_
    exact ih on' ((called _ _ _ _ rfl).isHandsOff h) (shows.last goes_ask)

def fateOf (w : Worker) (handler? : String → Option (Handler MemoryStore)) (t : Instant)
    (s : MemoryStore) (record : Record) : Ending :=
  (w.begin t record).1.fate w handler? t (s.find? record.id)

theorem comesTo_process (h : AreHandsOff handler?) (ht : times t)
    (shows : Clock.Shows times desk.clock (w.process handler? record desk).2.clock) :
    ComesTo w handler? times t record.id (w.begin desk.clock.now record).1 desk.store
      ((w.process handler? record desk).1, (w.process handler? record desk).2.store) := by
  let ready : Desk MemoryStore :=
    { desk.see (w.begin desk.clock.now record : Progress (Handler MemoryStore)).2 with
      clock := desk.clock.next }
  have rest : Clock.Shows times ready.clock (w.runFrom handler? (w.begin desk.clock.now record).1
      ready).2.clock := shows.last (.next _)
  exact comesTo_runFrom (begun ..).isOn (begun ..).isHandsOff h ht rest

structure Settled (times : Instant → Prop) (fates : Record → Ending) (before : MemoryStore)
    (records : List Record) (outcomes : List Outcome) (after : MemoryStore) : Prop where
  outcomes : List.Forall₂ (fun r o => SameOutcome times o (fates r).1) records outcomes
  stored : ∀ r ∈ records, SameStored times (after.find? r.id) (fates r).2
  others : ∀ id, (∀ r ∈ records, r.id ≠ id) → after.find? id = before.find? id

/-- What settles a batch is the same for all who settle it, up to readings of the clock. -/
theorem Settled.agree {fates : Record → Ending} {before after after' : MemoryStore}
    {outcomes outcomes' : List Outcome}
    (one : Settled times fates before records outcomes after)
    (other : Settled times fates before records outcomes' after') :
    List.Forall₂ (SameOutcome times) outcomes outcomes' ∧
      ∀ id, SameStored times (after.find? id) (after'.find? id) := by
  constructor
  · have first := one.outcomes
    have second := other.outcomes
    clear one other
    induction first generalizing outcomes' with
    | nil =>
      cases second
      exact .nil
    | cons same _ ih =>
      cases second with
      | cons same' rest => exact .cons (same.trans same'.symm) (ih rest)
  · intro id
    by_cases its : ∃ r ∈ records, r.id = id
    · obtain ⟨r, member, rfl⟩ := its
      exact (one.stored r member).trans (other.stored r member).symm
    · have outside (r : Record) (member : r ∈ records) : r.id ≠ id := fun same =>
        its ⟨r, member, same⟩
      rw [one.others id outside, other.others id outside]
      exact .refl _

/-- A worker alone leaves each record to the fate that it had in the beginning. -/
theorem settled_processEach (distinct : (records.map Record.id).Nodup) (h : AreHandsOff handler?)
    (uniform : ∀ type h, handler? type = some h → h.IsUniform) (ht : times t)
    (steady : ∀ r ∈ records, ∀ now, times now →
      r.isReservedWithin now w.window = r.isReservedWithin t w.window)
    (shows : Clock.Shows times desk.clock (w.processEach handler? records desk).2.clock) :
    Settled times (w.fateOf handler? t desk.store) desk.store records
      (w.processEach handler? records desk).1 (w.processEach handler? records desk).2.store := by
  induction records generalizing desk with
  | nil => exact ⟨.nil, fun _ member => absurd member List.not_mem_nil, fun _ _ => rfl⟩
  | cons record rest ih =>
    let first := w.process handler? record desk
    obtain ⟨alone, distinct⟩ := List.nodup_cons.mp distinct
    have apart (r : Record) (member : r ∈ rest) : r.id ≠ record.id :=
      fun same => alone (same ▸ List.mem_map_of_mem member)
    have now := shows.now (goes_process.trans goes_processEach)
    have came : ComesTo w handler? times t record.id (w.begin desk.clock.now record).1 desk.store
        (first.1, first.2.store) := comesTo_process h ht (shows.first goes_processEach)
    have fate := came.fate.trans
      (fate_begin now ht rfl (steady record List.mem_cons_self _ now) uniform)
    have last := ih distinct (fun r member => steady r (List.mem_cons_of_mem _ member))
      (shows.last goes_process)
    -- the first record leaves the fates of the others as they were
    have same (r : Record) (member : r ∈ rest) :
        w.fateOf handler? t first.2.store r = w.fateOf handler? t desk.store r :=
      congrArg _ (came.others r.id (apart r member))
    refine ⟨.cons fate.outcome ?_, ?_, ?_⟩
    · refine ((List.forall₂_and_left _ _).mpr ⟨same, last.outcomes⟩).imp fun r o both => ?_
      exact both.1 ▸ both.2
    · intro r member
      rcases List.mem_cons.mp member with rfl | member
      · rw [processEach, last.others r.id apart]
        exact fate.stored
      · exact same r member ▸ last.stored r member
    · intro id differ
      have outside := List.forall_mem_cons.mp differ
      rw [processEach, last.others id outside.2]
      exact came.others id (Ne.symm outside.1)

end

end Worker

end JobQueue
