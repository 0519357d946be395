import JobQueue.Proofs.Shift.Memory
import JobQueue.Proofs.Shift.Play

/-!
# The ledger of a shift

What the outcomes of a shift's runs say about the store in memory. `ledger`: a record goes with
the one run that succeeded on it; as long as it stays, it has counted the failures that are to be
tried again, it is free once all who claimed it are done, and nothing else about it has changed.

The invariant is `Ledger`, carried for one record at a time.
-/

namespace JobQueue

structure Record.SameWork (after before : Record) : Prop where
  id : after.id = before.id
  collection : after.collection = before.collection
  payload : after.payload = before.payload
  createdAt : after.createdAt = before.createdAt

theorem Record.SameWork.refl (r : Record) : r.SameWork r := ⟨rfl, rfl, rfl, rfl⟩

namespace Shift

open Worker (Run)

variable {η : Type} {sh sh' : Shift MemoryStore η} {d : Deed} {deeds : List Deed} {id : String}
  {before : Option Record}

def Claimed (deeds : List Deed) (id : String) : Prop :=
  ∃ d ∈ deeds, ∃ time, d.act.claimed? = some (id, time)

/-- How a record stands, by what was stored of it before and what its runs have done since. -/
inductive Ledger (id : String) (before : Option Record) (deeds : List Deed)
    (sh : Shift MemoryStore η) : Prop
  | absent (start : before = none) (gone : sh.store.find? id = none)
      (fails : (sh.runsOn id).countP Run.succeeded = 0)
  | deleted {b : Record} (start : before = some b) (gone : sh.store.find? id = none)
      (once : (sh.runsOn id).countP Run.succeeded = 1)
  | kept {b a : Record} (start : before = some b) (there : sh.store.find? id = some a)
      (fails : (sh.runsOn id).countP Run.succeeded = 0)
      (attempts : a.attempts.toNat =
        min (b.attempts.toNat + (sh.runsOn id).countP Run.isRetryable) (UInt32.size - 1))
      (work : a.SameWork b)
      (unclaimed : ¬ Claimed deeds id →
        a.reservedAt = b.reservedAt ∧ (sh.runsOn id).countP Run.isHolding = 0)
      (released : Claimed deeds id → (sh.runsOn id).countP Run.isHolding = 0 →
        a.reservedAt = none)

theorem claimed_snoc : Claimed (deeds ++ [d]) id ↔
    Claimed deeds id ∨ ∃ time, d.act.claimed? = some (id, time) := by
  simp [Claimed, or_and_right, exists_or]

theorem Ledger.congr {deeds' : List Deed} (l : Ledger id before deeds sh)
    (store : sh'.store.find? id = sh.store.find? id)
    (succeeded : (sh'.runsOn id).countP Run.succeeded = (sh.runsOn id).countP Run.succeeded)
    (retryable : (sh'.runsOn id).countP Run.isRetryable = (sh.runsOn id).countP Run.isRetryable)
    (holding : (sh'.runsOn id).countP Run.isHolding = (sh.runsOn id).countP Run.isHolding)
    (claimed : Claimed deeds' id ↔ Claimed deeds id) : Ledger id before deeds' sh' := by
  cases l with
  | absent start gone fails => exact .absent start (store.trans gone) (succeeded.trans fails)
  | deleted start gone once => exact .deleted start (store.trans gone) (succeeded.trans once)
  | kept start there fails attempts work unclaimed released =>
    refine .kept start (store.trans there) (succeeded.trans fails) (retryable ▸ attempts) work
      ?_ ?_
    · rwa [claimed, holding]
    · rwa [claimed, holding]

theorem Ledger.start (fresh : sh.IsFresh) : Ledger id (sh.store.find? id) [] sh := by
  have idle (p : Run η → Bool) (hp : ∀ r, r.stage = none → p r = false) :
      (sh.runsOn id).countP p = 0 := by
    rw [List.countP_eq_zero]
    intro r hr
    simp [hp r (fresh r (List.mem_filter.mp hr).1)]
  have fails := idle Run.succeeded fun r h => by simp [Run.succeeded, Run.outcome?, h]
  have final := idle Run.isRetryable fun r h => by simp [Run.isRetryable, Run.outcome?, h]
  have holding := idle Run.isHolding fun r h => by simp [Run.isHolding, h]
  cases there : sh.store.find? id with
  | none => exact .absent rfl there fails
  | some b =>
    refine .kept rfl there fails ?_ (.refl b) (fun _ => ⟨rfl, holding⟩) ?_
    · have := b.attempts.toNat_lt
      simp only [final, UInt32.size]
      omega
    · rintro ⟨_, none, _⟩
      cases none

theorem Ledger.step_other {r r' : Run η} (l : Ledger id before deeds sh)
    (h : sh.runs[d.run]? = some r) (moved : sh'.runs = sh.runs.set d.run r')
    (copy : r'.copy = r.copy) (effect : Run.Effect sh.store r r' d.act sh'.store)
    (other : r.copy.id ≠ id) : Ledger id before (deeds ++ [d]) sh' := by
  have counts {p : Run η → Bool} := countP_runsOn_other (p := p) h moved copy other
  refine l.congr (effect.find?_other other) counts counts counts ?_
  rw [claimed_snoc, or_iff_left]
  rintro ⟨_, claims⟩
  exact other (effect.id_of_claimed? claims)

section
variable {stored : Record} {time : Time.Instant}

theorem Ledger.vanish (l : Ledger id before deeds sh) (gone : sh.store.find? id = none)
    (now : sh'.store.find? id = none)
    (succeeded : (sh'.runsOn id).countP Run.succeeded = (sh.runsOn id).countP Run.succeeded) :
    Ledger id before (deeds ++ [d]) sh' := by
  cases l with
  | absent start _ fails => exact .absent start now (succeeded.trans fails)
  | deleted start _ once => exact .deleted start now (succeeded.trans once)
  | kept _ there => rw [gone] at there; cases there

theorem Ledger.of_there (l : Ledger id before deeds sh)
    (there : sh.store.find? id = some stored) :
    (sh.runsOn id).countP Run.succeeded = 0 ∧ ∃ b, before = some b ∧ stored.SameWork b ∧
      stored.attempts.toNat =
        min (b.attempts.toNat + (sh.runsOn id).countP Run.isRetryable) (UInt32.size - 1) ∧
      (¬ Claimed deeds id → (sh.runsOn id).countP Run.isHolding = 0) := by
  cases l with
  | absent _ gone | deleted _ gone => rw [gone] at there; cases there
  | kept start was fails attempts work unclaimed =>
    obtain rfl := Option.some.inj (there.symm.trans was)
    exact ⟨fails, _, start, work, attempts, fun h => (unclaimed h).2⟩

theorem Ledger.claim (l : Ledger id before deeds sh) (there : sh.store.find? id = some stored)
    (now : sh'.store.find? id = some (stored.reserve time))
    (claims : d.act.claimed? = some (id, time))
    (succeeded : (sh'.runsOn id).countP Run.succeeded = (sh.runsOn id).countP Run.succeeded)
    (retryable : (sh'.runsOn id).countP Run.isRetryable = (sh.runsOn id).countP Run.isRetryable)
    (holding : (sh'.runsOn id).countP Run.isHolding ≠ 0) :
    Ledger id before (deeds ++ [d]) sh' := by
  obtain ⟨fails, b, start, work, attempts, _⟩ := l.of_there there
  have claimed : Claimed (deeds ++ [d]) id := claimed_snoc.mpr (.inr ⟨time, claims⟩)
  exact .kept start now (succeeded.trans fails) (retryable ▸ attempts)
    ⟨work.id, work.collection, work.payload, work.createdAt⟩ (absurd claimed)
    (fun _ idle => absurd idle holding)

theorem Ledger.delete (l : Ledger id before deeds sh) (there : sh.store.find? id = some stored)
    (now : sh'.store.find? id = none)
    (succeeded : (sh'.runsOn id).countP Run.succeeded =
      (sh.runsOn id).countP Run.succeeded + 1) :
    Ledger id before (deeds ++ [d]) sh' := by
  obtain ⟨fails, b, start, _⟩ := l.of_there there
  exact .deleted start now (by rw [succeeded, fails])

theorem Ledger.count (l : Ledger id before deeds sh) (there : sh.store.find? id = some stored)
    (now : sh'.store.find? id = some (stored.recordFailure time))
    (succeeded : (sh'.runsOn id).countP Run.succeeded = (sh.runsOn id).countP Run.succeeded)
    (retryable : (sh'.runsOn id).countP Run.isRetryable =
      (sh.runsOn id).countP Run.isRetryable + 1)
    (held : (sh.runsOn id).countP Run.isHolding ≠ 0) :
    Ledger id before (deeds ++ [d]) sh' := by
  obtain ⟨fails, b, start, work, attempts, unclaimed⟩ := l.of_there there
  -- whoever counts a failure has claimed the record before
  have claimed : Claimed deeds id := Classical.byContradiction fun h => held (unclaimed h)
  refine .kept start now (succeeded.trans fails) ?_
    ⟨work.id, work.collection, work.payload, work.createdAt⟩
    (absurd (claimed_snoc.mpr (.inl claimed))) (fun _ _ => rfl)
  have counted : (stored.recordFailure time).attempts = countAttempt stored.attempts := rfl
  rw [counted, toNat_countAttempt, attempts, retryable]
  simp only [UInt32.size]
  omega

end

theorem Ledger.step_same {r r' : Run η} (l : Ledger r.copy.id before deeds sh)
    (h : sh.runs[d.run]? = some r) (moved : sh'.runs = sh.runs.set d.run r')
    (step : r.Step d.time sh.store d.act r' sh'.store)
    (effect : Run.Effect sh.store r r' d.act sh'.store) :
    Ledger r.copy.id before (deeds ++ [d]) sh' := by
  have succeeded := countP_runsOn_same (p := Run.succeeded) h moved step.copy_eq rfl
  have retryable := countP_runsOn_same (p := Run.isRetryable) h moved step.copy_eq rfl
  have holding := countP_runsOn_same (p := Run.isHolding) h moved step.copy_eq rfl
  rw [Run.succeeded_of_outcome?_none step.outcome?_eq_none] at succeeded
  rw [Run.isRetryable_of_outcome?_none step.outcome?_eq_none] at retryable
  generalize hact : d.act = act at effect
  generalize hstore : sh'.store = s' at effect
  cases effect with
  | quiet claims _ holds fails final =>
    rw [holds] at holding
    rw [fails] at succeeded
    rw [final] at retryable
    refine l.congr (by rw [hstore]) (Nat.add_right_cancel succeeded)
      (Nat.add_right_cancel retryable) (Nat.add_right_cancel holding) ?_
    simp [claimed_snoc, hact, claims]
  | vanished _ _ gone _ fails =>
    rw [fails] at succeeded
    exact l.vanish gone (hstore ▸ gone) (Nat.add_right_cancel succeeded)
  | @granted stored time there _ _ held holds fails final =>
    have now : sh'.store.find? r.copy.id = some (stored.reserve time) := by
      rw [hstore, MemoryStore.find?_put_reserve there, if_pos rfl]
    rw [held, holds] at holding
    rw [fails] at succeeded
    rw [final] at retryable
    exact l.claim there now (by rw [hact]; rfl) (Nat.add_right_cancel succeeded)
      (Nat.add_right_cancel retryable) (by simp at holding; omega)
  | deleted there _ _ succeeds =>
    rw [succeeds] at succeeded
    refine l.delete there ?_ succeeded
    rw [hstore, Keyed.find?_erase, if_pos rfl]
  | @counted stored time there held holds fails retry =>
    have now : sh'.store.find? r.copy.id = some (stored.recordFailure time) := by
      rw [hstore, MemoryStore.find?_put_recordFailure there, if_pos rfl]
    rw [held, holds] at holding
    rw [fails] at succeeded
    rw [retry] at retryable
    exact l.count there now (Nat.add_right_cancel succeeded) retryable
      (by simp at holding; omega)

theorem Ledger.step (l : Ledger id before deeds sh) (sound : sh.IsSound) (step : Step sh d sh') :
    Ledger id before (deeds ++ [d]) sh' := by
  obtain ⟨r, r', h, moved, hs, effect⟩ := step.effect sound
  by_cases same : r.copy.id = id
  · subst same
    exact l.step_same h moved hs effect
  · exact l.step_other h moved hs.copy_eq effect same

theorem Ledger.trace (fresh : sh.IsFresh) (trace : Trace Step sh deeds sh') :
    Ledger id (sh.store.find? id) deeds sh' := by
  induction trace with
  | nil => exact .start fresh
  | snoc before last ih => exact ih.step (fresh.isSound.trace before) last

/-- A record that no run was given is left alone. -/
theorem find?_of_not_given (fresh : sh.IsFresh) (trace : Trace Step sh deeds sh')
    (other : ∀ r ∈ sh.runs, r.copy.id ≠ id) : sh'.store.find? id = sh.store.find? id := by
  induction trace with
  | nil => rfl
  | @snoc t u deeds d before last ih =>
    obtain ⟨r, r', h, _, _, effect⟩ := last.effect (fresh.isSound.trace before)
    obtain ⟨r₀, h₀, copy, _⟩ := origin before h
    rw [effect.find?_other (copy ▸ other r₀ (List.mem_of_getElem? h₀)), ih]

/-- At the end of a shift, every record is as the outcomes of its runs say. -/
theorem ledger (fresh : sh.IsFresh) (trace : Trace Step sh deeds sh') (ended : sh'.IsOver)
    (id : String) :
    (sh'.runsOn id).countP Run.succeeded ≤ 1 ∧
    ((sh'.store.find? id).isSome ↔
      (sh.store.find? id).isSome ∧ (sh'.runsOn id).countP Run.succeeded = 0) ∧
    (∀ after, sh'.store.find? id = some after → ∃ before, sh.store.find? id = some before ∧
      after.attempts.toNat =
        min (before.attempts.toNat + (sh'.runsOn id).countP Run.isRetryable) (UInt32.size - 1) ∧
      (Claimed deeds id → after.reservedAt = none) ∧
      (¬ Claimed deeds id → after.reservedAt = before.reservedAt) ∧ after.SameWork before) ∧
    ((∀ r ∈ sh.runs, r.copy.id ≠ id) → sh'.store.find? id = sh.store.find? id) := by
  have idle : (sh'.runsOn id).countP Run.isHolding = 0 := by
    rw [List.countP_eq_zero]
    intro r hr
    simp [Run.isHolding_of_outcome? (ended r (List.mem_filter.mp hr).1)]
  have untouched : (∀ r ∈ sh.runs, r.copy.id ≠ id) → sh'.store.find? id = sh.store.find? id :=
    find?_of_not_given fresh trace
  have l : Ledger id (sh.store.find? id) deeds sh' := .trace fresh trace
  cases l with
  | absent start gone fails => simp [start, gone, fails]
  | deleted start gone once => simp_all
  | kept start there fails attempts work unclaimed released =>
    refine ⟨by omega, by simp [start, there, fails], ?_, untouched⟩
    rintro after now
    obtain rfl := Option.some.inj (there.symm.trans now)
    exact ⟨_, start, attempts, fun c => released c idle, fun c => (unclaimed c).1, work⟩

/-- Three runs on copies of one record, which has been tried four times. -/
def threeCopies : Shift MemoryStore Unit :=
  let record : Record := ⟨"a", queueCollection, "\x7b\"type\":\"mail\"\x7d", 4, none, .epoch, .epoch⟩
  let run (worker : Nat) : Run Unit := .fresh ⟨worker, defaultWindow⟩ (fun _ => some ()) record
  ⟨Keyed.empty.put record, [run 0, run 1, run 2]⟩

/-- The first run beats the second and panics; the third claims what it gave free, and fails. -/
def threeCopiesCues : List Cue :=
  [⟨0, .epoch, .succeeded⟩, ⟨1, .epoch, .succeeded⟩, ⟨0, .epoch, .succeeded⟩,
   ⟨1, .epoch, .succeeded⟩, ⟨0, .epoch, .panicked none⟩, ⟨1, .epoch, .succeeded⟩,
   ⟨0, .epoch, .succeeded⟩, ⟨2, .epoch, .succeeded⟩, ⟨2, .epoch, .succeeded⟩,
   ⟨2, .epoch, .failed "no"⟩, ⟨2, .epoch, .succeeded⟩]

theorem ledger_threeCopies : ∃ deeds sh' after, threeCopies.IsFresh ∧
    Trace Step threeCopies deeds sh' ∧ sh'.IsOver ∧
    (sh'.runsOn "a").countP Run.isRetryable = 2 ∧ sh'.store.find? "a" = some after ∧
    after.attempts = 6 ∧ (Claimed deeds "a" → after.reservedAt = none) := by
  have checked : (Trace.play? cue? threeCopies threeCopiesCues).any fun (_, sh') =>
      sh'.IsOver ∧ (sh'.runsOn "a").countP Run.isRetryable = 2 ∧
        (sh'.store.find? "a").any (·.attempts = 6) := by
    decide +kernel
  obtain ⟨deeds, sh', trace, holds⟩ := Trace.exists_of_play? step_of_cue? checked
  simp only [decide_eq_true_eq, Option.any_eq_true] at holds
  obtain ⟨ended, failed, after, now, counted⟩ := holds
  obtain ⟨_, _, _, released, _⟩ := (ledger (by decide) trace ended "a").2.2.1 after now
  exact ⟨deeds, sh', after, by decide, trace, ended, failed, now, counted, released⟩

end Shift

end JobQueue
