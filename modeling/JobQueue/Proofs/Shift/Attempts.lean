import JobQueue.Proofs.Shift.Memory
import JobQueue.Proofs.Shift.Play
import JobQueue.Proofs.Time.Window

/-!
# The number of an attempt

The handler of a run is told the number of its attempt, which is reckoned from the copy that the run
was given, while the store counts the failures.
-/

namespace JobQueue

open Time (Instant)

theorem Record.attempts_of_parseJob {r : Record} {job : Job} (read : r.parseJob = .ok job) :
    job.attempts = r.attempts := by
  unfold parseJob at read
  split at read
  · cases read
  · split at read
    · cases read
    · exact Except.ok.inj read ▸ rfl

-- ---------------------------------------------------------------------------
-- What a handler is told
-- ---------------------------------------------------------------------------

/-- The handler of a job is told one attempt more than the record counts from which it is read. -/
theorem Worker.Dispatched.attempt {η : Type} {w : Worker} {handler? : String → Option η}
    {record : Record} {next : Worker.Progress η} {context : Context} {job : Job}
    (dispatched : w.Dispatched handler? record next) (told : .invoked context job ∈ next.2) :
    context.attempt = countAttempt record.attempts := by
  cases dispatched with
  | unread => simp at told
  | unhandled => simp at told
  | handled read =>
    obtain rfl : context = .ofJob _ w.id := by simp at told; exact told.1
    exact congrArg countAttempt (Record.attempts_of_parseJob (Job.ofRecord_eq_ok_iff.mp read).2)

namespace Worker.Run

variable {σ η : Type} [RecordStore σ] {r r' r₁ r₂ : Run η} {now : Instant} {s s₁ s₂ : σ} {act : Act}

theorem Step.unique (first : r.Step now s act r₁ s₁) (second : r.Step now s act r₂ s₂) :
    r₁ = r₂ ∧ s₁ = s₂ := by
  cases first with
  | begin h =>
    cases second with
    | begin => exact ⟨rfl, rfl⟩
  | @ask stage q h hq =>
    generalize same : Act.asked q (RecordStore.answer now q s).1 = act at second
    cases second with
    | begin => cases same
    | ask h' =>
      obtain rfl := Option.some.inj (h.symm.trans h')
      exact ⟨rfl, rfl⟩
    | judge => cases same
  | judge verdict h =>
    cases second with
    | judge _ h' =>
      cases h.symm.trans h'
      exact ⟨rfl, rfl⟩

variable {m m' : MemoryStore} {context : Context} {job : Job}

/-- A handler is invoked right after the claim, on the copy of the run. -/
theorem Step.invoked (step : r.Step now m act r' m') (sound : r.IsSound)
    (told : .invoked context job ∈ r'.seen) : .invoked context job ∈ r.seen ∨
      (∃ time, act.claimed? = some (r.copy.id, time)) ∧
        context.attempt = countAttempt r.copy.attempts := by
  have silent {next : Progress η} (none : next.2.countP Event.isInvocation = 0)
      (told : .invoked context job ∈ r.seen ++ next.2) : .invoked context job ∈ r.seen := by
    refine (List.mem_append.mp told).resolve_right fun new => ?_
    exact List.countP_eq_zero.mp none _ new rfl
  cases step with
  | begin h =>
    have begun : Begun r.worker now r.copy (r.worker.begin (η := η) now r.copy) := begun ..
    have told : .invoked context job ∈ r.seen ++ (r.worker.begin (η := η) now r.copy).2 := told
    generalize r.worker.begin (η := η) now r.copy = next at begun told
    cases begun <;> exact .inl (silent rfl told)
  | @ask stage q h hq =>
    have called := called r.worker r.handler? now m (Stage.asksStore_of_request? hq)
    have told : .invoked context job ∈ r.seen ++ (r.worker.call r.handler? now stage m).1.2 := told
    generalize (r.worker.call r.handler? now stage m).1 = next at called told
    cases called with
    | @claimed record time answer =>
      simp only [IsSound, h] at sound
      obtain ⟨rfl, _⟩ := sound
      obtain rfl := Option.some.inj hq
      refine (List.mem_append.mp told).imp_right fun new => ⟨⟨time, ?_⟩, ?_⟩
      · rw [answer]
        rfl
      · have attempt : context.attempt = countAttempt (r.copy.reserve time).attempts :=
          (dispatched ..).attempt new
        exact attempt
    | _ => exact .inl (silent rfl told)
  | judge verdict h =>
    refine .inl (silent ?_ told)
    cases verdict <;> rfl

/-- A record that is stored was stored before, with the attempts that it has unless its failure was
counted; and it was given free only if so. -/
theorem Effect.found {id : String} {b : Record} (effect : Effect m r r' act m')
    (there : m'.find? id = some b) : ∃ a, m.find? id = some a ∧
      (act.counted? = some id ∧ b.attempts = countAttempt a.attempts ∨
        act.counted? ≠ some id ∧ b.attempts = a.attempts ∧
          (a.reservedAt ≠ none → b.reservedAt ≠ none)) := by
  by_cases same : r.copy.id = id
  · subst same
    cases effect with
    | quiet _ counts => exact ⟨b, there, .inr ⟨by simp [counts], rfl, fun held => held⟩⟩
    | vanished _ counts => exact ⟨b, there, .inr ⟨by simp [counts], rfl, fun held => held⟩⟩
    | granted was =>
      rw [MemoryStore.find?_put_reserve was, if_pos rfl] at there
      obtain rfl := Option.some.inj there
      exact ⟨_, was, .inr ⟨nofun, rfl, fun _ => nofun⟩⟩
    | deleted => simp [Keyed.find?_erase] at there
    | counted was =>
      rw [MemoryStore.find?_put_recordFailure was, if_pos rfl] at there
      obtain rfl := Option.some.inj there
      exact ⟨_, was, .inl ⟨rfl, rfl⟩⟩
  · rw [effect.find?_other same] at there
    refine ⟨b, there, .inr ⟨fun counts => same ?_, rfl, fun held => held⟩⟩
    cases effect with
    | quiet _ none => rw [none] at counts; cases counts
    | vanished _ none => rw [none] at counts; cases counts
    | granted | deleted => cases counts
    | counted => exact Option.some.inj counts

/-- A claim that is granted finds what it expects, and no reservation within the window. -/
theorem Effect.of_claimed {id : String} {time : Instant} (effect : Effect m r r' act m')
    (claimed : act.claimed? = some (id, time)) : ∃ stored, m.find? r.copy.id = some stored ∧
      stored.reservedAt = r.copy.reservedAt ∧
      r.copy.isReservedWithin time r.worker.window = false ∧ m' = m.put (stored.reserve time) := by
  cases effect with
  | quiet none | vanished none => rw [none] at claimed; cases claimed
  | granted there same free =>
    cases claimed
    exact ⟨_, there, same, free, rfl⟩
  | deleted | counted => cases claimed

end Worker.Run

def Deed.counts (id : String) (d : Deed) : Bool := d.act.counted? = some id

theorem Deed.counts_of_claimed {d : Deed} {id other : String} {time : Instant}
    (claimed : d.act.claimed? = some (other, time)) : d.counts id = false := by
  have none : d.act.counted? = Option.none := by
    unfold Worker.Act.claimed? at claimed
    split at claimed
    · next act => rw [act]; rfl
    · cases claimed
  simp [counts, none]

namespace Shift

variable {η : Type} {start sh sh' : Shift MemoryStore η} {d : Deed} {deeds : List Deed}
  {id : String} {a b : Record}

theorem Step.unique {σ : Type} [RecordStore σ] {sh sh₁ sh₂ : Shift σ η}
    (first : Step sh d sh₁) (second : Step sh d sh₂) : sh₁ = sh₂ := by
  cases first with
  | of h hs =>
    cases second with
    | of h' hs' =>
      obtain rfl := Option.some.inj (h.symm.trans h')
      obtain ⟨rfl, rfl⟩ := hs.unique hs'
      rfl

/-- Counted failures are all that adds to the attempts of a record, up to the limit. As long as none
is counted, a record that is reserved stays so. -/
theorem found_of_trace (sound : sh.IsSound) (trace : Trace Step sh deeds sh')
    (there : sh'.store.find? id = some b) : ∃ a, sh.store.find? id = some a ∧
      b.attempts.toNat =
        min (a.attempts.toNat + deeds.countP (Deed.counts id)) (UInt32.size - 1) ∧
      (deeds.countP (Deed.counts id) = 0 → a.reservedAt ≠ none → b.reservedAt ≠ none) := by
  induction trace generalizing b with
  | nil =>
    have := b.attempts.toNat_lt
    exact ⟨b, there, by simp [UInt32.size]; omega, fun _ held => held⟩
  | @snoc _ _ deeds d before last ih =>
    obtain ⟨r, r', _, _, _, effect⟩ := last.effect (sound.trace before)
    obtain ⟨c, was, goes⟩ := effect.found there
    obtain ⟨a, first, attempts, held⟩ := ih was
    refine ⟨a, first, ?_⟩
    rw [List.countP_append, List.countP_singleton]
    rcases goes with ⟨counts, goes⟩ | ⟨counts, goes, kept⟩
    · rw [goes, toNat_countAttempt, attempts, if_pos (by simp [Deed.counts, counts])]
      refine ⟨by simp only [UInt32.size]; omega, by simp⟩
    · rw [goes, attempts, if_neg (by simp [Deed.counts, counts])]
      exact ⟨rfl, fun none first => kept (held none first)⟩

-- ---------------------------------------------------------------------------
-- Executions
-- ---------------------------------------------------------------------------

/-- An execution of a record in a shift: the claim of its run, what was stored when the claim was
made, and what its handler was told. -/
structure Execution (start : Shift MemoryStore η) (deeds : List Deed)
    (sh : Shift MemoryStore η) where
  earlier : List Deed
  claim : Deed
  later : List Deed
  before : Shift MemoryStore η
  run : Worker.Run η
  time : Instant
  stored : Record
  context : Context
  job : Job
  split : deeds = earlier ++ claim :: later
  reached : Trace Step start earlier before
  claimed : claim.act.claimed? = some (run.copy.id, time)
  found : before.store.find? run.copy.id = some stored
  holder : sh.runs[claim.run]? = some run
  invoked : .invoked context job ∈ run.seen

namespace Execution

variable {x y : Execution start deeds sh}

def jobId (x : Execution start deeds sh) : String := x.run.copy.id

/-- Whether the copy of the run was what the store held at some time before the claim. -/
def IsCopied (x : Execution start deeds sh) : Prop :=
  ∃ past since mid, x.earlier = past ++ since ∧ Trace Step start past mid ∧
    mid.store.find? x.jobId = some x.run.copy

/-- Whether no failure of the record was counted between that time and the claim. -/
def IsCurrent (x : Execution start deeds sh) : Prop :=
  ∃ past since mid, x.earlier = past ++ since ∧ Trace Step start past mid ∧
    mid.store.find? x.jobId = some x.run.copy ∧ since.countP (Deed.counts x.jobId) = 0

def HasFailed (x : Execution start deeds sh) : Prop :=
  ∃ d ∈ x.later, d.run = x.claim.run ∧ d.counts x.jobId = true

theorem exists_extend (x : Execution start deeds sh) {r : Worker.Run η}
    (holder : sh'.runs[x.claim.run]? = some r) (copy : r.copy = x.run.copy)
    (seen : .invoked x.context x.job ∈ r.seen) : ∃ x' : Execution start (deeds ++ [d]) sh',
      x'.claim.run = x.claim.run ∧ x'.run = r ∧ x'.context = x.context ∧ x'.job = x.job :=
  ⟨{ earlier := x.earlier, claim := x.claim, later := x.later ++ [d], before := x.before, run := r,
     time := x.time, stored := x.stored, context := x.context, job := x.job,
     split := (congrArg (· ++ [d]) x.split).trans (by simp),
     reached := x.reached, claimed := by rw [copy]; exact x.claimed,
     found := by rw [copy]; exact x.found, holder, invoked := seen },
    rfl, rfl, rfl, rfl⟩

end Execution

theorem isFresh_of_new (new : ∀ r ∈ start.runs, r = .fresh r.worker r.handler? r.copy) :
    start.IsFresh := by
  intro r member
  rw [new r member]
  rfl

/-- Whoever invoked a handler had claimed the record before, for one attempt more than its copy
counts. -/
theorem exists_execution (new : ∀ r ∈ start.runs, r = .fresh r.worker r.handler? r.copy)
    (trace : Trace Step start deeds sh) {i : Nat} {r : Worker.Run η} {context : Context} {job : Job}
    (holder : sh.runs[i]? = some r) (invoked : .invoked context job ∈ r.seen) :
    context.attempt = countAttempt r.copy.attempts ∧ ∃ x : Execution start deeds sh,
      x.claim.run = i ∧ x.run = r ∧ x.context = context ∧ x.job = job := by
  have fresh := isFresh_of_new new
  induction trace generalizing r with
  | nil =>
    rw [new r (List.mem_of_getElem? holder)] at invoked
    cases invoked
  | @snoc sh sh' deeds d before last ih =>
    have sound := fresh.isSound.trace before
    obtain ⟨r₁, r₂, here, moved, step, effect⟩ := last.effect sound
    have holder' := holder
    rw [getElem?_moved here moved] at holder'
    split at holder'
    · next same =>
      subst same
      obtain rfl := Option.some.inj holder'
      rcases step.invoked (sound _ (List.mem_of_getElem? here)) invoked with
        old | ⟨⟨time, claimed⟩, attempt⟩
      · obtain ⟨attempt, x, run, rfl, rfl, rfl⟩ := ih here old
        rw [← run] at holder ⊢
        exact ⟨step.copy_eq ▸ attempt, x.exists_extend holder step.copy_eq invoked⟩
      · obtain ⟨stored, there, _⟩ := effect.of_claimed claimed
        rw [← step.copy_eq] at attempt claimed there
        exact ⟨attempt, ⟨deeds, d, [], sh, r₂, time, stored, context, job, by simp, before, claimed,
          there, holder, invoked⟩, rfl, rfl, rfl, rfl⟩
    · next other =>
      obtain ⟨attempt, x, rfl, rfl, rfl, rfl⟩ := ih holder' invoked
      exact ⟨attempt, x.exists_extend holder rfl invoked⟩

namespace Execution

variable {x y : Execution start deeds sh} {between : List Deed}

theorem before_eq {labels : List Deed} (x : Execution start deeds sh)
    (same : x.earlier = labels) (reached : Trace Step start labels sh') : sh' = x.before :=
  reached.unique Step.unique (same ▸ x.reached)

theorem reached_since {past since : List Deed} {mid : Shift MemoryStore η}
    (x : Execution start deeds sh) (split : x.earlier = past ++ since)
    (reached : Trace Step start past mid) : Trace Step mid since x.before := by
  have whole : Trace Step start (past ++ since) x.before := split ▸ x.reached
  obtain ⟨s, first, rest⟩ := whole.cut
  obtain rfl : s = mid := first.unique Step.unique reached
  exact rest

theorem exists_between (order : y.earlier = x.earlier ++ x.claim :: between) :
    ∃ after, Step x.before x.claim after ∧ Trace Step after between y.before :=
  (y.reached_since order x.reached).cons_cases

/-- If no failure was counted since its copy was stored, a run is told one attempt more than is
stored when it claims. -/
theorem attempts_of_isCurrent (fresh : start.IsFresh) (current : x.IsCurrent) :
    x.stored.attempts = x.run.copy.attempts := by
  obtain ⟨past, since, mid, split, reached, there, none⟩ := current
  obtain ⟨a, found, attempts, -⟩ :=
    found_of_trace (fresh.isSound.trace reached) (x.reached_since split reached) x.found
  obtain rfl : a = x.run.copy := Option.some.inj (found.symm.trans there)
  refine UInt32.toNat_inj.mp (attempts.trans ?_)
  have := x.run.copy.attempts.toNat_lt
  rw [jobId] at none
  rw [none, UInt32.size]
  omega

/-- Between two claims of a record its attempts grow by the failures that are counted. -/
theorem stored_between (fresh : start.IsFresh) (same : x.jobId = y.jobId)
    (order : y.earlier = x.earlier ++ x.claim :: between) :
    y.stored.attempts.toNat =
        min (x.stored.attempts.toNat + between.countP (Deed.counts x.jobId)) (UInt32.size - 1) ∧
      (between.countP (Deed.counts x.jobId) = 0 → y.stored.reservedAt ≠ none) := by
  obtain ⟨after, step, rest⟩ := exists_between order
  have sound := fresh.isSound.trace x.reached
  obtain ⟨r, r', _, _, _, effect⟩ := step.effect sound
  obtain ⟨stored, there, _, _, now⟩ := effect.of_claimed x.claimed
  have own := effect.id_of_claimed? x.claimed
  obtain rfl : stored = x.stored := Option.some.inj (there.symm.trans (own ▸ x.found))
  have reserved : after.store.find? y.jobId = some (x.stored.reserve x.time) := by
    rw [now, MemoryStore.find?_put_reserve there, if_pos (own.trans same)]
  obtain ⟨a, found, attempts, kept⟩ := found_of_trace (sound.step step) rest y.found
  obtain rfl := Option.some.inj (reserved.symm.trans found)
  rw [same]
  exact ⟨attempts, fun none => kept none (Option.some_ne_none _)⟩

/-- What a claim finds shows the reservation of the copy, whose window has run out. -/
theorem reservation_of_claim (x : Execution start deeds sh) (fresh : start.IsFresh)
    (trace : Trace Step start deeds sh) :
    x.stored.reservedAt = x.run.copy.reservedAt ∧
      x.run.copy.isReservedWithin x.time x.run.worker.window = false := by
  have whole : Trace Step start (x.earlier ++ x.claim :: x.later) sh :=
    Eq.mp (congrArg (Trace Step start · sh) x.split) trace
  obtain ⟨s, first, rest⟩ := whole.cut
  obtain rfl := x.before_eq rfl first
  obtain ⟨r₀, here, copy, worker, _⟩ := origin rest x.holder
  obtain ⟨after, step, _⟩ := rest.cons_cases
  obtain ⟨r, r', here', _, _, effect⟩ := step.effect (fresh.isSound.trace first)
  obtain rfl := Option.some.inj (here.symm.trans here')
  obtain ⟨stored, there, same, free, _⟩ := effect.of_claimed x.claimed
  rw [copy, worker]
  rw [← copy, x.found] at there
  exact ⟨Option.some.inj there ▸ same, free⟩

/-- Whether an execution claimed the record from another one that was still under way, when the
window of the last reservation had run out. -/
structure TakesOver (y x : Execution start deeds sh) : Prop where
  underway : ∃ d ∈ y.later, d.run = x.claim.run ∧ d.counts x.jobId = true
  expired : ∃ since, y.stored.reservedAt = some since ∧ y.run.copy.reservedAt = some since ∧
    y.run.copy.isReservedWithin y.time y.run.worker.window = false

end Execution

/-- A handler is told one attempt more than is stored of its record at the claim, if no failure was
counted since the copy of its run was stored. Two such executions of one record are told the same
number, below the limit, exactly if no failure was counted between their claims; if the first one
failed, the second has then taken over from it. -/
theorem attempt_numbers (new : ∀ r ∈ start.runs, r = .fresh r.worker r.handler? r.copy)
    (trace : Trace Step start deeds sh) :
    (∀ i r context job, sh.runs[i]? = some r → .invoked context job ∈ r.seen →
      ∃ x : Execution start deeds sh,
        x.claim.run = i ∧ x.run = r ∧ x.context = context ∧ x.job = job) ∧
    (∀ x : Execution start deeds sh, x.IsCurrent →
      x.context.attempt = countAttempt x.stored.attempts) ∧
    ∀ (x y : Execution start deeds sh) (between : List Deed), x.IsCurrent → y.IsCurrent →
      x.jobId = y.jobId → y.earlier = x.earlier ++ x.claim :: between →
      x.context.attempt ≠ 0xFFFFFFFF →
      (x.context.attempt = y.context.attempt ↔ between.countP (Deed.counts x.jobId) = 0) ∧
      (x.context.attempt = y.context.attempt → x.HasFailed → y.TakesOver x) := by
  have fresh := isFresh_of_new new
  have told (x : Execution start deeds sh) (current : x.IsCurrent) :
      x.context.attempt = countAttempt x.stored.attempts := by
    rw [Execution.attempts_of_isCurrent fresh current]
    exact (exists_execution new trace x.holder x.invoked).1
  refine ⟨fun i r context job holder invoked => (exists_execution new trace holder invoked).2, told,
    ?_⟩
  intro x y between currentX currentY same order below
  obtain ⟨attempts, reserved⟩ := Execution.stored_between fresh same order
  rw [told x currentX] at below
  have equal : x.context.attempt = y.context.attempt ↔
      between.countP (Deed.counts x.jobId) = 0 := by
    rw [told x currentX, told y currentY, ← UInt32.toNat_inj, toNat_countAttempt,
      toNat_countAttempt, attempts]
    have small : (countAttempt x.stored.attempts).toNat ≠ 0xFFFFFFFF :=
      fun full => below (UInt32.toNat_inj.mp full)
    rw [toNat_countAttempt] at small
    simp only [UInt32.size]
    omega
  refine ⟨equal, fun alike failed => ⟨?_, ?_⟩⟩
  · obtain ⟨d, member, own, counts⟩ := failed
    have rest : x.later = between ++ y.claim :: y.later := by
      have both := x.split.symm.trans y.split
      simpa [order] using both
    refine ⟨d, ?_, own, counts⟩
    rw [rest, List.mem_append, List.mem_cons] at member
    rcases member with earlier | rfl | later
    · exact absurd counts (List.countP_eq_zero.mp (equal.mp alike) d earlier)
    · rw [Deed.counts_of_claimed y.claimed] at counts
      cases counts
    · exact later
  · obtain ⟨shown, expired⟩ := y.reservation_of_claim fresh trace
    obtain ⟨since, held⟩ := Option.ne_none_iff_exists'.mp (reserved (equal.mp alike))
    exact ⟨since, held, shown ▸ held, expired⟩

-- ---------------------------------------------------------------------------
-- Numbers that are told twice
-- ---------------------------------------------------------------------------

/-- Whether all handlers are told one attempt more than is stored at the claim, when all copies were
stored before. -/
def TellsStored (start : Shift MemoryStore η) : Prop :=
  ∀ (deeds : List Deed) (sh : Shift MemoryStore η) (x : Execution start deeds sh),
    Trace Step start deeds sh → x.IsCopied → x.context.attempt = countAttempt x.stored.attempts

/-- Whether no two executions of a record that end in a counted failure are told one number below
the limit, when all copies were stored before. -/
def TellsApart (start : Shift MemoryStore η) : Prop :=
  ∀ (deeds : List Deed) (sh : Shift MemoryStore η) (x y : Execution start deeds sh),
    Trace Step start deeds sh → x.IsCopied → y.IsCopied → x.jobId = y.jobId →
    x.claim.run ≠ y.claim.run → x.HasFailed → y.HasFailed → x.context.attempt ≠ 0xFFFFFFFF →
    x.context.attempt ≠ y.context.attempt

def tells (n : UInt32) : Worker.Event → Bool
  | .invoked context _ => context.attempt = n
  | _ => false

/-- Whether the run of a claim told its handler the number `n`, and counted a failure later. -/
def failsAs (n : UInt32) (claim : Deed) (later : List Deed) (sh : Shift MemoryStore η) : Bool :=
  (sh.runs[claim.run]?).any fun r =>
    (claim.act.claimed?).any (·.1 = r.copy.id) ∧ r.seen.any (tells n) ∧
      later.any fun d => d.run = claim.run ∧ d.counts r.copy.id

theorem exists_of_failsAs {earlier later : List Deed} {claim : Deed} {n : UInt32}
    (fresh : start.IsFresh) (trace : Trace Step start deeds sh)
    (split : deeds = earlier ++ claim :: later) (fails : failsAs n claim later sh) :
    ∃ x : Execution start deeds sh, x.earlier = earlier ∧ x.claim = claim ∧ x.HasFailed ∧
      x.context.attempt = n := by
  simp only [failsAs, Option.any_eq_true, decide_eq_true_eq] at fails
  obtain ⟨r, holder, ⟨⟨id, time⟩, claimed, rfl⟩, told, failed⟩ := fails
  obtain ⟨event, seen, told⟩ := List.any_eq_true.mp told
  obtain ⟨d, member, failed⟩ := List.any_eq_true.mp failed
  cases event with
  | entered | logged => cases told
  | invoked context job =>
    obtain ⟨before, reached, rest⟩ := (split ▸ trace).cut
    obtain ⟨after, step, _⟩ := rest.cons_cases
    obtain ⟨r₀, r₁, _, _, _, effect⟩ := step.effect (fresh.isSound.trace reached)
    obtain ⟨stored, there, _⟩ := effect.of_claimed claimed
    rw [effect.id_of_claimed? claimed] at there
    exact ⟨⟨earlier, claim, later, before, r, time, stored, context, job, split, reached, claimed,
      there, holder, seen⟩, rfl, rfl, ⟨d, member, of_decide_eq_true failed⟩,
      of_decide_eq_true told⟩

theorem Execution.copy_eq {r : Worker.Run η} (x : Execution start deeds sh)
    (trace : Trace Step start deeds sh) (given : start.runs[x.claim.run]? = some r) :
    x.run.copy = r.copy := by
  obtain ⟨r₀, given', copy, _⟩ := origin trace x.holder
  obtain rfl := Option.some.inj (given.symm.trans given')
  exact copy

theorem Execution.IsCurrent.isCopied {x : Execution start deeds sh} (current : x.IsCurrent) :
    x.IsCopied := by
  obtain ⟨past, since, mid, split, reached, there, _⟩ := current
  exact ⟨past, since, mid, split, reached, there⟩

def letter : Record :=
  ⟨"a", queueCollection, "\x7b\"type\":\"mail\"\x7d", 0, none, .epoch, .epoch⟩

def lettersOf (first second : Record) : Shift MemoryStore Unit :=
  let run (worker : Nat) : Record → Worker.Run Unit :=
    .fresh ⟨worker, defaultWindow⟩ fun _ => some ()
  ⟨Keyed.empty.put letter, [run 0 first, run 1 second]⟩

theorem fresh_of_mem_lettersOf {first second : Record} :
    ∀ r ∈ (lettersOf first second).runs, r = .fresh r.worker r.handler? r.copy := by
  simp [lettersOf, Worker.Run.fresh]

theorem exists_twice {first second : Record} {earlier between later : List Deed} {c₁ c₂ : Deed}
    {start sh : Shift MemoryStore Unit} (trace : Trace Step start deeds sh)
    (its : start = lettersOf first second)
    (split : deeds = earlier ++ c₁ :: (between ++ c₂ :: later)) (own : c₁.run = 0 ∧ c₂.run = 1)
    (fails : failsAs 1 c₁ (between ++ c₂ :: later) sh) (fails' : failsAs 1 c₂ later sh) :
    ∃ x y : Execution start deeds sh,
      x.earlier = earlier ∧ y.earlier = earlier ++ c₁ :: between ∧
      y.earlier = x.earlier ++ x.claim :: between ∧ x.claim.run ≠ y.claim.run ∧
      x.run.copy = first ∧ y.run.copy = second ∧ x.HasFailed ∧ y.HasFailed ∧
      x.context.attempt = 1 ∧ y.context.attempt = 1 := by
  subst its
  have fresh : (lettersOf first second).IsFresh := isFresh_of_new fresh_of_mem_lettersOf
  have split' : deeds = (earlier ++ c₁ :: between) ++ c₂ :: later := by simp [split]
  obtain ⟨x, before, claim, failed, number⟩ := exists_of_failsAs fresh trace split fails
  obtain ⟨y, before', claim', failed', number'⟩ := exists_of_failsAs fresh trace split' fails'
  obtain ⟨own, own'⟩ : x.claim.run = 0 ∧ y.claim.run = 1 := by rwa [claim, claim']
  refine ⟨x, y, before, before', ?_, ?_, x.copy_eq trace (by rw [own]; rfl),
    y.copy_eq trace (by rw [own']; rfl), failed, failed', number, number'⟩
  · rw [before', before, claim]
  · rw [own, own']
    decide

def failingCues (run : Nat) : List Cue :=
  [⟨run, .epoch, .succeeded⟩, ⟨run, .epoch, .succeeded⟩, ⟨run, .epoch, .failed "no"⟩,
   ⟨run, .epoch, .succeeded⟩]

/-- The second copy is taken after the claim of the first run. -/
def takeOver : Shift MemoryStore Unit := lettersOf letter (letter.reserve .epoch)

/-- The second run claims at second 301, before the first one fails. -/
def takeOverCues : List Cue :=
  [⟨1, .ofSecond 301, .succeeded⟩, ⟨1, .ofSecond 301, .succeeded⟩,
   ⟨0, .ofSecond 302, .failed "no"⟩, ⟨0, .ofSecond 302, .succeeded⟩,
   ⟨1, .ofSecond 303, .failed "no"⟩, ⟨1, .ofSecond 303, .succeeded⟩]

def wasTakenOver (earlier later : List Deed) (sh : Shift MemoryStore Unit) : Bool :=
  match earlier, later with
  | [d₁, c₁], d₂ :: c₂ :: rest =>
    c₁.run = 0 ∧ c₂.run = 1 ∧ failsAs 1 c₁ (d₂ :: c₂ :: rest) sh ∧ failsAs 1 c₂ rest sh ∧
      [d₁].countP (Deed.counts "a") = 0 ∧ [d₂].countP (Deed.counts "a") = 0
  | _, _ => false

theorem exists_takeOver : ∃ deeds sh between, ∃ x y : Execution takeOver deeds sh,
    Trace Step takeOver deeds sh ∧ x.IsCurrent ∧ y.IsCurrent ∧ x.jobId = y.jobId ∧
    x.claim.run ≠ y.claim.run ∧ y.earlier = x.earlier ++ x.claim :: between ∧
    x.HasFailed ∧ y.HasFailed ∧ x.context.attempt = 1 ∧ y.context.attempt = 1 := by
  have checked : (Trace.play? cue? takeOver ((failingCues 0).take 2)).any fun first =>
      first.2.store.find? "a" = some (letter.reserve .epoch) ∧
        (Trace.play? cue? first.2 takeOverCues).any fun rest =>
          wasTakenOver first.1 rest.1 rest.2 := by
    decide +kernel
  obtain ⟨earlier, mid, reached, holds⟩ := Trace.exists_of_play? step_of_cue? checked
  obtain ⟨stored, played⟩ := of_decide_eq_true holds
  obtain ⟨later, sh, rest, told⟩ := Trace.exists_of_play? step_of_cue? played
  clear checked holds played
  dsimp only at told
  unfold wasTakenOver at told
  split at told
  · next d₁ c₁ d₂ c₂ others =>
    obtain ⟨first, second, fails, fails', none, none'⟩ := of_decide_eq_true told
    have trace : Trace Step takeOver ([d₁] ++ c₁ :: ([d₂] ++ c₂ :: others)) sh :=
      reached.append rest
    obtain ⟨x, y, earlier, earlier', order, other, copy, copy', failed, failed', number, number'⟩ :=
      exists_twice trace rfl rfl ⟨first, second⟩ fails fails'
    refine ⟨_, sh, [d₂], x, y, trace, ⟨[], [d₁], takeOver, earlier, .nil _, ?_, ?_⟩,
      ⟨[d₁, c₁], [d₂], mid, earlier', reached, ?_, ?_⟩, ?_, other, order, failed, failed', number,
      number'⟩
    · rw [Execution.jobId, copy]
      rfl
    · rw [Execution.jobId, copy]
      exact none
    · rw [Execution.jobId, copy']
      exact stored
    · rw [Execution.jobId, copy']
      exact none'
    · rw [Execution.jobId, Execution.jobId, copy, copy']
      rfl
  · cases told

/-- A run that takes over a record fails with the number of the run that it takes over from. -/
theorem attempt_numbers_takeOver : ∃ deeds sh, ∃ x y : Execution takeOver deeds sh,
    Trace Step takeOver deeds sh ∧ x.context.attempt = countAttempt x.stored.attempts ∧
    x.context.attempt = y.context.attempt ∧ y.TakesOver x := by
  obtain ⟨deeds, sh, between, x, y, trace, current, current', same, _, order, failed, _, number,
    number'⟩ := exists_takeOver
  obtain ⟨_, told, numbers⟩ := attempt_numbers fresh_of_mem_lettersOf trace
  have alike : x.context.attempt = y.context.attempt := number.trans number'.symm
  have below : x.context.attempt ≠ 0xFFFFFFFF := by
    rw [number]
    decide
  exact ⟨deeds, sh, x, y, trace, told x current, alike,
    (numbers x y between current current' same order below).2 alike failed⟩

/-- Both copies are taken before the first run begins. -/
def staleCopies : Shift MemoryStore Unit := lettersOf letter letter

def wasToldStale (deeds : List Deed) (sh : Shift MemoryStore Unit) : Bool :=
  match deeds with
  | _ :: c₁ :: d₂ :: f₁ :: d₃ :: c₂ :: others =>
    c₁.run = 0 ∧ c₂.run = 1 ∧ f₁.counts "a" ∧
      failsAs 1 c₁ (d₂ :: f₁ :: d₃ :: c₂ :: others) sh ∧ failsAs 1 c₂ others sh
  | _ => false

theorem exists_staleCopies : ∃ deeds sh between, ∃ x y : Execution staleCopies deeds sh,
    Trace Step staleCopies deeds sh ∧ x.IsCopied ∧ y.IsCopied ∧ x.jobId = y.jobId ∧
    x.claim.run ≠ y.claim.run ∧ y.earlier = x.earlier ++ x.claim :: between ∧
    between.countP (Deed.counts x.jobId) ≠ 0 ∧ x.HasFailed ∧ y.HasFailed ∧
    x.context.attempt = 1 ∧ y.context.attempt = 1 := by
  have checked : (Trace.play? cue? staleCopies (failingCues 0 ++ failingCues 1)).any fun played =>
      wasToldStale played.1 played.2 := by
    decide +kernel
  obtain ⟨deeds, sh, trace, told⟩ := Trace.exists_of_play? step_of_cue? checked
  clear checked
  dsimp only at told
  unfold wasToldStale at told
  split at told
  · next d₁ c₁ d₂ f₁ d₃ c₂ others =>
    obtain ⟨first, second, counts, fails, fails'⟩ := of_decide_eq_true told
    have split : d₁ :: c₁ :: d₂ :: f₁ :: d₃ :: c₂ :: others =
      [d₁] ++ c₁ :: ([d₂, f₁, d₃] ++ c₂ :: others) := rfl
    obtain ⟨x, y, _, _, order, other, copy, copy', failed, failed', number, number'⟩ :=
      exists_twice trace rfl split ⟨first, second⟩ fails fails'
    refine ⟨_, sh, [d₂, f₁, d₃], x, y, trace, ⟨[], _, staleCopies, rfl, .nil _, ?_⟩,
      ⟨[], _, staleCopies, rfl, .nil _, ?_⟩, ?_, other, order, ?_, failed, failed', number, number'⟩
    · rw [Execution.jobId, copy]
      rfl
    · rw [Execution.jobId, copy']
      rfl
    · rw [Execution.jobId, Execution.jobId, copy, copy']
    · rw [Execution.jobId, copy]
      intro none
      exact List.countP_eq_zero.mp none f₁ (by simp) counts
  · cases told

/-- A run on a copy that is older than a counted failure is told a number that is too low, and one
that takes over a record fails with the number of another one though its copy is current. -/
theorem not_tellsStored_nor_tellsApart :
    (∀ r ∈ staleCopies.runs, r = .fresh r.worker r.handler? r.copy) ∧
    (∀ r ∈ takeOver.runs, r = .fresh r.worker r.handler? r.copy) ∧
    ¬ TellsStored staleCopies ∧ ¬ TellsApart staleCopies ∧ ¬ TellsApart takeOver := by
  refine ⟨fresh_of_mem_lettersOf, fresh_of_mem_lettersOf, fun truly => ?_, fun apart => ?_,
    fun apart => ?_⟩
  · obtain ⟨deeds, sh, between, x, y, trace, copied, copied', same, _, order, counts, _, _, number,
      number'⟩ := exists_staleCopies
    have attempts := (Execution.stored_between (by decide) same order).1
    have told := (truly deeds sh x trace copied).symm.trans number
    have told' := (truly deeds sh y trace copied').symm.trans number'
    rw [← UInt32.toNat_inj, toNat_countAttempt, UInt32.toNat_one] at told told'
    simp only [UInt32.size] at attempts told told'
    omega
  · obtain ⟨deeds, sh, _, x, y, trace, copied, copied', same, other, _, _, failed, failed', number,
      number'⟩ := exists_staleCopies
    have below : x.context.attempt ≠ 0xFFFFFFFF := by
      rw [number]
      decide
    exact apart deeds sh x y trace copied copied' same other failed failed' below
      (number.trans number'.symm)
  · obtain ⟨deeds, sh, _, x, y, trace, current, current', same, other, _, failed, failed', number,
      number'⟩ := exists_takeOver
    have below : x.context.attempt ≠ 0xFFFFFFFF := by
      rw [number]
      decide
    exact apart deeds sh x y trace current.isCopied current'.isCopied same other failed failed'
      below (number.trans number'.symm)

end Shift

end JobQueue
