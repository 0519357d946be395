import JobQueue.Proofs.Shift.Duplicates
import JobQueue.Proofs.Shift.Play

/-!
# The race for one record

Runs on copies of one record whose handlers all succeed: whoever claims the record first works
on it and deletes it, and all others are told that it is reserved or gone (`Race`).
-/

namespace JobQueue

open Time (Instant)

-- ---------------------------------------------------------------------------
-- What becomes of a run when no handler fails
-- ---------------------------------------------------------------------------

namespace Worker.Run

variable {η : Type} {r r' : Run η} {now : Instant} {s s' : MemoryStore} {act : Act}
  {stored : Record}

/-- Whether the run has yet to be told whether it may work on its record. -/
inductive IsWaiting (r : Run η) : Prop
  | fresh (h : r.stage = none)
  | claiming {time : Instant} (h : r.stage = some (.claiming r.copy time))

/-- Whether the run was told that it may not, or that the record is gone. -/
inductive HasLost (r : Run η) : Prop
  | losing {time : Instant} (h : r.stage = some (.losing r.copy time))
  | reserved {since : Instant}
      (h : r.stage = some (.done (.error (.alreadyReserved r.copy.id since))))
  | missing (h : r.stage = some (.done (.error (.reservation (.notFound r.copy.id)))))

/-- Whether the run works on its record without having failed. -/
inductive IsLeading (r : Run η) : Prop
  | handling {time : Instant} {context : Context} {job : Job} {handler : η}
      (h : r.stage = some (.handling (r.copy.reserve time) context job handler))
  | completing {time : Instant} (h : r.stage = some (.completing (r.copy.reserve time)))

/-- Whether a run at this point is told nothing but what the claim says: its record is valid, its
reservation has worn off, and its job has a handler, which says that it succeeded. -/
structure IsSmooth (now : Instant) (r : Run η) (act : Act) : Prop where
  valid : Record.validate (some r.copy) = .ok r.copy
  expired : act = .begun → r.copy.isReservedWithin now r.worker.window = false
  known : ∃ job, r.copy.parseJob = .ok job ∧ (r.handler? job.jobType).isSome = true
  verdict : ∀ v, act = .judged v → v = .succeeded

theorem dispatch_reserve {w : Worker} {handler? : String → Option η} {record : Record} {job : Job}
    (valid : Record.validate (some record) = .ok record) (parsed : record.parseJob = .ok job)
    (known : (handler? job.jobType).isSome = true) (time : Instant) : ∃ context job handler,
      (w.dispatch handler? (record.reserve time)).1 =
        .handling (record.reserve time) context job handler := by
  obtain ⟨handler, known⟩ := Option.isSome_iff_exists.mp known
  have read := Job.ofRecord_reserve record time
  rw [Job.ofRecord_eq_ok_iff.mpr ⟨valid, parsed⟩] at read
  simp only [dispatch, read, Except.map, known]
  exact ⟨_, _, _, rfl⟩

/-- A run that waits goes on waiting, or is told that it may not work on the record, or that it
may; then its handler is invoked. -/
theorem IsWaiting.step (waiting : r.IsWaiting) (step : r.Step now s act r' s')
    (smooth : IsSmooth now r act) :
    (r'.IsWaiting ∧ r'.invocations = r.invocations ∧ s' = s) ∨
    (r'.HasLost ∧ r'.invocations = r.invocations ∧ s' = s ∧
      ∀ stored, s.find? r.copy.id = some stored → stored.reservedAt ≠ r.copy.reservedAt) ∨
    (r'.IsLeading ∧ r'.invocations = r.invocations + 1 ∧ ∃ stored time,
      s.find? r.copy.id = some stored ∧ stored.reservedAt = r.copy.reservedAt ∧
      r.stage = some (.claiming r.copy time) ∧ s' = s.put (stored.reserve time)) := by
  have invocations := step.invocations
  obtain ⟨stage, seen, rfl, change⟩ := step.change
  cases waiting with
  | fresh h =>
    cases change with
    | invalid _ bad => rw [smooth.valid] at bad; cases bad
    | held _ within => rw [smooth.expired rfl] at within; cases within
    | ready => exact .inl ⟨.claiming rfl, invocations, rfl⟩
    | _ => simp_all
  | @claiming time h =>
    cases change with
    | missed h' gone =>
      obtain ⟨rfl, rfl⟩ := Stage.claiming.inj (Option.some.inj (h.symm.trans h'))
      refine .inr (.inl ⟨.missing rfl, invocations, rfl, ?_⟩)
      intro stored there
      rw [gone] at there
      cases there
    | beaten h' there other =>
      obtain ⟨rfl, rfl⟩ := Stage.claiming.inj (Option.some.inj (h.symm.trans h'))
      refine .inr (.inl ⟨.losing rfl, invocations, rfl, ?_⟩)
      intro after found
      obtain rfl := Option.some.inj (there.symm.trans found)
      exact other
    | @granted _ stored _ h' there same =>
      obtain ⟨rfl, rfl⟩ := Stage.claiming.inj (Option.some.inj (h.symm.trans h'))
      obtain ⟨job, parsed, known⟩ := smooth.known
      obtain ⟨_, _, _, next⟩ := dispatch_reserve (w := r.worker) smooth.valid parsed known time
      rw [next] at invocations ⊢
      exact .inr (.inr ⟨.handling rfl, invocations, stored, time, there, same, h, rfl⟩)
    | _ => simp_all

theorem HasLost.step (lost : r.HasLost) (step : r.Step now s act r' s') :
    r'.HasLost ∧ r'.invocations = r.invocations ∧ s' = s := by
  have invocations := step.invocations
  obtain ⟨stage, seen, rfl, change⟩ := step.change
  cases lost with
  | losing h =>
    cases change with
    | lost h' =>
      obtain ⟨rfl, rfl⟩ := Stage.losing.inj (Option.some.inj (h.symm.trans h'))
      exact ⟨.reserved rfl, invocations, rfl⟩
    | _ => simp_all
  | reserved h | missing h => cases change <;> simp_all

theorem IsLeading.step (leading : r.IsLeading) (step : r.Step now s act r' s')
    (smooth : IsSmooth now r act) (there : s.find? r.copy.id = some stored) :
    r'.invocations = r.invocations ∧
      ((r'.IsLeading ∧ s' = s) ∨
        (r'.stage = some (.done (.ok ())) ∧ s' = s.erase r.copy.id)) := by
  have invocations := step.invocations
  obtain ⟨stage, seen, rfl, change⟩ := step.change
  cases leading with
  | handling h =>
    cases change with
    | judged h' =>
      obtain ⟨rfl, rfl, rfl, rfl⟩ := Stage.handling.inj (Option.some.inj (h.symm.trans h'))
      obtain rfl := smooth.verdict _ rfl
      exact ⟨invocations, .inl ⟨.completing rfl, rfl⟩⟩
    | _ => simp_all
  | completing h =>
    cases change with
    | undeleted h' gone =>
      obtain rfl := Stage.completing.inj (Option.some.inj (h.symm.trans h'))
      rw [Record.id_reserve, there] at gone
      cases gone
    | deleted h' =>
      obtain rfl := Stage.completing.inj (Option.some.inj (h.symm.trans h'))
      exact ⟨invocations, .inr ⟨rfl, rfl⟩⟩
    | _ => simp_all

end Worker.Run

namespace Shift

open Worker (Run)

variable {η : Type} {sh sh' start : Shift MemoryStore η} {d : Deed} {deeds : List Deed}
  {record : Record}

/-- Whether all runs but one wait or have lost, without a handler being invoked for them. -/
def OthersTrail (i : Nat) (sh : Shift MemoryStore η) : Prop :=
  ∀ j r, j ≠ i → sh.runs[j]? = some r → (r.IsWaiting ∨ r.HasLost) ∧ r.invocations = 0

/-- How far the runs on copies of one record are: all of them wait, or one leads, or one has won;
a handler was invoked once for that one alone. -/
inductive Race (record : Record) (sh : Shift MemoryStore η) : Prop
  | still {stored : Record} (all : ∀ r ∈ sh.runs, r.IsWaiting ∧ r.invocations = 0)
      (there : sh.store.find? record.id = some stored)
      (same : stored.reservedAt = record.reservedAt)
  | led {i : Nat} {r : Run η} {stored : Record} (h : sh.runs[i]? = some r)
      (leading : r.IsLeading) (once : r.invocations = 1) (others : OthersTrail i sh)
      (there : sh.store.find? record.id = some stored)
      (differs : stored.reservedAt ≠ record.reservedAt)
  | won {i : Nat} {r : Run η} (h : sh.runs[i]? = some r)
      (done : r.stage = some (.done (.ok ()))) (once : r.invocations = 1)
      (others : OthersTrail i sh) (gone : sh.store.find? record.id = none)

theorem OthersTrail.step_own {r r' : Run η} (others : OthersTrail d.run sh)
    (h : sh.runs[d.run]? = some r) (moved : sh'.runs = sh.runs.set d.run r') :
    OthersTrail d.run sh' := by
  intro j r'' differ hj
  rw [getElem?_moved h moved, if_neg (Ne.symm differ)] at hj
  exact others j r'' differ hj

theorem OthersTrail.step {i : Nat} (others : OthersTrail i sh) (dup : AreDuplicates record sh)
    (step : Step sh d sh') (smooth : ∀ r, sh.runs[d.run]? = some r → r.IsSmooth d.time d.act)
    (taken : ∀ stored, sh.store.find? record.id = some stored →
      stored.reservedAt ≠ record.reservedAt)
    (differ : d.run ≠ i) :
    OthersTrail i sh' ∧ sh'.store = sh.store ∧ sh'.runs[i]? = sh.runs[i]? := by
  obtain ⟨r, r', h, moved, hs, _⟩ := step.effect dup.sound
  obtain rfl := dup.copies r (List.mem_of_getElem? h)
  obtain ⟨trails, idle⟩ := others d.run r differ h
  have now : (r'.IsWaiting ∨ r'.HasLost) ∧ r'.invocations = 0 ∧ sh'.store = sh.store := by
    rcases trails with waiting | lost
    · obtain ⟨waiting, none, store⟩ | ⟨lost, none, store, _⟩ | ⟨_, _, stored, _, there, same, _⟩ :=
        waiting.step hs (smooth r h)
      · exact ⟨.inl waiting, none.trans idle, store⟩
      · exact ⟨.inr lost, none.trans idle, store⟩
      · exact absurd same (taken stored there)
    · obtain ⟨lost, none, store⟩ := lost.step hs
      exact ⟨.inr lost, none.trans idle, store⟩
  obtain ⟨trails, idle, store⟩ := now
  have at_ := getElem?_moved h moved
  refine ⟨?_, store, by rw [at_, if_neg differ]⟩
  intro j r'' other hj
  rw [at_] at hj
  split at hj
  · obtain rfl := Option.some.inj hj
    exact ⟨trails, idle⟩
  · exact others j r'' other hj

theorem Race.step (race : Race record sh) (dup : AreDuplicates record sh) (step : Step sh d sh')
    (smooth : ∀ r, sh.runs[d.run]? = some r → r.IsSmooth d.time d.act) : Race record sh' := by
  obtain ⟨r, r', h, moved, hs, effect⟩ := step.effect dup.sound
  have member := List.mem_of_getElem? h
  obtain rfl := dup.copies r member
  have at_ := getElem?_moved h moved
  cases race with
  | @still stored all there same =>
    obtain ⟨waiting, idle⟩ := all r member
    obtain ⟨waiting, none, store⟩ | ⟨_, _, _, taken⟩ | ⟨leads, once, after, time, found, _, ready, store⟩ :=
      waiting.step hs (smooth r h)
    · refine .still ?_ (store ▸ there) same
      intro r'' hr
      rw [moved] at hr
      rcases List.mem_or_eq_of_mem_set hr with hr | rfl
      · exact all r'' hr
      · exact ⟨waiting, none.trans idle⟩
    · exact absurd same (taken stored there)
    · have sound := dup.sound r member
      simp only [Run.IsSound, ready] at sound
      have differs : (after.reserve time).reservedAt ≠ r.copy.reservedAt :=
        Ne.symm (Record.reservedAt_ne sound.2.1 fun reserved => dup.windows reserved r member)
      refine .led (by rw [at_, if_pos rfl]) leads (by rw [once, idle]) ?_ ?_ differs
      · intro j r'' differ hj
        rw [at_, if_neg (Ne.symm differ)] at hj
        obtain ⟨waiting, idle⟩ := all r'' (List.mem_of_getElem? hj)
        exact ⟨.inl waiting, idle⟩
      · rw [store, MemoryStore.find?_put_reserve found, if_pos rfl]
  | @led i leader stored h' leading once others there differs =>
    by_cases own : d.run = i
    · subst own
      obtain rfl := Option.some.inj (h.symm.trans h')
      have others := others.step_own h moved
      have here : sh'.runs[d.run]? = some r' := by rw [at_, if_pos rfl]
      obtain ⟨same, ⟨leading, store⟩ | ⟨done, store⟩⟩ := leading.step hs (smooth r h) there
      · exact .led here leading (same.trans once) others (store ▸ there) differs
      · refine .won here done (same.trans once) others ?_
        rw [store, Keyed.find?_erase, if_pos rfl]
    · have taken (after : Record) (found : sh.store.find? r.copy.id = some after) :
          after.reservedAt ≠ r.copy.reservedAt := by
        obtain rfl := Option.some.inj (there.symm.trans found)
        exact differs
      obtain ⟨others, store, here⟩ := others.step dup step smooth taken own
      exact .led (here.trans h') leading once others (store ▸ there) differs
  | @won i winner h' done once others gone =>
    by_cases own : d.run = i
    · subst own
      obtain rfl := Option.some.inj (h.symm.trans h')
      have running := hs.outcome?_eq_none
      simp [Run.outcome?, done, Worker.Stage.outcome?] at running
    · obtain ⟨others, store, here⟩ :=
        others.step dup step smooth (fun after found => by rw [gone] at found; cases found) own
      exact .won (here.trans h') done once others (store ▸ gone)

/-- Whether one run has succeeded, having invoked its handler once, and the others were told,
without theirs being invoked, that the record is reserved or gone. -/
def HasOneWinner (record : Record) (sh : Shift MemoryStore η) : Prop :=
  ∃ (i : Nat) (r : Run η), sh.runs[i]? = some r ∧ r.outcome? = some (.ok ()) ∧
    r.invocations = 1 ∧ ∀ (j : Nat) (r' : Run η), j ≠ i → sh.runs[j]? = some r' →
      r'.invocations = 0 ∧
        ((∃ since, r'.outcome? = some (.error (.alreadyReserved record.id since))) ∨
          r'.outcome? = some (.error (.reservation (.notFound record.id))))

theorem Race.hasOneWinner (race : Race record sh) (dup : AreDuplicates record sh)
    (ended : sh.IsOver) (some_ : sh.runs ≠ []) : HasOneWinner record sh := by
  cases race with
  | still all =>
    obtain ⟨r, member⟩ := List.exists_mem_of_ne_nil _ some_
    have ended := ended r member
    cases (all r member).1 with
    | fresh h | claiming h => simp [Run.outcome?, h, Worker.Stage.outcome?] at ended
  | led h leading =>
    have ended := ended _ (List.mem_of_getElem? h)
    cases leading with
    | handling h | completing h => simp [Run.outcome?, h, Worker.Stage.outcome?] at ended
  | @won i r h done once others =>
    refine ⟨i, r, h, by simp [Run.outcome?, done, Worker.Stage.outcome?], once, ?_⟩
    intro j r' differ hj
    obtain ⟨trails, idle⟩ := others j r' differ hj
    have member := List.mem_of_getElem? hj
    obtain rfl := dup.copies r' member
    have ended := ended r' member
    refine ⟨idle, ?_⟩
    rcases trails with waiting | lost
    · cases waiting with
      | fresh h | claiming h => simp [Run.outcome?, h, Worker.Stage.outcome?] at ended
    · cases lost with
      | losing h => simp [Run.outcome?, h, Worker.Stage.outcome?] at ended
      | @reserved since h => exact .inl ⟨since, by simp [Run.outcome?, h, Worker.Stage.outcome?]⟩
      | missing h => exact .inr (by simp [Run.outcome?, h, Worker.Stage.outcome?])

/-- Runs on copies of one record, whatever their handlers say and however long they take, hold it
one at a time; none claims it after one has succeeded; and where no handler fails, one of them
does the work and the others do none of it. -/
theorem duplicates_one_at_a_time {stored : Record}
    (runs : ∀ r ∈ start.runs, r = .fresh r.worker r.handler? record) (some_ : start.runs ≠ [])
    (there : start.store.find? record.id = some stored)
    (same : stored.reservedAt = record.reservedAt)
    (windows : record.reservedAt ≠ none → ∀ r ∈ start.runs, 0 < r.worker.window.nanoseconds)
    (trace : Trace Step start deeds sh) :
    (∀ (i j : Nat) (r r' : Run η), sh.runs[i]? = some r → sh.runs[j]? = some r' →
      r.isHolding = true → r'.isHolding = true → i = j) ∧
    ((∃ r ∈ sh.runs, r.succeeded = true) → ∀ later sh', Trace Step sh later sh' →
      ∀ d ∈ later, d.act.claimed? = none) ∧
    (∀ job, Record.validate (some record) = .ok record →
      (∀ d ∈ deeds, d.act = .begun → ∀ r ∈ start.runs[d.run]?,
        record.isReservedWithin d.time r.worker.window = false) →
      record.parseJob = .ok job → (∀ r ∈ start.runs, (r.handler? job.jobType).isSome = true) →
      (∀ d ∈ deeds, ∀ v, d.act = .judged v → v = .succeeded) → sh.IsOver →
      HasOneWinner record sh) := by
  have copies : ∀ r ∈ start.runs, r.copy = record := fun r hr => by rw [runs r hr]; rfl
  have fresh : start.IsFresh := fun r hr => by rw [runs r hr]; rfl
  have first : AreDuplicates record start := ⟨fresh.isSound, copies, windows⟩
  have dup := first.trace trace
  obtain ⟨holder, sole⟩ := fresh.sole.trace first trace
  refine ⟨?_, ?_, ?_⟩
  · intro i j r r' hi hj held held'
    exact Option.some.inj (((sole.holds hi).mp held).symm.trans ((sole.holds hj).mp held'))
  · rintro ⟨r, member, succeeded⟩ later sh' rest
    obtain ⟨i, hi⟩ := List.getElem?_of_mem member
    exact (claimed?_of_trace dup (sole.gone hi succeeded) rest).1
  · intro job valid expired parsed known verdicts ended
    have race : Race record sh := by
      clear sole dup ended
      induction trace with
      | nil =>
        exact .still (fun r hr => ⟨.fresh (fresh r hr), by rw [runs r hr]; rfl⟩) there same
      | @snoc t u deeds d before last ih =>
        have race := ih (fun f hf => expired f (List.mem_append_left _ hf))
          fun f hf => verdicts f (List.mem_append_left _ hf)
        refine race.step (first.trace before) last ?_
        intro r hr
        obtain ⟨r₀, h₀, copy, worker, handlers⟩ := origin before hr
        have member := List.mem_of_getElem? h₀
        obtain rfl := copies r₀ member
        refine ⟨?_, ?_, ?_, ?_⟩
        · rw [copy]
          exact valid
        · intro begun
          rw [copy, worker]
          exact expired d (by simp) begun r₀ h₀
        · rw [copy, handlers]
          exact ⟨job, parsed, known r₀ member⟩
        · exact verdicts d (by simp)
    refine race.hasOneWinner dup ended fun none => some_ ?_
    exact List.eq_nil_of_length_eq_zero (by rw [← length_runs trace, none]; rfl)

/-- A record whose reservation has worn off by second 300. -/
def wornOff : Record :=
  ⟨"a", queueCollection, "\x7b\"type\":\"mail\"\x7d", 0, some .epoch, .epoch, .epoch⟩

def threeOfWornOff : Shift MemoryStore Unit :=
  let run (worker : Nat) : Run Unit := .fresh ⟨worker, defaultWindow⟩ (fun _ => some ()) wornOff
  ⟨Keyed.empty.put wornOff, [run 0, run 1, run 2]⟩

/-- The second run claims the record before the first, and the third comes when it is gone. -/
def threeOfWornOffCues : List Cue :=
  [0, 1, 1, 0, 0, 1, 1, 2, 2].map fun i => ⟨i, .ofSecond 301, .succeeded⟩

theorem duplicates_one_at_a_time_wornOff : ∃ deeds sh, Trace Step threeOfWornOff deeds sh ∧
    sh.IsOver ∧ HasOneWinner wornOff sh := by
  have checked : (Trace.play? cue? threeOfWornOff threeOfWornOffCues).any fun (ds, sh) =>
      sh.IsOver ∧ (∀ d ∈ ds, d.time = .ofSecond 301) ∧ ds.all fun d =>
        match d.act with
        | .judged v => v = .succeeded
        | _ => true := by
    decide +kernel
  obtain ⟨deeds, sh, trace, holds⟩ := Trace.exists_of_play? step_of_cue? checked
  simp only [decide_eq_true_eq, List.all_eq_true] at holds
  obtain ⟨ended, times, verdicts⟩ := holds
  obtain ⟨job, parsed⟩ : ∃ job, wornOff.parseJob = .ok job := ⟨_, rfl⟩
  have expired : ∀ r ∈ threeOfWornOff.runs,
      wornOff.isReservedWithin (.ofSecond 301) r.worker.window = false := by decide
  have runs : ∀ r ∈ threeOfWornOff.runs, r = .fresh r.worker r.handler? wornOff := by
    simp [threeOfWornOff, Run.fresh]
  refine ⟨deeds, sh, trace, ended, ?_⟩
  refine (duplicates_one_at_a_time runs (List.cons_ne_nil _ _) rfl rfl (fun _ => by decide)
    trace).2.2 job rfl ?_ parsed (by simp [threeOfWornOff, Run.fresh]) ?_ ended
  · intro d hd _ r hr
    rw [times d hd]
    exact expired r (List.mem_of_getElem? hr)
  · intro d hd v judged
    have verdict := verdicts d hd
    rw [judged] at verdict
    exact of_decide_eq_true verdict

end Shift

end JobQueue
