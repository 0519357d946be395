import JobQueue.Proofs.Shift
import JobQueue.Proofs.Store.Memory

/-!
# Shifts over the store in memory

`Run.Change` lists all that one step of a run can do to its stage and to the store in memory, with
the conditions under which it does it. `Run.Step.change` proves the list complete; everything else
about shifts follows from it. `Run.IsSound` is what a run keeps all along: it works on its own
copy, its claim passed the check of the window, and its failures are to be tried again.
-/

namespace JobQueue

open Time (Instant)

namespace Worker.Run

variable {η : Type} {r r' : Run η} {now : Instant} {s s' : MemoryStore} {act : Act}

inductive Change (now : Instant) (s : MemoryStore) (r : Run η) :
    Act → Stage η → MemoryStore → Prop
  | invalid {e : ValidationError} (h : r.stage = none)
      (bad : Record.validate (some r.copy) = .error e) :
      Change now s r .begun (.done (.error (.validation e))) s
  | held {since : Instant} (h : r.stage = none)
      (within : r.copy.isReservedWithin now r.worker.window = true) :
      Change now s r .begun (.done (.error (.alreadyReserved r.copy.id since))) s
  | ready (h : r.stage = none) (valid : Record.validate (some r.copy) = .ok r.copy)
      (free : r.copy.isReservedWithin now r.worker.window = false) :
      Change now s r .begun (.claiming r.copy now) s
  | missed {record : Record} {time : Instant} (h : r.stage = some (.claiming record time))
      (gone : s.find? record.id = none) :
      Change now s r
        (.asked (.reserve record.id record.reservedAt time) (.error (.notFound record.id)))
        (.done (.error (.reservation (.notFound record.id)))) s
  | beaten {record stored : Record} {time : Instant} (h : r.stage = some (.claiming record time))
      (there : s.find? record.id = some stored) (other : stored.reservedAt ≠ record.reservedAt) :
      Change now s r (.asked (.reserve record.id record.reservedAt time) (.ok false))
        (.losing record time) s
  | granted {record stored : Record} {time : Instant} (h : r.stage = some (.claiming record time))
      (there : s.find? record.id = some stored) (same : stored.reservedAt = record.reservedAt) :
      Change now s r (.asked (.reserve record.id record.reservedAt time) (.ok true))
        (r.worker.dispatch r.handler? (record.reserve time)).1 (s.put (stored.reserve time))
  | lost {record : Record} {time since : Instant} {answer : Except StoreError (Option Record)}
      (h : r.stage = some (.losing record time)) :
      Change now s r (.asked (.get record.id) answer)
        (.done (.error (.alreadyReserved record.id since))) s
  | judged {record : Record} {context : Context} {job : Job} {handler : η} {verdict : Verdict}
      (h : r.stage = some (.handling record context job handler)) :
      Change now s r (.judged verdict) (onVerdict record context verdict).1 s
  | undeleted {record : Record} (h : r.stage = some (.completing record))
      (gone : s.find? record.id = none) :
      Change now s r (.asked (.delete record.id) (.error (.notFound record.id)))
        (.done (.error (.completion (.notFound record.id)))) s
  | deleted {record stored : Record} (h : r.stage = some (.completing record))
      (there : s.find? record.id = some stored) :
      Change now s r (.asked (.delete record.id) (.ok ())) (.done (.ok ())) (s.erase record.id)
  | uncounted {record : Record} {cause : JobError} (h : r.stage = some (.failing record cause))
      (gone : s.find? record.id = none) :
      Change now s r (.asked (.recordFailure record.id now) (.error (.notFound record.id)))
        (.done (.error (.failurePersistence cause.message (.notFound record.id)))) s
  | counted {record stored : Record} {cause : JobError} (h : r.stage = some (.failing record cause))
      (there : s.find? record.id = some stored) :
      Change now s r (.asked (.recordFailure record.id now) (.ok (stored.recordFailure now)))
        (.done (.error cause)) (s.put (stored.recordFailure now))

theorem begin_change (h : r.stage = none) :
    Change now s r .begun (r.worker.begin (η := η) now r.copy).1 s := by
  have begun : Begun r.worker now r.copy (r.worker.begin (η := η) now r.copy) := begun ..
  generalize r.worker.begin (η := η) now r.copy = next at begun ⊢
  cases begun with
  | invalid refused => exact .invalid h refused
  | held _ _ within => exact .held h within
  | claiming valid free => exact .ready h valid free

theorem call_change {stage : Stage η} {q : Request} (h : r.stage = some stage)
    (hq : stage.request? now = some q) :
    Change now s r (.asked q (RecordStore.answer now q s).1)
      (r.worker.call r.handler? now stage s).1.1 (r.worker.call r.handler? now stage s).2 := by
  cases stage with
  | claiming record time =>
    obtain rfl := Option.some.inj hq
    simp only [call, RecordStore.answer]
    cases there : s.find? record.id with
    | none =>
      rw [MemoryStore.reserve_missing there]
      exact .missed h there
    | some stored =>
      by_cases same : stored.reservedAt = record.reservedAt
      · rw [MemoryStore.reserve_same there same]
        exact .granted h there same
      · rw [MemoryStore.reserve_other there same]
        exact .beaten h there same
  | losing record time =>
    obtain rfl := Option.some.inj hq
    exact .lost h
  | handling record context job handler => cases hq
  | completing record =>
    obtain rfl := Option.some.inj hq
    simp only [call, RecordStore.answer]
    cases there : s.find? record.id with
    | none =>
      rw [MemoryStore.delete_missing there]
      exact .undeleted h there
    | some stored =>
      rw [MemoryStore.delete_there there]
      exact .deleted h there
  | failing record cause =>
    obtain rfl := Option.some.inj hq
    simp only [call, RecordStore.answer]
    cases there : s.find? record.id with
    | none =>
      rw [MemoryStore.recordFailure_missing there]
      exact .uncounted h there
    | some stored =>
      rw [MemoryStore.recordFailure_there there]
      exact .counted h there
  | done outcome => cases hq

theorem Step.change (h : r.Step now s act r' s') :
    ∃ stage seen, r' = r.goOn (stage, seen) ∧ Change now s r act stage s' := by
  cases h with
  | begin h => exact ⟨_, _, rfl, begin_change h⟩
  | ask h hq => exact ⟨_, _, rfl, call_change h hq⟩
  | judge verdict h => exact ⟨_, _, rfl, .judged h⟩

-- ---------------------------------------------------------------------------
-- What a run keeps
-- ---------------------------------------------------------------------------

/-- A run works on its own copy, claims it only outside the window of the copy's reservation, and
counts only failures that are to be tried again. -/
def IsSound (r : Run η) : Prop :=
  match r.stage with
  | none | some (.done _) => True
  | some (.claiming record time) =>
    record = r.copy ∧ r.copy.isReservedWithin time r.worker.window = false ∧
      Record.validate (some r.copy) = .ok r.copy
  | some (.losing record _) => record = r.copy
  | some (.handling record _ _ _) | some (.completing record) => ∃ time, record = r.copy.reserve time
  | some (.failing record cause) =>
    (∃ time, record = r.copy.reserve time) ∧ cause.isRetryable = true

theorem dispatch_cases (w : Worker) (handler? : String → Option η) (record : Record) :
    (∃ context job handler, (w.dispatch handler? record).1 = .handling record context job handler) ∨
      ∃ cause, (w.dispatch handler? record).1 = .failing record cause ∧
        (Record.validate (some record) = .ok record → cause.isRetryable = true) := by
  have dispatched := dispatched w handler? record
  generalize w.dispatch handler? record = next at dispatched ⊢
  cases dispatched with
  | unread refused =>
    exact .inr ⟨_, rfl, fun valid => JobError.isRetryable_ofJobFault valid refused⟩
  | unhandled => exact .inr ⟨_, rfl, fun _ => rfl⟩
  | handled => exact .inl ⟨_, _, _, rfl⟩

theorem onVerdict_cases (record : Record) (context : Context) (verdict : Verdict) :
    (onVerdict record context verdict : Progress η).1 = .completing record ∨
      ∃ cause, (onVerdict record context verdict : Progress η).1 = .failing record cause ∧
        cause.isRetryable = true := by
  cases verdict with
  | succeeded => exact .inl rfl
  | failed text => exact .inr ⟨_, rfl, rfl⟩
  | panicked text? => exact .inr ⟨_, rfl, rfl⟩

theorem isSound_of_stage_none (h : r.stage = none) : r.IsSound := by
  simp [IsSound, h]

theorem IsSound.step (sound : r.IsSound) (step : r.Step now s act r' s') : r'.IsSound := by
  obtain ⟨stage, seen, rfl, change⟩ := step.change
  simp only [IsSound] at sound
  cases change with
  | ready _ valid free => exact ⟨rfl, free, valid⟩
  | beaten h _ _ =>
    rw [h] at sound
    exact sound.1
  | @granted record _ time h _ _ =>
    rw [h] at sound
    obtain ⟨rfl, _, valid⟩ := sound
    obtain ⟨_, _, _, next⟩ | ⟨_, next, retry⟩ :=
      dispatch_cases r.worker r.handler? (r.copy.reserve time)
    · simp only [IsSound, stage_goOn, next]
      exact ⟨time, rfl⟩
    · simp only [IsSound, stage_goOn, next]
      exact ⟨⟨time, rfl⟩, retry (Record.validate_reserve time valid)⟩
  | @judged record context _ _ verdict h =>
    rw [h] at sound
    obtain next | ⟨_, next, retry⟩ := onVerdict_cases (η := η) record context verdict
    · simp only [IsSound, stage_goOn, next]
      exact sound
    · simp only [IsSound, stage_goOn, next]
      exact ⟨sound, retry⟩
  | _ => trivial

theorem Step.outcome?_eq_none (step : r.Step now s act r' s') : r.outcome? = none := by
  cases step with
  | begin h => simp [outcome?, h]
  | ask h hq =>
    rw [outcome?, h]
    cases ‹Stage η› with
    | done outcome => cases hq
    | _ => rfl
  | judge verdict h => simp [outcome?, h, Stage.outcome?]

theorem Step.holding (step : r.Step now s act r' s') (held : r.isHolding = true) :
    r'.isHolding = true ∨ r'.outcome?.isSome = true := by
  obtain ⟨stage, seen, rfl, change⟩ := step.change
  cases change with
  | invalid h | held h | ready h | missed h | beaten h | granted h | lost h =>
    simp [isHolding, h, Stage.isHolding] at held
  | @judged record context _ _ verdict h =>
    obtain next | ⟨_, next, _⟩ := onVerdict_cases (η := η) record context verdict <;>
      exact .inl (by rw [isHolding_goOn, next]; rfl)
  | undeleted | deleted | uncounted | counted => exact .inr rfl

theorem Step.time_of_claiming {record : Record} {time : Instant} (step : r.Step now s act r' s')
    (ready : r'.stage = some (.claiming record time)) : time = now := by
  obtain ⟨stage, seen, rfl, change⟩ := step.change
  obtain rfl := Option.some.inj ready
  generalize hnext : Stage.claiming record time = next at change
  cases change with
  | ready => cases hnext; rfl
  | @granted record _ time =>
    obtain ⟨_, _, _, next⟩ | ⟨_, next, _⟩ :=
      dispatch_cases r.worker r.handler? (record.reserve time) <;> rw [next] at hnext <;> cases hnext
  | @judged record context _ _ verdict =>
    obtain next | ⟨_, next, _⟩ := onVerdict_cases (η := η) record context verdict <;>
      rw [next] at hnext <;> cases hnext
  | _ => cases hnext

theorem Step.claiming {id : String} {time : Instant} (step : r.Step now s act r' s')
    (claims : act.claimed? = some (id, time)) :
    ∃ record, r.stage = some (.claiming record time) ∧ record.id = id := by
  obtain ⟨stage, seen, rfl, change⟩ := step.change
  cases change with
  | @granted record _ _ h =>
    obtain ⟨rfl, rfl⟩ := Prod.mk.inj (Option.some.inj claims)
    exact ⟨record, h, rfl⟩
  | _ => cases claims

-- ---------------------------------------------------------------------------
-- What a step does to its record
-- ---------------------------------------------------------------------------

/-- What a step means for the record that the run works on. Only claims, deletions and counts of
failures write; a run that finds nothing to write to gives up. -/
inductive Effect (s : MemoryStore) (r r' : Run η) : Act → MemoryStore → Prop
  | quiet {act : Act} (claims : act.claimed? = none) (counts : act.counted? = none)
      (holds : r'.isHolding = r.isHolding) (fails : r'.succeeded = false)
      (final : r'.isRetryable = false) : Effect s r r' act s
  | vanished {act : Act} (claims : act.claimed? = none) (counts : act.counted? = none)
      (gone : s.find? r.copy.id = none) (holds : r'.isHolding = false)
      (fails : r'.succeeded = false) (final : r'.isRetryable = false) : Effect s r r' act s
  | granted {stored : Record} {time : Instant} (there : s.find? r.copy.id = some stored)
      (same : stored.reservedAt = r.copy.reservedAt)
      (free : r.copy.isReservedWithin time r.worker.window = false) (held : r.isHolding = false)
      (holds : r'.isHolding = true) (fails : r'.succeeded = false)
      (final : r'.isRetryable = false) :
      Effect s r r' (.asked (.reserve r.copy.id r.copy.reservedAt time) (.ok true))
        (s.put (stored.reserve time))
  | deleted {stored : Record} (there : s.find? r.copy.id = some stored)
      (held : r.isHolding = true) (holds : r'.isHolding = false) (succeeds : r'.succeeded = true)
      (final : r'.isRetryable = false) :
      Effect s r r' (.asked (.delete r.copy.id) (.ok ())) (s.erase r.copy.id)
  | counted {stored : Record} {time : Instant} (there : s.find? r.copy.id = some stored)
      (held : r.isHolding = true) (holds : r'.isHolding = false) (fails : r'.succeeded = false)
      (retry : r'.isRetryable = true) :
      Effect s r r' (.asked (.recordFailure r.copy.id time) (.ok (stored.recordFailure time)))
        (s.put (stored.recordFailure time))

theorem Step.effect (step : r.Step now s act r' s') (sound : r.IsSound) :
    Effect s r r' act s' := by
  obtain ⟨stage, seen, rfl, change⟩ := step.change
  simp only [IsSound] at sound
  cases change with
  | invalid h _ | held h _ | ready h _ _ =>
    exact .quiet rfl rfl (by simp only [isHolding, h]; rfl) rfl rfl
  | missed h _ | lost h =>
    exact .quiet rfl rfl (by simp only [isHolding, h]; rfl) rfl rfl
  | beaten h _ _ => exact .quiet rfl rfl (by simp only [isHolding, h]; rfl) rfl rfl
  | @granted record stored time h there same =>
    rw [h] at sound
    obtain ⟨rfl, free, _⟩ := sound
    have held : r.isHolding = false := by simp only [isHolding, h]; rfl
    obtain ⟨_, _, _, next⟩ | ⟨_, next, _⟩ :=
      dispatch_cases r.worker r.handler? (r.copy.reserve time) <;> rw [next]
    · exact .granted there same free held rfl rfl rfl
    · exact .granted there same free held rfl rfl rfl
  | @judged record context _ _ verdict h =>
    obtain next | ⟨_, next, _⟩ := onVerdict_cases (η := η) record context verdict <;> rw [next]
    · exact .quiet rfl rfl (by simp only [isHolding, h]; rfl) rfl rfl
    · exact .quiet rfl rfl (by simp only [isHolding, h]; rfl) rfl rfl
  | undeleted h gone =>
    rw [h] at sound
    obtain ⟨time, rfl⟩ := sound
    exact .vanished rfl rfl gone rfl rfl rfl
  | deleted h there =>
    rw [h] at sound
    obtain ⟨time, rfl⟩ := sound
    exact .deleted there (by simp only [isHolding, h]; rfl) rfl rfl rfl
  | uncounted h gone =>
    rw [h] at sound
    obtain ⟨⟨time, rfl⟩, _⟩ := sound
    exact .vanished rfl rfl gone rfl rfl rfl
  | counted h there =>
    rw [h] at sound
    obtain ⟨⟨time, rfl⟩, retry⟩ := sound
    exact .counted there (by simp only [isHolding, h]; rfl) rfl rfl retry

theorem Effect.find?_other {id : String} (effect : Effect s r r' act s') (other : r.copy.id ≠ id) :
    s'.find? id = s.find? id := by
  cases effect with
  | quiet | vanished => rfl
  | granted there => rw [MemoryStore.find?_put_reserve there, if_neg other]
  | deleted => rw [Keyed.find?_erase, if_neg other]
  | counted there => rw [MemoryStore.find?_put_recordFailure there, if_neg other]

theorem Effect.id_of_claimed? {id : String} {time : Instant} (effect : Effect s r r' act s')
    (claims : act.claimed? = some (id, time)) : r.copy.id = id := by
  cases effect with
  | quiet none | vanished none => rw [none] at claims; cases claims
  | granted => exact congrArg Prod.fst (Option.some.inj claims)
  | deleted | counted => cases claims

end Worker.Run

namespace Shift

variable {η : Type} {sh sh' : Shift MemoryStore η} {d : Deed} {deeds : List Deed}

def IsSound (sh : Shift MemoryStore η) : Prop := ∀ r ∈ sh.runs, r.IsSound

theorem IsFresh.isSound (fresh : sh.IsFresh) : sh.IsSound :=
  fun r hr => Worker.Run.isSound_of_stage_none (fresh r hr)

theorem IsSound.step (sound : sh.IsSound) (step : Step sh d sh') : sh'.IsSound :=
  step.forall_mem sound fun sound hs => sound.step hs

theorem IsSound.trace (sound : sh.IsSound) (trace : Trace Step sh deeds sh') : sh'.IsSound :=
  trace.keeps IsSound.step sound

theorem Step.effect (step : Step sh d sh') (sound : sh.IsSound) :
    ∃ r r', sh.runs[d.run]? = some r ∧ sh'.runs = sh.runs.set d.run r' ∧
      r.Step d.time sh.store d.act r' sh'.store ∧ Worker.Run.Effect sh.store r r' d.act sh'.store := by
  cases step with
  | of h hs => exact ⟨_, _, h, rfl, hs, hs.effect (sound _ (List.mem_of_getElem? h))⟩

end Shift

end JobQueue
