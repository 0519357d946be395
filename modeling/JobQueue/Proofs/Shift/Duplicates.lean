import JobQueue.Proofs.Shift.Memory
import JobQueue.Proofs.Time.Window

/-!
# Runs on copies of one record

Runs that were given the same copy of a record all expect the reservation that the copy shows. The
first claim replaces it by another time, so nobody else claims the record until a failure gives
it free (`Sole`); a success takes it away for good.
-/

namespace JobQueue

open Time (Instant)

namespace Shift

open Worker (Run)

variable {η : Type} {sh sh' start : Shift MemoryStore η} {d : Deed} {deeds : List Deed}
  {record : Record}

/-- Whether all runs work on the same copy, which shows no reservation or one that wears off. -/
structure AreDuplicates (record : Record) (sh : Shift MemoryStore η) : Prop where
  sound : sh.IsSound
  copies : ∀ r ∈ sh.runs, r.copy = record
  windows : record.reservedAt ≠ none → ∀ r ∈ sh.runs, 0 < r.worker.window.nanoseconds

theorem AreDuplicates.step (dup : AreDuplicates record sh) (step : Step sh d sh') :
    AreDuplicates record sh' where
  sound := dup.sound.step step
  copies := step.forall_mem dup.copies fun copy hs => hs.copy_eq.trans copy
  windows reserved := step.forall_mem (dup.windows reserved) fun window hs => hs.worker_eq ▸ window

theorem AreDuplicates.trace (dup : AreDuplicates record sh) (trace : Trace Step sh deeds sh') :
    AreDuplicates record sh' :=
  trace.keeps AreDuplicates.step dup

-- ---------------------------------------------------------------------------
-- One at a time
-- ---------------------------------------------------------------------------

/-- Whether no run but `holder` holds the record, nobody can claim it meanwhile, and nothing is
left of it once a run has succeeded. -/
structure Sole (record : Record) (holder : Option Nat) (sh : Shift MemoryStore η) : Prop where
  holds : ∀ {i : Nat} {r : Run η}, sh.runs[i]? = some r → (r.isHolding = true ↔ holder = some i)
  taken : ∀ {stored : Record}, holder.isSome → sh.store.find? record.id = some stored →
    stored.reservedAt ≠ record.reservedAt
  gone : ∀ {i : Nat} {r : Run η}, sh.runs[i]? = some r → r.succeeded = true →
    sh.store.find? record.id = none

theorem IsFresh.sole (fresh : sh.IsFresh) : Sole record none sh := by
  have idle {i : Nat} {r : Run η} (h : sh.runs[i]? = some r) : r.stage = none :=
    fresh r (List.mem_of_getElem? h)
  refine ⟨fun h => ?_, fun some => ?_, fun h succeeded => ?_⟩
  · simp [Run.isHolding, idle h]
  · cases some
  · simp [Run.succeeded, Run.outcome?, idle h] at succeeded

theorem Sole.move {holder holder' : Option Nat} {i : Nat} {r r' : Run η}
    (sole : Sole record holder sh) (h : sh.runs[i]? = some r)
    (moved : sh'.runs = sh.runs.set i r') (mover : r'.isHolding = true ↔ holder' = some i)
    (others : ∀ j, j ≠ i → (holder = some j ↔ holder' = some j))
    (taken : ∀ stored, holder'.isSome → sh'.store.find? record.id = some stored →
      stored.reservedAt ≠ record.reservedAt)
    (fails : r'.succeeded = true → sh'.store.find? record.id = none)
    (gone : sh.store.find? record.id = none → sh'.store.find? record.id = none) :
    Sole record holder' sh' := by
  have at_ := getElem?_moved h moved
  refine ⟨@fun j r'' hj => ?_, fun some there => taken _ some there, @fun j r'' hj succeeded => ?_⟩
  · rw [at_] at hj
    split at hj
    · next same =>
      subst same
      obtain rfl := Option.some.inj hj
      exact mover
    · next differ => exact (sole.holds hj).trans (others j (Ne.symm differ))
  · rw [at_] at hj
    split at hj
    · obtain rfl := Option.some.inj hj
      exact fails succeeded
    · exact gone (sole.gone hj succeeded)

theorem Sole.step {holder : Option Nat} (sole : Sole record holder sh)
    (dup : AreDuplicates record sh) (step : Step sh d sh') : ∃ holder', Sole record holder' sh' := by
  obtain ⟨r, r', h, moved, hs, effect⟩ := step.effect dup.sound
  have member := List.mem_of_getElem? h
  obtain rfl := dup.copies r member
  generalize d.act = act at effect
  generalize hstore : sh'.store = s' at effect
  cases effect with
  | quiet _ _ holds fails =>
    exact ⟨holder, sole.move h moved (holds ▸ sole.holds h) (fun _ _ => Iff.rfl)
      (fun _ some there => sole.taken some (hstore ▸ there)) (by simp [fails])
      (hstore ▸ id)⟩
  | vanished _ _ gone holds fails =>
    have gone : sh'.store.find? r.copy.id = none := hstore ▸ gone
    refine ⟨if holder = some d.run then none else holder, sole.move h moved ?_ ?_ ?_ ?_ ?_⟩
    · split <;> simp_all
    · intro j other
      split <;> simp_all [Ne.symm other]
    · simp [gone]
    · simp [fails]
    · exact fun _ => gone
  | @granted stored time there same free held holds fails =>
    have nobody : holder = none := by
      cases holder with
      | none => rfl
      | some i => exact absurd same (sole.taken rfl there)
    have now : sh'.store.find? r.copy.id = some (stored.reserve time) := by
      rw [hstore, MemoryStore.find?_put_reserve there, if_pos rfl]
    have other := Record.reservedAt_ne free fun reserved => dup.windows reserved r member
    refine ⟨some d.run, sole.move h moved (by simp [holds]) ?_ ?_ ?_ ?_⟩
    · intro j differ
      simp [nobody, Ne.symm differ]
    · rintro after _ found
      obtain rfl := Option.some.inj (now.symm.trans found)
      exact Ne.symm other
    · simp [fails]
    · simp [there]
  | deleted there held holds =>
    have gone : sh'.store.find? r.copy.id = none := by
      rw [hstore, Keyed.find?_erase, if_pos rfl]
    have its := (sole.holds h).mp held
    refine ⟨none, sole.move h moved (by simp [holds]) ?_ ?_ ?_ ?_⟩
    · intro j differ
      simp [its, Ne.symm differ]
    · rintro _ some
      cases some
    · exact fun _ => gone
    · exact fun _ => gone
  | counted there held holds fails =>
    have its := (sole.holds h).mp held
    refine ⟨none, sole.move h moved (by simp [holds]) ?_ ?_ ?_ ?_⟩
    · intro j differ
      simp [its, Ne.symm differ]
    · rintro _ some
      cases some
    · simp [fails]
    · simp [there]

theorem Sole.trace {holder : Option Nat} (sole : Sole record holder sh)
    (dup : AreDuplicates record sh) (trace : Trace Step sh deeds sh') :
    ∃ holder', Sole record holder' sh' := by
  induction trace with
  | nil => exact ⟨holder, sole⟩
  | snoc before last ih =>
    obtain ⟨_, sole⟩ := ih
    exact sole.step (dup.trace before) last

theorem claimed?_of_gone (dup : AreDuplicates record sh) (gone : sh.store.find? record.id = none)
    (step : Step sh d sh') : d.act.claimed? = none ∧ sh'.store.find? record.id = none := by
  obtain ⟨r, r', h, _, _, effect⟩ := step.effect dup.sound
  obtain rfl := dup.copies r (List.mem_of_getElem? h)
  generalize d.act = act at effect
  generalize sh'.store = s' at effect
  cases effect with
  | quiet claims | vanished claims => exact ⟨claims, gone⟩
  | granted there | deleted there | counted there =>
    rw [gone] at there
    cases there

theorem claimed?_of_trace (dup : AreDuplicates record sh)
    (gone : sh.store.find? record.id = none) (trace : Trace Step sh deeds sh') :
    (∀ d ∈ deeds, d.act.claimed? = none) ∧ sh'.store.find? record.id = none := by
  induction trace with
  | nil => exact ⟨by simp, gone⟩
  | snoc before last ih =>
    obtain ⟨claims, gone⟩ := ih
    obtain ⟨claim, gone⟩ := claimed?_of_gone (dup.trace before) gone last
    refine ⟨?_, gone⟩
    intro d hd
    rcases List.mem_append.mp hd with hd | hd
    · exact claims d hd
    · rwa [List.mem_singleton.mp hd]

end Shift

end JobQueue
