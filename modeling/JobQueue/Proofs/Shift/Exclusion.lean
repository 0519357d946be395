import JobQueue.Proofs.Shift.Memory
import JobQueue.Proofs.Shift.Play
import JobQueue.Proofs.Time.Window

/-!
# When two runs hold one record

A claim keeps others away for its window: whoever claims the record next has waited for the
window, from a reservation that is the claim's own or younger (`Guard`). Only the count of a
failure gives a record free before that, and it frees whatever reservation is stored. So a run
that outlives its window and fails then lets a third run claim what a second one holds;
`second_claim_iff` says that nothing else does, and `not_claimsAreExclusive_lateFailure` that
this happens.
-/

namespace JobQueue

open Time (Instant Span)

namespace Shift

open Worker (Run)

variable {η : Type} {sh sh' start : Shift MemoryStore η} {d claim : Deed} {deeds later : List Deed}
  {id : String} {i : Nat} {t₀ t now : Instant} {window : Span}

-- ---------------------------------------------------------------------------
-- Runs with one window
-- ---------------------------------------------------------------------------

/-- Whether all runs reckon with one window, and claim at times outside leap seconds. -/
structure IsRegular (window : Span) (sh : Shift MemoryStore η) : Prop where
  sound : sh.IsSound
  windows : ∀ r ∈ sh.runs, r.worker.window = window
  times : ∀ r ∈ sh.runs, ∀ record time, r.stage = some (.claiming record time) →
    time.isLeapSecond = false

theorem IsFresh.isRegular (fresh : sh.IsFresh) (windows : ∀ r ∈ sh.runs, r.worker.window = window) :
    sh.IsRegular window where
  sound := fresh.isSound
  windows := windows
  times r hr record time ready := by
    rw [fresh r hr] at ready
    cases ready

theorem IsRegular.step (regular : sh.IsRegular window) (clock : d.time.isLeapSecond = false)
    (step : Step sh d sh') : sh'.IsRegular window where
  sound := regular.sound.step step
  windows := step.forall_mem regular.windows fun same hs => hs.worker_eq ▸ same
  times := step.forall_mem regular.times fun _ hs _ _ ready => hs.time_of_claiming ready ▸ clock

theorem IsRegular.trace (regular : sh.IsRegular window) (trace : Trace Step sh deeds sh')
    (clock : ∀ d ∈ deeds, d.time.isLeapSecond = false) : sh'.IsRegular window := by
  induction trace with
  | nil => exact regular
  | snoc _ last ih =>
    exact (ih fun d hd => clock d (List.mem_append_left _ hd)).step (clock _ (by simp)) last

-- ---------------------------------------------------------------------------
-- What a claim leaves behind
-- ---------------------------------------------------------------------------

def FreedByOther (later : List Deed) (i : Nat) (id : String) : Prop :=
  ∃ f ∈ later, f.run ≠ i ∧ f.act.counted? = some id

theorem FreedByOther.snoc (freed : FreedByOther later i id) : FreedByOther (later ++ [d]) i id := by
  obtain ⟨f, member, other⟩ := freed
  exact ⟨f, List.mem_append_left _ member, other⟩

/-- Whether a record is reserved since `t₀`, or since a time not within the window of `t₀`. -/
def IsKept (window : Span) (t₀ : Instant) (stored : Record) : Prop :=
  ∃ since, stored.reservedAt = some since ∧ since.isLeapSecond = false ∧
    (since = t₀ ∨ window.nanoseconds ≤ since.since t₀)

/-- Whoever claims a kept record, claims it after the window. -/
theorem IsKept.le_since {r stored : Record} (kept : IsKept window t₀ stored)
    (same : stored.reservedAt = r.reservedAt) (free : r.isReservedWithin t window = false)
    (ht : t.isLeapSecond = false) (ht₀ : t₀.isLeapSecond = false) :
    window.nanoseconds ≤ t.since t₀ := by
  obtain ⟨since, reserved, hsince, age⟩ := kept
  have waited := Record.isReservedWithin_eq_false_iff.mp free since (same ▸ reserved)
  rcases age with rfl | age
  · exact waited
  · have := Instant.since_add ht hsince ht₀
    omega

/-- How a record stands after run `i` claimed it at `t₀`: that run is over, or another one has
counted a failure, or the record is kept as long as it is there. -/
inductive Guard (window : Span) (t₀ : Instant) (i : Nat) (id : String) (later : List Deed)
    (sh : Shift MemoryStore η) : Prop
  | ended {r : Run η} (h : sh.runs[i]? = some r) (ended : r.outcome?.isSome = true)
  | freed {r : Run η} (h : sh.runs[i]? = some r) (held : r.isHolding = true)
      (other : FreedByOther later i id)
  | kept {r : Run η} (h : sh.runs[i]? = some r) (held : r.isHolding = true)
      (own : r.copy.id = id)
      (kept : ∀ stored, sh.store.find? id = some stored → IsKept window t₀ stored)

theorem Guard.step_own (guard : Guard window t₀ d.run id later sh) (sound : sh.IsSound)
    (step : Step sh d sh') : Guard window t₀ d.run id (later ++ [d]) sh' := by
  obtain ⟨r, r', h, moved, hs, effect⟩ := step.effect sound
  have now : sh'.runs[d.run]? = some r' := by
    rw [moved, List.getElem?_set_self (List.getElem?_eq_some_iff.mp h).1]
  have running := hs.outcome?_eq_none
  cases guard with
  | ended was ended =>
    obtain rfl := Option.some.inj (h.symm.trans was)
    simp [running] at ended
  | freed was held other =>
    obtain rfl := Option.some.inj (h.symm.trans was)
    rcases hs.holding held with held | ended
    · exact .freed now held other.snoc
    · exact .ended now ended
  | kept was held own kept =>
    obtain rfl := Option.some.inj (h.symm.trans was)
    rcases hs.holding held with still | ended
    · refine .kept now still (hs.copy_eq ▸ own) ?_
      generalize sh'.store = s' at effect
      generalize d.act = act at effect
      cases effect with
      | quiet => exact kept
      | vanished _ _ _ holds | deleted _ _ holds | counted _ _ holds =>
        rw [holds] at still
        cases still
      | granted _ _ _ idle =>
        rw [idle] at held
        cases held
    · exact .ended now ended

/-- A step of another run keeps the guard: it finds the record as it was, claims it after the
window, deletes it, or counts a failure. -/
theorem Guard.step_other (guard : Guard window t₀ i id later sh) (regular : sh.IsRegular window)
    (ht₀ : t₀.isLeapSecond = false) (step : Step sh d sh') (other : d.run ≠ i) :
    Guard window t₀ i id (later ++ [d]) sh' := by
  obtain ⟨r', r'', h', moved, hs, effect⟩ := step.effect regular.sound
  have same : sh'.runs[i]? = sh.runs[i]? := by rw [moved, List.getElem?_set_ne other]
  cases guard with
  | ended h ended => exact .ended (same.trans h) ended
  | freed h held freed => exact .freed (same.trans h) held freed.snoc
  | kept h held own kept =>
    by_cases its : r'.copy.id = id
    · subst its
      generalize hact : d.act = act at effect
      generalize hstore : sh'.store = s' at effect
      cases effect with
      | quiet | vanished => exact .kept (same.trans h) held own (hstore ▸ kept)
      | @granted stored time there unchanged free =>
        refine .kept (same.trans h) held own ?_
        intro after now
        rw [hstore, MemoryStore.find?_put_reserve there, if_pos rfl] at now
        obtain rfl := Option.some.inj now
        have claims : d.act.claimed? = some (r'.copy.id, time) := by rw [hact]; rfl
        obtain ⟨record, ready, _⟩ := hs.claiming claims
        have member := List.mem_of_getElem? h'
        have htime := regular.times r' member record time ready
        rw [regular.windows r' member] at free
        exact ⟨time, rfl, htime, .inr ((kept stored there).le_since unchanged free htime ht₀)⟩
      | deleted there =>
        refine .kept (same.trans h) held own ?_
        intro after now
        rw [hstore, Keyed.find?_erase, if_pos rfl] at now
        cases now
      | counted =>
        exact .freed (same.trans h) held ⟨d, by simp, other, by rw [hact]; rfl⟩
    · exact .kept (same.trans h) held own (effect.find?_other its ▸ kept)

theorem Guard.trace (guard : Guard window t₀ i id [] sh) (regular : sh.IsRegular window)
    (ht₀ : t₀.isLeapSecond = false) (trace : Trace Step sh later sh')
    (clock : ∀ d ∈ later, d.time.isLeapSecond = false) : Guard window t₀ i id later sh' := by
  induction trace with
  | nil => exact guard
  | @snoc t u later d before last ih =>
    have earlier : ∀ f ∈ later, f.time.isLeapSecond = false :=
      fun f hf => clock f (List.mem_append_left _ hf)
    have regular := regular.trace before earlier
    by_cases own : d.run = i
    · subst own
      exact (ih earlier).step_own regular.sound last
    · exact (ih earlier).step_other regular ht₀ last own

theorem Guard.of_claim (regular : sh.IsRegular window) (step : Step sh claim sh')
    (claimed : claim.act.claimed? = some (id, t₀)) :
    Guard window t₀ claim.run id [] sh' ∧ t₀.isLeapSecond = false := by
  obtain ⟨r, r', h, moved, hs, effect⟩ := step.effect regular.sound
  have now : sh'.runs[claim.run]? = some r' := by
    rw [moved, List.getElem?_set_self (List.getElem?_eq_some_iff.mp h).1]
  obtain ⟨record, ready, _⟩ := hs.claiming claimed
  have ht₀ := regular.times r (List.mem_of_getElem? h) record t₀ ready
  have own := effect.id_of_claimed? claimed
  generalize claim.act = act at effect claimed
  generalize hstore : sh'.store = s' at effect
  cases effect with
  | quiet none | vanished none => rw [none] at claimed; cases claimed
  | deleted | counted => cases claimed
  | @granted stored time there _ _ _ holds =>
    obtain ⟨rfl, rfl⟩ := Prod.mk.inj (Option.some.inj claimed)
    refine ⟨.kept now holds (congrArg Record.id hs.copy_eq) ?_, ht₀⟩
    intro after found
    rw [hstore, MemoryStore.find?_put_reserve there, if_pos rfl] at found
    obtain rfl := Option.some.inj found
    exact ⟨time, rfl, ht₀, .inl rfl⟩

-- ---------------------------------------------------------------------------
-- The second claim
-- ---------------------------------------------------------------------------

/-- A claim is granted exactly if the reservation is the expected one. -/
theorem step_granted_iff {r : Run η} {record : Record} (h : sh.runs[i]? = some r)
    (ready : r.stage = some (.claiming record t)) :
    (∃ sh', Step sh ⟨i, now, .asked (.reserve record.id record.reservedAt t) (.ok true)⟩ sh') ↔
      ∃ stored, sh.store.find? record.id = some stored ∧
        stored.reservedAt = record.reservedAt := by
  constructor
  · rintro ⟨sh', step⟩
    generalize hact : Worker.Act.asked (.reserve record.id record.reservedAt t) (.ok true) = act
      at step
    have claims : act.claimed? = some (record.id, t) := by rw [← hact]; rfl
    clear hact
    cases step with
    | of h' hs =>
      obtain rfl := Option.some.inj (h.symm.trans h')
      obtain ⟨stage, seen, rfl, change⟩ := hs.change
      cases change with
      | granted ready' there same =>
        obtain ⟨rfl, rfl⟩ := Worker.Stage.claiming.inj (Option.some.inj (ready.symm.trans ready'))
        exact ⟨_, there, same⟩
      | _ => cases claims
  · rintro ⟨stored, there, same⟩
    have answer : (RecordStore.answer now (.reserve record.id record.reservedAt t) sh.store).1 =
        .ok true := congrArg Prod.fst (MemoryStore.reserve_same there same)
    rw [← answer]
    exact ⟨_, .of h (.ask ready rfl)⟩

/-- While a run holds a record within the window of its claim, the record is claimed again exactly
if another run has counted a failure since, and left the reservation that is expected. -/
theorem second_claim_iff {s₁ s₂ : Shift MemoryStore η} {earlier : List Deed} {r₀ r : Run η}
    {record : Record} (fresh : start.IsFresh)
    (windows : ∀ r ∈ start.runs, r.worker.window = window)
    (before : Trace Step start earlier s₁) (step : Step s₁ claim s₂)
    (after : Trace Step s₂ later sh)
    (clock : ∀ d ∈ earlier ++ claim :: later, d.time.isLeapSecond = false)
    (claimed : claim.act.claimed? = some (record.id, t₀))
    (holder : sh.runs[claim.run]? = some r₀) (held : r₀.isHolding = true)
    (h : sh.runs[i]? = some r) (ready : r.stage = some (.claiming record t))
    (young : t.since t₀ < window.nanoseconds) :
    (∃ sh', Step sh ⟨i, now, .asked (.reserve record.id record.reservedAt t) (.ok true)⟩ sh') ↔
      FreedByOther later claim.run record.id ∧
        ∃ stored, sh.store.find? record.id = some stored ∧
          stored.reservedAt = record.reservedAt := by
  rw [step_granted_iff h ready, iff_and_self]
  rintro ⟨stored, there, same⟩
  have clocks : ∀ d ∈ later, d.time.isLeapSecond = false := fun d hd => clock d (by simp [hd])
  -- the claim leaves a guard behind, which the steps after it keep
  have regular := (fresh.isRegular windows).trace before fun d hd => clock d (by simp [hd])
  obtain ⟨guard, ht₀⟩ := Guard.of_claim regular step claimed
  have regular := regular.step (clock claim (by simp)) step
  have guard := guard.trace regular ht₀ after clocks
  have regular := regular.trace after clocks
  cases guard with
  | ended h₀ ended =>
    obtain rfl := Option.some.inj (holder.symm.trans h₀)
    rw [Run.isHolding_of_outcome? ended] at held
    cases held
  | freed _ _ other => exact other
  | kept _ _ _ kept =>
    have member := List.mem_of_getElem? h
    have sound := regular.sound r member
    simp only [Run.IsSound, ready] at sound
    obtain ⟨rfl, free, _⟩ := sound
    rw [regular.windows r member] at free
    have := (kept stored there).le_since same free (regular.times r member _ t ready) ht₀
    omega

/-- Three runs on one record: the first begins long before the second, and fails while the second
works. -/
def lateFailure : Shift MemoryStore Unit :=
  let record : Record :=
    ⟨"a", queueCollection, "\x7b\"type\":\"mail\"\x7d", 0, none, .epoch, .epoch⟩
  let run (worker : Nat) : Record → Run Unit := .fresh ⟨worker, defaultWindow⟩ (fun _ => some ())
  let claimed := record.reserve .epoch
  let freed := (claimed.reserve (.ofSecond 301)).recordFailure (.ofSecond 302)
  ⟨Keyed.empty.put record, [run 0 record, run 1 claimed, run 2 freed]⟩

/-- The second run claims at second 301, the first fails at 302, the third claims at 303. -/
def lateFailureCues : List Cue :=
  [⟨0, .epoch, .succeeded⟩, ⟨0, .epoch, .succeeded⟩, ⟨1, .ofSecond 301, .succeeded⟩,
   ⟨1, .ofSecond 301, .succeeded⟩, ⟨0, .ofSecond 302, .failed "no"⟩,
   ⟨0, .ofSecond 302, .succeeded⟩, ⟨2, .ofSecond 303, .succeeded⟩,
   ⟨2, .ofSecond 303, .succeeded⟩]

def wasFreedLate (deeds : List Deed) (sh : Shift MemoryStore Unit) : Bool :=
  match deeds, (sh.runs[2]?).bind Run.stage with
  | [_, _, _, claim, _, count, _], some (Worker.Stage.claiming record time) =>
    (∀ d ∈ deeds, d.time.isLeapSecond = false) ∧
      claim.act.claimed? = some (record.id, .ofSecond 301) ∧ time = .ofSecond 303 ∧
      count.run ≠ claim.run ∧ count.act.counted? = some record.id ∧
      (sh.runs[claim.run]?).any Run.isHolding ∧
      (sh.store.find? record.id).any (·.reservedAt = record.reservedAt)
  | _, _ => false

theorem second_claim_lateFailure : ∃ (s₁ s₂ sh sh' : Shift MemoryStore Unit)
    (earlier later : List Deed) (claim : Deed) (record : Record),
    Trace Step lateFailure earlier s₁ ∧ Step s₁ claim s₂ ∧ Trace Step s₂ later sh ∧
    claim.act.claimed? = some (record.id, .ofSecond 301) ∧
    FreedByOther later claim.run record.id ∧
    Step sh ⟨2, .ofSecond 303, .asked (.reserve record.id record.reservedAt (.ofSecond 303))
      (.ok true)⟩ sh' := by
  have checked : (Trace.play? cue? lateFailure (lateFailureCues.take 7)).any fun played =>
      wasFreedLate played.1 played.2 := by
    decide +kernel
  obtain ⟨deeds, sh, trace, holds⟩ := Trace.exists_of_play? step_of_cue? checked
  dsimp only at holds
  unfold wasFreedLate at holds
  split at holds
  · next d₁ d₂ d₃ claim d₅ count d₇ record time stage =>
    simp only [decide_eq_true_eq, Option.any_eq_true] at holds
    obtain ⟨clock, claimed, rfl, other, counted, ⟨r₀, holder, held⟩, stored⟩ := holds
    obtain ⟨r, h, ready⟩ := Option.bind_eq_some_iff.mp stage
    have trace : Trace Step lateFailure (([d₁, d₂, d₃] ++ [claim]) ++ [d₅, count, d₇]) sh := trace
    obtain ⟨s₂, before, after⟩ := trace.cut
    obtain ⟨s₁, before, step⟩ := before.snoc_cases
    have freed : FreedByOther [d₅, count, d₇] claim.run record.id :=
      ⟨count, by simp, other, counted⟩
    have young : (Instant.ofSecond 303).since (.ofSecond 301) < defaultWindow.nanoseconds := by
      decide
    obtain ⟨sh', again⟩ := (second_claim_iff (by decide) (by decide) before step after clock
      claimed holder held h ready young).mpr ⟨freed, stored⟩
    exact ⟨s₁, s₂, sh, sh', _, _, claim, record, before, step, after, claimed, freed, again⟩
  · cases holds

-- ---------------------------------------------------------------------------
-- A failure that comes late
-- ---------------------------------------------------------------------------

/-- Whether the run, if it has yet to begin, has just fetched its copy. -/
def HasFetched (sh : Shift MemoryStore η) (i : Nat) : Prop :=
  ∀ r ∈ sh.runs[i]?, r.stage = none → sh.store.find? r.copy.id = some r.copy

instance : Decidable (sh.HasFetched i) :=
  inferInstanceAs (Decidable (∀ r ∈ sh.runs[i]?, _))

def fetchCue? (sh : Shift MemoryStore η) (c : Cue) : Option (Deed × Shift MemoryStore η) :=
  if sh.HasFetched c.run then sh.cue? c else none

theorem step_of_fetchCue? {c : Cue} (cue : sh.fetchCue? c = some (d, sh')) :
    sh.HasFetched d.run ∧ Step sh d sh' := by
  unfold fetchCue? at cue
  split at cue
  · next fetched =>
    exact ⟨run_of_cue? cue ▸ fetched, step_of_cue? cue⟩
  · cases cue

/-- Whether no claim is granted within the window of one whose run still holds the record, when
all runs begin on copies that they have just fetched and the clock never goes back. -/
def ClaimsAreExclusive (start : Shift MemoryStore η) (window : Span) : Prop :=
  ∀ (earlier later : List Deed) (claim last : Deed) (sh : Shift MemoryStore η) (id : String)
    (t₀ t : Instant) (r₀ : Run η),
    Trace (fun sh d sh' => sh.HasFetched d.run ∧ Step sh d sh') start
      (earlier ++ claim :: later ++ [last]) sh →
    ((earlier ++ claim :: later ++ [last]).map Deed.time).Pairwise (· ≤ ·) →
    claim.act.claimed? = some (id, t₀) → last.act.claimed? = some (id, t) →
    last.run ≠ claim.run → t.since t₀ < window.nanoseconds →
    sh.runs[claim.run]? = some r₀ → r₀.isHolding = false

def wasClaimedTwice (deeds : List Deed) (sh : Shift MemoryStore Unit) : Bool :=
  match deeds with
  | [_, _, _, claim, _, _, _, last] =>
    (deeds.map Deed.time).Pairwise (· ≤ ·) ∧
      claim.act.claimed? = some ("a", .ofSecond 301) ∧
      last.act.claimed? = some ("a", .ofSecond 303) ∧ last.run ≠ claim.run ∧
      (sh.runs[claim.run]?).any Run.isHolding
  | _ => false

theorem not_claimsAreExclusive_lateFailure : lateFailure.IsFresh ∧
    (∀ r ∈ lateFailure.runs, r.worker.window = defaultWindow) ∧
    ¬ ClaimsAreExclusive lateFailure defaultWindow := by
  refine ⟨by decide, by decide, fun exclusive => ?_⟩
  have checked : (Trace.play? fetchCue? lateFailure lateFailureCues).any fun played =>
      wasClaimedTwice played.1 played.2 := by
    decide +kernel
  obtain ⟨deeds, sh, trace, holds⟩ := Trace.exists_of_play? step_of_fetchCue? checked
  dsimp only at holds
  unfold wasClaimedTwice at holds
  split at holds
  · next d₁ d₂ d₃ claim d₅ d₆ d₇ last =>
    simp only [decide_eq_true_eq, Option.any_eq_true] at holds
    obtain ⟨times, claimed, again, other, r₀, holder, held⟩ := holds
    have free := exclusive [d₁, d₂, d₃] [d₅, d₆, d₇] claim last sh "a" _ _ r₀ trace times claimed
      again other (by decide) holder
    rw [held] at free
    cases free
  · cases holds

end Shift

end JobQueue
