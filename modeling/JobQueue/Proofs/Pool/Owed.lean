import JobQueue.Proofs.Pool.Late

/-!
# What a batch has yet to get

For every open slot of the batch whose turn it is a record or a report of its job is on its way, as
long as the pool was not asked to shut down (`Watched.isOwed_of_trace`). So the batch gets on, even
if waits of it have run out (`Watched.IsOwed.exists_quiet`), and once no job is queued or running it
only collects (`Watched.Change.isJobless`).
-/

namespace JobQueue

open Time (Instant)

namespace Collection

variable {c c' : Collection} {n : Notice} {i : Nat} {id : String} {o : Outcome}

theorem length_openSlots_ofRecords {batch : Nat} {records : List Record} :
    ((ofRecords batch records).openSlots id).length = records.countP fun r => r.id == id := by
  have each := countP_range_getElem? (fun name => name == id) (records.map Record.id)
  rw [List.countP_map] at each
  rw [← (isKept_ofRecords batch records).pending, ofRecords, Pending.slotsOf_ofJobIds,
    ← List.countP_eq_length_filter]
  refine Eq.trans (List.countP_congr fun i inside => ?_) each
  rw [List.getElem?_eq_getElem (List.mem_range.mp inside)]
  simp

theorem Closes.openSlots (closes : c.Closes c' i o) (kept : c.IsKept) (isOpen : c.IsOpen i) :
    c'.openSlots id = (c.openSlots id).filter (· ≠ i) := by
  rw [← (closes.isKept kept isOpen).pending, closes.pending, kept.pending]

theorem IsKept.batch_note (kept : c.IsKept) (noted : c.note? n = some c') : c'.batch = c.batch := by
  rcases kept.note?_cases noted with ⟨rfl, _⟩ | ⟨_, _, closes⟩
  · rfl
  · exact closes.batch

def told (c : Collection) (id : String) (n : Notice) : Nat :=
  n.reports.countP fun r => r.batch == c.batch && r.jobId == id

theorem IsKept.length_openSlots_note (kept : c.IsKept) (noted : c.note? n = some c') :
    (c'.openSlots id).length ≤ (c.openSlots id).length - c.told id n := by
  cases target : c.target? n with
  | none =>
    cases n with
    | timeout =>
      rw [target?] at target
      simp [note?, expire?, target] at noted
    | report r =>
      obtain rfl := Option.some.inj noted
      rw [receive_of_target? target]
      by_cases its : r.batch = c.batch ∧ r.jobId = id
      · obtain ⟨own, rfl⟩ := its
        rw [target?, if_pos own, kept.pending, List.head?_eq_none_iff] at target
        simp [target]
      · simp [told, Notice.reports, its]
  | some i =>
    obtain ⟨c'', noted', closes⟩ := kept.note?_closes target
    obtain rfl := Option.some.inj (noted.symm.trans noted')
    obtain ⟨isOpen, wants, _⟩ := kept.target?_eq_some_iff.mp target
    rw [closes.openSlots kept isOpen]
    by_cases mine : i ∈ c.openSlots id
    · have fewer : ((c.openSlots id).filter (· ≠ i)).length < (c.openSlots id).length :=
        List.length_filter_lt_length_iff_exists.mpr ⟨i, mine, by simp⟩
      have one : c.told id n ≤ 1 := by
        cases n with
        | timeout => exact Nat.zero_le 1
        | report r => exact List.countP_le_length
      omega
    · have none : c.told id n = 0 := by
        cases n with
        | timeout => rfl
        | report r =>
          have other : ¬ (r.batch = c.batch ∧ r.jobId = id) := by
            rintro ⟨_, rfl⟩
            exact mine (mem_openSlots.mpr ⟨wants.2, isOpen⟩)
          simp [told, Notice.reports, other]
      rw [none]
      exact List.length_filter_le _ _

end Collection

namespace Floor

variable {σ : Type} {f : Floor σ}

/-- Whether a record or a report is on its way for each open slot of a batch, and one is open. -/
structure Owes (f : Floor σ) (c : Collection) : Prop where
  kept : c.IsKept
  waits : c.isComplete = false
  backed : ∀ id, (c.openSlots id).length ≤
    f.cargo fun batch jobId => batch == c.batch && jobId == id

/-- Whether no job is queued or running: all that is left is to be reported. -/
structure IsJobless (f : Floor σ) : Prop where
  fed : ∀ g, f.feeder = some g → g.rest = [] ∧ ∃ r, g.load = .report r
  queue : f.queue = []
  rests : ∀ st ∈ f.seats, st.isBusy = false

/-- In a pool that takes batches the workers are to stay. -/
theorem IsOrderly.isServing (orderly : f.IsOrderly) (accepts : f.accepting = true) :
    f.IsServing := by
  have closing : f.closing = .notAsked := orderly.asked.mp accepts
  have stopping : f.stopping = false := by
    rw [Bool.eq_false_iff]
    intro told
    cases closing.symm.trans (orderly.told told)
  refine ⟨accepts, stopping, closing, fun none => ?_, fun gone => ?_⟩
  · have count : f.seats.length = 0 := congrArg List.length none
    have staffed := orderly.staffed
    have some := f.settings.workerCount_pos
    omega
  · rcases orderly.left gone with told | ⟨closed, _⟩
    · cases stopping.symm.trans told
    · cases accepts.symm.trans closed

end Floor

namespace Watched

open Pool (Beat Move)

variable {σ : Type} {w w' : Watched σ}

def IsOwed (w : Watched σ) : Prop :=
  ∀ ticket c, w.pool.collecting? = some (ticket, c) → w.floor.Owes c

variable [RecordStore σ] {b : Beat} {beats : List Beat} {settings : Settings}
  {registry : Registry (Handler σ)}

theorem IsOwed.exists_quiet (owed : w.IsOwed) (manned : w.floor.IsManned)
    (serving : w.floor.IsServing) {t : Turn} (its : w.pool.turn = some t) (now : Instant) (s : σ) :
    ∃ m next, m.isQuiet = true ∧ w.pool.step? now s m = some next := by
  obtain ⟨kept, waits, backed⟩ := owed _ _ (congrArg (Option.map _) its)
  obtain ⟨i, isOpen⟩ := kept.isComplete_eq_false_iff.mp waits
  have inside : i < t.collection.jobIds.length := by
    rw [← kept.length]
    exact (List.getElem?_eq_some_iff.mp isOpen).1
  have member : i ∈ t.collection.openSlots t.collection.jobIds[i] :=
    Collection.mem_openSlots.mpr ⟨List.getElem?_eq_getElem inside, isOpen⟩
  have cargo := Nat.lt_of_lt_of_le (List.length_pos_of_mem member) (backed _)
  exact Watched.exists_quiet manned serving (by simp [its]) cargo now s

theorem Step.cargo_eq {wanted : Nat → String → Bool} (step : Step w b w')
    (stays : ∀ {seat : Nat}, w'.floor.seats[seat]? ≠ some .left) (later : b.move ≠ .begin)
    (silent : b.notice = none) : w'.floor.cargo wanted = w.floor.cargo wanted := by
  cases step with
  | of h =>
    have change := change_of_step? h
    refine change.cargo_eq (fun seat leaves => ?_) later silent
    subst leaves
    exact stays change.left_of_leave

omit [RecordStore σ] in
theorem owes_begun {p : Pool σ} {ds : List (Duty σ)} {line : List Submission}
    {batch nextBatch ticket : Nat} {records : List Record} (filled : records ≠ []) :
    (floor ⟨{ p with
      line
      nextBatch
      turn := some ⟨ticket, .ofRecords batch records, Feeder.ofRecords? batch records⟩ }, ds⟩).Owes
      (.ofRecords batch records) := by
  refine ⟨Collection.isKept_ofRecords batch records, ?_, fun id => ?_⟩
  · simpa [Collection.ofRecords, Collection.isComplete] using filled
  · let wanted : Nat → String → Bool := fun batch' jobId => batch' == batch && jobId == id
    have brings : (Feeder.ofRecords? batch records).elim 0 (Feeder.cargo wanted) =
        records.countP fun record => wanted batch record.id := Feeder.cargo_ofRecords?
    simp only [wanted, beq_self_eq_true, Bool.true_and] at brings
    rw [Collection.length_openSlots_ofRecords, ← brings]
    simp only [Floor.cargo, floor, Pool.feeder?, Option.bind_some, Nat.add_assoc]
    exact Nat.le_add_right _ _

omit [RecordStore σ] in
theorem owes_settle {p : Pool σ} {ds ds' : List (Duty σ)} {t : Turn} {n : Notice}
    {c c' : Collection} {results : List Report} {ticket : Nat}
    (owes : (floor ⟨p, ds⟩).Owes t.collection) (its : p.turn = some t)
    (taken : p.results = n.reports ++ results) (noted : t.collection.note? n = some c)
    (collects : ({ p with results }.settle t c).1.collecting? = some (ticket, c')) :
    (floor ⟨({ p with results }.settle t c).1, ds'⟩).Owes c' := by
  obtain rfl := Pool.collecting?_settle collects
  unfold Pool.settle at collects ⊢
  split at collects
  · cases collects
  · next waits =>
    rw [if_neg waits]
    refine ⟨owes.kept.note noted, Bool.eq_false_iff.mpr waits, fun id => ?_⟩
    have fewer : (c'.openSlots id).length ≤ _ := owes.kept.length_openSlots_note noted
    have backed := owes.backed id
    rw [owes.kept.batch_note noted]
    simp only [Floor.cargo, floor, Pool.feeder?, its, taken, Option.bind_some,
      List.countP_append] at backed ⊢
    simp only [Collection.told] at fewer
    omega

theorem Step.isOwed (step : Step w b w')
    (stays : ∀ {seat : Nat}, w'.floor.seats[seat]? ≠ some .left)
    (filled : ∀ next ∈ w.pool.line, next.records ≠ []) (owed : w.IsOwed) : w'.IsOwed := by
  intro ticket c collecting
  have effect := step.pool.effect
  have same (wanted : Nat → String → Bool) (later : b.move ≠ .begin) (silent : b.notice = none) :
      w'.floor.cargo wanted = w.floor.cargo wanted := step.cargo_eq stays later silent
  obtain ⟨p, ds⟩ := w
  obtain ⟨p', ds'⟩ := w'
  dsimp only at effect collecting
  cases effect with
  | submitted =>
    have owes := owed ticket c (Pool.collecting?_submit ▸ collecting)
    exact ⟨owes.kept, owes.waits, fun id => (owes.backed id).trans_eq (same _ (by simp) rfl).symm⟩
  | @begun _ next rest idle first =>
    cases collecting
    exact owes_begun (filled next (first ▸ List.mem_cons_self))
  | refused idle =>
    simp [Pool.collecting?, idle] at collecting
  | told results notice its taken noted =>
    exact owes_settle (owed _ _ (congrArg (Option.map _) its)) its taken noted collecting
  | stuck => cases collecting
  | framed none later frame =>
    have owes := owed ticket c (frame.collecting ▸ collecting)
    exact ⟨owes.kept, owes.waits, fun id => (owes.backed id).trans_eq (same _ later none).symm⟩

/-- In a pool that takes batches what a batch waits for is on its way. -/
theorem isOwed_of_trace (trace : Trace Step (start settings registry) beats w)
    (accepts : w.floor.accepting = true) : w.IsOwed := by
  induction trace with
  | nil => exact fun _ _ collecting => by cases collecting
  | @snoc w w' beats b before last ih =>
    have accepted : w.floor.accepting = true := by
      by_contra refused
      cases last with
      | of h =>
        have refuses := (change_of_step? h).refuses (.inl (Bool.eq_false_iff.mpr refused))
        cases accepts.symm.trans refuses
    have orderly := last.isOrderly (isOrderly_of_trace before)
    refine last.isOwed (orderly.isServing accepts).stays (fun next waits => ?_) (ih accepted)
    exact (Pool.submitted_of_trace (pool_trace before) waits).1

-- ---------------------------------------------------------------------------
-- When no job is left
-- ---------------------------------------------------------------------------

theorem attend_nil {p : Pool σ} {now : Instant} {s : σ} {m : Move} (queue : p.queue = []) :
    p.attend now s [] m = [] := by
  cases m with
  | take => simp [Pool.attend, queue]
  | act =>
    simp only [Pool.attend]
    split <;> rfl
  | _ => rfl

/-- No job comes up until a batch gets its turn, and nobody writes to the store. -/
theorem Change.isJobless {f : Floor σ} {now : Instant} {s s' : σ} {m : Move}
    (change : w.Change now s m f s') (jobless : w.floor.IsJobless) (later : m ≠ .begin) :
    f.IsJobless ∧ s' = s := by
  have none {seat batch : Nat} {jobId : String} {stage : Worker.Stage (Handler σ)}
      {plan : List (Action σ)} (works : w.floor.seats[seat]? =
        some (.working batch jobId stage plan)) : False := by
    cases jobless.rests _ (List.mem_of_getElem? works)
  have rests {seat : Nat} {st : Seat σ} (rests : st.isBusy = false) (st' : Seat σ)
      (member : st' ∈ w.floor.seats.set seat st) : st'.isBusy = false := by
    rcases List.mem_or_eq_of_mem_set member with old | rfl
    · exact jobless.rests st' old
    · exact rests
  have fed {feeder : Option Feeder} (kept : feeder = w.floor.feeder ∨ feeder = Option.none)
      (g : Feeder) (its : feeder = some g) : g.rest = [] ∧ ∃ r, g.load = .report r := by
    rcases kept with rfl | rfl
    · exact jobless.fed g its
    · cases its
  cases change with
  | aside => exact ⟨jobless, rfl⟩
  | begun => exact absurd rfl later
  | fed its =>
    obtain ⟨_, r, reports⟩ := jobless.fed _ its
    cases reports
  | rejected its =>
    obtain ⟨_, r, reports⟩ := jobless.fed _ its
    cases reports
  | posted its =>
    obtain ⟨rfl, _⟩ := jobless.fed _ its
    exact ⟨⟨fed (.inr rfl), jobless.queue, jobless.rests⟩, rfl⟩
  | took _ first => simp [jobless.queue] at first
  | left _ _ kept =>
    exact ⟨⟨jobless.fed, kept.elim (·.trans jobless.queue) id, rests rfl⟩, rfl⟩
  | asked works => exact (none works).elim
  | judged works => exact (none works).elim
  | acted works => exact (none works).elim
  | handedOver => exact ⟨⟨jobless.fed, jobless.queue, rests rfl⟩, rfl⟩
  | collected _ kept => exact ⟨⟨fed kept, jobless.queue, jobless.rests⟩, rfl⟩
  | expired kept => exact ⟨⟨fed kept, jobless.queue, jobless.rests⟩, rfl⟩
  | closed => exact ⟨⟨jobless.fed, jobless.queue, jobless.rests⟩, rfl⟩

end Watched

end JobQueue
