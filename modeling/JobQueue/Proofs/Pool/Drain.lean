import JobQueue.Proofs.Pool.Late

/-!
# Shutdowns that drain

An audited pool writes down what its feeders brought into the queue. As long as the workers are not
told to leave, nothing of that is lost, and nobody leaves while a feeder still has records: a batch
is refused none of its records, unless it gets its turn after the pool was asked to shut down
(`Audited.shutdown_drains`).
-/

namespace JobQueue

open Time (Instant)

-- ---------------------------------------------------------------------------
-- What the queue accepted
-- ---------------------------------------------------------------------------

def Pool.brought? {σ : Type} (p : Pool σ) : Pool.Move → Option Assignment
  | .feed =>
    match p.feeder? with
    | some ⟨batch, .record record, _⟩ => some ⟨batch, record⟩
    | _ => none
  | _ => none

structure Audited (σ : Type) where
  watched : Watched σ
  accepted : List Assignment

namespace Audited

open Pool (Beat)

variable {σ : Type} {a a' : Audited σ} {beats : List Beat} {b : Beat}

def start (settings : Settings) (registry : Registry (Handler σ)) : Audited σ :=
  ⟨.start settings registry, []⟩

variable [RecordStore σ]

inductive Step : Audited σ → Beat → Audited σ → Prop
  | of {w w' : Watched σ} {accepted : List Assignment} {b : Beat} (step : Watched.Step w b w') :
      Step ⟨w, accepted⟩ b ⟨w', accepted ++ (w.pool.brought? b.move).toList⟩

theorem watched_trace (run : Trace Step a beats a') :
    Trace Watched.Step a.watched beats a'.watched := by
  induction run with
  | nil => exact .nil _
  | snoc _ last ih =>
    cases last with
    | of step => exact ih.snoc step

theorem exists_trace {p p' : Pool σ} (ds : List (Duty σ)) (accepted : List Assignment)
    (run : Trace Pool.Step p beats p') :
    ∃ ds' accepted', Trace Step ⟨⟨p, ds⟩, accepted⟩ beats ⟨⟨p', ds'⟩, accepted'⟩ := by
  induction run with
  | nil => exact ⟨ds, accepted, .nil _⟩
  | snoc _ last ih =>
    obtain ⟨ds, accepted, before⟩ := ih
    cases last with
    | of h => exact ⟨_, _, before.snoc (.of (.of_pool h))⟩

end Audited

-- ---------------------------------------------------------------------------
-- As long as the workers may stay
-- ---------------------------------------------------------------------------

namespace Floor

variable {σ : Type}

/-- Whether no report on its way is that of a record which a closed pool refuses. -/
def RefusesNone (f : Floor σ) : Prop := ∀ r, f.Tells r → r.outcome ≠ .error .poolClosed

structure IsDrained (f : Floor σ) : Prop where
  closing : f.closing = .over
  untold : f.stopping = false
  gone : ∀ st ∈ f.seats, st = .left

end Floor

namespace Collection

variable {c : Collection}

def RefusesNone (c : Collection) : Prop := some (.error .poolClosed) ∉ c.slots

theorem RefusesNone.outcomes (none : c.RefusesNone) (kept : c.IsKept) (all : c.remaining = 0)
    {o : JobOutcome} (given : o ∈ c.outcomes) : o.outcome ≠ .error .poolClosed := by
  obtain ⟨i, there⟩ := List.getElem?_of_mem given
  obtain ⟨id, slot, _, its, rfl⟩ := List.getElem?_zipWith_eq_some.mp there
  have member := List.mem_of_getElem? its
  cases slot with
  | none =>
    rw [kept.remaining, List.countP_eq_zero] at all
    exact absurd rfl (all _ member)
  | some outcome =>
    rintro rfl
    exact none member

theorem RefusesNone.note {c' : Collection} {n : Notice} (none : c.RefusesNone) (kept : c.IsKept)
    (noted : c.note? n = some c') (its : n.outcome ≠ .error .poolClosed) : c'.RefusesNone := by
  rcases kept.note?_cases noted with ⟨rfl, _⟩ | ⟨i, _, closes⟩
  · exact none
  · intro member
    rw [closes.slots] at member
    rcases List.mem_or_eq_of_mem_set member with old | new
    · exact none old
    · exact its (Option.some.inj new).symm

end Collection

namespace Pool

variable {σ : Type} {p p' : Pool σ} {b : Beat}

def RefusesNone (p : Pool σ) : Prop :=
  ∀ ticket c, p.collecting? = some (ticket, c) → c.RefusesNone

/-- Whether a move returns no refusal to a batch that has its turn. -/
def Beat.RefusesNone (b : Beat) : Prop :=
  b.move ≠ .begin → ∀ call ∈ b.returned, ∀ o ∈ call.2, o.outcome ≠ .error .poolClosed

theorem Beat.mem_events_of_returned {call : Nat × List JobOutcome} (returned : call ∈ b.returned) :
    .returned call.1 call.2 ∈ b.events := by
  unfold Beat.returned at returned
  split at returned
  · cases returned
  · obtain ⟨e, member, its⟩ := List.mem_filterMap.mp returned
    cases e with
    | returned ticket outcomes =>
      cases its
      exact member
    | _ => cases its

theorem of_mem_settle {t : Turn} {c : Collection} {ticket : Nat} {outcomes : List JobOutcome}
    (said : .returned ticket outcomes ∈ (p.settle t c).2) :
    c.remaining = 0 ∧ outcomes = c.outcomes := by
  unfold settle at said
  split at said
  · next complete =>
    cases List.mem_singleton.mp said
    exact ⟨by simpa [Collection.isComplete] using complete, rfl⟩
  · cases said

theorem Effect.refusesNone (e : p.Effect b p') (kept : p.IsKept) (none : p.RefusesNone)
    (results : ∀ r ∈ p.results, r.outcome ≠ .error .poolClosed) :
    p'.RefusesNone ∧ b.RefusesNone := by
  cases e with
  | submitted =>
    refine ⟨fun ticket c collects => none ticket c (collecting?_submit ▸ collects), ?_⟩
    intro _ call returned
    cases returned
  | begun =>
    refine ⟨fun ticket c collects => ?_, fun later => absurd rfl later⟩
    cases collects
    simp [Collection.RefusesNone, Collection.ofRecords]
  | refused => exact ⟨none, fun later => absurd rfl later⟩
  | @told now m n t c left notice its taken noted =>
    have here : p.collecting? = some (t.ticket, t.collection) := congrArg (Option.map _) its
    have kept := kept _ _ here
    have fine : n.outcome ≠ .error .poolClosed := by
      cases n with
      | report r => exact results r (by simp [taken, Notice.reports])
      | timeout => simp [Notice.outcome]
    have none := (none _ _ here).note kept noted fine
    refine ⟨fun ticket c' collects => collecting?_settle collects ▸ none, ?_⟩
    intro _ call returned o given
    obtain ⟨all, same⟩ := of_mem_settle (Beat.mem_events_of_returned returned)
    exact none.outcomes (kept.note noted) all (same ▸ given)
  | @stuck now t its noted =>
    have here : p.collecting? = some (t.ticket, t.collection) := congrArg (Option.map _) its
    refine ⟨fun _ _ collects => absurd collects (by simp [collecting?, finish]), ?_⟩
    intro _ call returned o given
    obtain ⟨_, same⟩ := Event.returned.inj
      (List.mem_singleton.mp (Beat.mem_events_of_returned returned))
    exact (none _ _ here).outcomes (kept _ _ here) ((kept _ _ here).remaining_of_stuck noted)
      (same ▸ given)
  | framed _ _ frame silent =>
    refine ⟨fun ticket c collects => none ticket c (frame.collecting ▸ collects), ?_⟩
    intro _ call returned
    rw [silent] at returned
    cases returned

end Pool

namespace Watched

open Pool (Beat Move)

variable {σ : Type} [RecordStore σ] {w w' : Watched σ} {f : Floor σ} {now : Instant} {s s' : σ}
  {m : Move} {b : Beat} {beats : List Beat} {settings : Settings} {registry : Registry (Handler σ)}

theorem Change.untold (change : w.Change now s m f s') (untold : f.stopping = false) :
    w.floor.stopping = false := by
  cases change with
  | closed why =>
    cases why with
    | missed => cases untold
    | _ => exact untold
  | _ => exact untold

theorem untold_of_trace (run : Trace Step w beats w') (untold : w'.floor.stopping = false) :
    w.floor.stopping = false := by
  induction run with
  | nil => exact untold
  | snoc _ last ih =>
    cases last with
    | of h => exact ih ((change_of_step? h).untold untold)

omit [RecordStore σ] in
theorem left_of_isEmpty (gone : w.pool.isEmpty = true) : ∀ st ∈ w.floor.seats, st = .left := by
  intro st member
  have left := List.all_eq_true.mp gone st member
  cases st with
  | left => rfl
  | _ => cases left

omit [RecordStore σ] in
/-- Once all workers have left without being told to, there is nothing left to do. -/
theorem nothing_left (orderly : w.floor.IsOrderly) (untold : w.floor.stopping = false)
    (gone : ∀ st ∈ w.floor.seats, st = .left) :
    w.floor.accepting = false ∧ w.floor.feeder = none ∧ w.floor.queue = [] := by
  have inside : 0 < w.floor.seats.length := orderly.staffed ▸ Settings.workerCount_pos _
  have first : w.floor.seats[0]? = some .left := by
    rw [List.getElem?_eq_getElem inside, gone _ (List.getElem_mem inside)]
  refine (orderly.left first).resolve_left ?_
  simp [untold]

theorem Change.accepted (change : w.Change now s m f s') (untold : f.stopping = false)
    {accepted : List Assignment}
    (all : accepted = w.floor.duties.map Duty.assignment ++ w.floor.queue) :
    accepted ++ (w.pool.brought? m).toList = f.duties.map Duty.assignment ++ f.queue := by
  have before := change.untold untold
  subst all
  cases change with
  | aside why => rcases why with rfl | ⟨_, _, rfl⟩ <;> simp [Pool.brought?]
  | fed its =>
    have its : w.pool.feeder? = _ := its
    simp [Pool.brought?, its]
  | rejected _ why => rcases why with ⟨rfl, _⟩ | ⟨⟨rfl, _⟩, _⟩ <;> simp [Pool.brought?]
  | @took seat a rest run stage free first its there =>
    have same : (⟨a.batch, run⟩ : Duty σ).assignment = a := by
      rw [Duty.assignment, its]
      rfl
    simp [Pool.brought?, first, same]
  | left _ why kept =>
    rcases why with told | ⟨_, nothing⟩
    · exact Bool.noConfusion (told.symm.trans before)
    · rcases kept with rfl | rfl
      · simp [Pool.brought?]
      · simp [Pool.brought?, nothing]
  | asked => simp [Pool.brought?, Function.comp_def]
  | judged => simp [Pool.brought?, Function.comp_def]
  | closed why => cases why <;> simp [Pool.brought?]
  | _ => simp [Pool.brought?]

theorem Change.refusesNone (change : w.Change now s m f s') (manned : w.floor.IsManned)
    (orderly : w.floor.IsOrderly) (untold : f.stopping = false) (none : w.floor.RefusesNone) :
    f.RefusesNone := by
  intro r told
  rcases change.tells manned told with told | ended | ⟨_, _, its, _, why, _⟩
  · exact none r told
  · obtain ⟨d, member, _, _, finished⟩ := ended
    intro refused
    rw [refused] at finished
    cases (change.isManned manned).isOfPool_eq member finished
  · rcases why with ⟨_, full⟩ | ⟨⟨_, gone⟩, _⟩
    · simp [full]
    · -- nobody leaves before the feeder is done
      have unfed := (nothing_left orderly (change.untold untold) (left_of_isEmpty gone)).2.1
      cases its.symm.trans unfed

theorem Change.isDrained (change : w.Change now s m f s') (drained : w.floor.IsDrained) :
    f.IsDrained := by
  have absent {seat : Nat} {st : Seat σ} (there : w.floor.seats[seat]? = some st)
      (differ : st ≠ .left) : False :=
    differ (drained.gone st (List.mem_of_getElem? there))
  cases change with
  | took free => exact (absent free nofun).elim
  | left free => exact (absent free nofun).elim
  | asked works => exact (absent works nofun).elim
  | judged works => exact (absent works nofun).elim
  | acted works => exact (absent works nofun).elim
  | handedOver reports => exact (absent reports nofun).elim
  | closed why =>
    cases why with
    | first new => cases new.symm.trans drained.closing
    | again => exact ⟨drained.closing, drained.untold, drained.gone⟩
    | drained waits => cases waits.symm.trans drained.closing
    | missed waits => cases waits.symm.trans drained.closing
  | _ => exact ⟨drained.closing, drained.untold, drained.gone⟩

/-- The call that waits for the workers returns when they have left, if they were not told to. -/
theorem Change.of_drained (change : w.Change now s .drained f s') (orderly : w.floor.IsOrderly) :
    f.IsDrained := by
  cases change with
  | aside why => simp at why
  | rejected _ why => simp at why
  | closed why =>
    cases why with
    | drained waits gone =>
      refine ⟨rfl, Bool.eq_false_iff.mpr fun told => ?_, left_of_isEmpty gone⟩
      cases waits.symm.trans (orderly.told told)

-- ---------------------------------------------------------------------------
-- Runs
-- ---------------------------------------------------------------------------

theorem isDrained_of_trace (run : Trace Step (start settings registry) beats w)
    (drained : ∃ b ∈ beats, b.move = .drained) : w.floor.IsDrained := by
  induction run with
  | nil => simp at drained
  | @snoc _ _ beats b before last ih =>
    cases last with
    | @of _ s s' now m events h =>
      have change := change_of_step? h
      obtain ⟨c, member, its⟩ := drained
      rcases List.mem_append.mp member with earlier | here
      · exact change.isDrained (ih ⟨c, earlier, its⟩)
      · obtain rfl := List.mem_singleton.mp here
        obtain rfl : m = .drained := its
        exact change.of_drained (isOrderly_of_trace before)

theorem refusesNone_of_trace (run : Trace Step (start settings registry) beats w)
    (untold : w.floor.stopping = false) : w.floor.RefusesNone ∧ w.pool.RefusesNone := by
  induction run with
  | nil =>
    refine ⟨?_, nofun⟩
    rintro r (its | waits | @⟨seat, reports⟩)
    · cases its
    · cases waits
    · cases List.eq_of_mem_replicate (List.mem_of_getElem? reports)
  | snoc before last ih =>
    have kept := Pool.isKept_of_trace (pool_trace before)
    have effect := last.pool.effect
    cases last with
    | of h =>
      have change := change_of_step? h
      obtain ⟨floor, pool⟩ := ih (change.untold untold)
      exact ⟨change.refusesNone (isManned_of_trace before) (isOrderly_of_trace before) untold floor,
        (effect.refusesNone kept pool fun r waits => floor r (.results waits)).1⟩

theorem refuses_of_trace (run : Trace Step (start settings registry) beats w)
    (asked : ∃ b ∈ beats, b.move = .shutdown) : w.pool.accepting = false := by
  induction run with
  | nil => simp at asked
  | @snoc _ _ beats b _ last ih =>
    cases last with
    | of h =>
      refine (change_of_step? h).refuses ?_
      obtain ⟨c, member, its⟩ := asked
      rcases List.mem_append.mp member with earlier | here
      · exact .inl (ih ⟨c, earlier, its⟩)
      · obtain rfl := List.mem_singleton.mp here
        exact .inr its

/-- A batch that gets its turn in a closed pool is refused, and no worker will ever have a record of
it. -/
theorem refused_of_closed {c c' : Watched σ} {after : List Beat}
    (before : Trace Step (start settings registry) beats c) (closed : c.pool.accepting = false)
    (turn : Step c b c') (begins : b.move = .begin) (later : Trace Step c' after w) :
    ∃ next, c.pool.line.head? = some next ∧
      b.events = [.returned next.ticket (Pool.refusal next.records)] ∧
      c'.duties = c.duties ∧ w.handed c.pool.nextBatch = [] := by
  have manned := turn.isManned (isManned_of_trace before)
  have effect := turn.pool.effect
  generalize same : c'.pool = p' at effect
  cases effect with
  | submitted => cases begins
  | begun _ _ accepting => cases closed.symm.trans accepting
  | @refused now next rest idle first =>
    have head : c.pool.line.head? = some next := by rw [first]; rfl
    obtain ⟨number, ⟨collects, _⟩ | ⟨_, _, floor⟩⟩ := turn.begun begins head
    · rw [same] at collects
      simp [Pool.collecting?, idle] at collects
    · refine ⟨next, head, rfl, congrArg Floor.duties floor, ?_⟩
      exact (accounts_of_begun before manned number floor).handed_eq_nil later
  | told _ notice =>
    cases begins
    cases notice
  | stuck => cases begins
  | framed _ later => exact absurd begins later

end Watched

namespace Audited

open Pool (Beat)

variable {σ : Type} [RecordStore σ] {a : Audited σ} {beats : List Beat} {settings : Settings}
  {registry : Registry (Handler σ)}

theorem accepted_of_trace (run : Trace Step (start settings registry) beats a)
    (untold : a.watched.floor.stopping = false) :
    a.accepted = a.watched.duties.map Duty.assignment ++ a.watched.pool.queue := by
  induction run with
  | nil => rfl
  | snoc _ last ih =>
    cases last with
    | of step =>
      cases step with
      | of h =>
        have change := Watched.change_of_step? h
        exact change.accepted untold (ih (change.untold untold))

/-- In a run in which a call to shut the pool down sees all workers leave, they have had every
record that the queue accepted, in order, and have come to an outcome with each; nothing is
queued. No batch that had its turn was refused a record. One that gets its turn after any call to
shut the pool down is refused all of them, in order, changes nothing that is stored, and no worker
has any of its records. -/
theorem shutdown_drains (run : Trace Step (start settings registry) beats a)
    (drained : ∃ b ∈ beats, b.move = .drained) :
    (a.accepted = a.watched.duties.map Duty.assignment ∧ a.watched.pool.queue = [] ∧
      ∀ d ∈ a.watched.duties, ∃ outcome, d.run.outcome? = some outcome) ∧
    (∀ b ∈ beats, b.move ≠ .begin →
      ∀ call ∈ b.returned, ∀ o ∈ call.2, o.outcome ≠ .error .poolClosed) ∧
    ∀ before b after (c c' w : Watched σ), Trace Watched.Step (.start settings registry) before c →
      (∃ d ∈ before, d.move = .shutdown) → Watched.Step c b c' → b.move = .begin →
      Trace Watched.Step c' after w →
      (∃ next, c.pool.line.head? = some next ∧
        b.events = [.returned next.ticket (Pool.refusal next.records)]) ∧
      (∀ now s next, c.pool.step? now s .begin = some next → next.2.1 = s) ∧
      c'.duties = c.duties ∧ w.handed c.pool.nextBatch = [] := by
  have watched := watched_trace run
  obtain ⟨_, untold, gone⟩ := Watched.isDrained_of_trace watched drained
  refine ⟨?_, ?_, ?_⟩
  · have manned := Watched.isManned_of_trace watched
    have orderly := Watched.isOrderly_of_trace watched
    have queue : a.watched.pool.queue = [] := (Watched.nothing_left orderly untold gone).2.2
    refine ⟨by simpa [queue] using accepted_of_trace run untold, queue, fun d member => ?_⟩
    -- a worker that has left has no run that goes on
    have inside := orderly.seated d member
    have fits := manned.fits (List.getElem?_eq_getElem inside)
    rw [gone _ (List.getElem_mem inside)] at fits
    have closed := List.filter_eq_nil_iff.mp fits d member
    exact Option.ne_none_iff_exists'.mp (by simpa [Duty.isOpen] using closed)
  · intro b member
    obtain ⟨before, after, rfl⟩ := List.append_of_mem member
    rw [List.append_cons] at watched
    obtain ⟨c', first, rest⟩ := watched.cut
    obtain ⟨c, first, step⟩ := first.snoc_cases
    have early := Watched.untold_of_trace ((Trace.single step).append rest) untold
    obtain ⟨floor, pool⟩ := Watched.refusesNone_of_trace first early
    exact (step.pool.effect.refusesNone (Pool.isKept_of_trace (Watched.pool_trace first)) pool
      fun r waits => floor r (.results waits)).2
  · intro before b after c c' w run asked turn begins later
    have closed := Watched.refuses_of_trace run asked
    obtain ⟨next, first, said, duties, nobody⟩ :=
      Watched.refused_of_closed run closed turn begins later
    refine ⟨⟨next, first, said⟩, fun now s next moved => ?_, duties, nobody⟩
    obtain ⟨_, _, rfl⟩ := Option.map_eq_some_iff.mp moved
    rfl

/-- A batch feeds its second record after the call to shut down; another one is refused. -/
def lastBatch : List Pool.Move :=
  [.submit 0 (["a", "b"].map Pool.strayRecord), .submit 1 [Pool.strayRecord "c"], .begin, .feed,
    .shutdown, .feed, .take 0, .handOver 0, .collect, .take 0, .handOver 0, .collect, .begin,
    .leave 0, .drained]

theorem shutdown_drains_lastBatch : ∃ beats a,
    Trace Step (start ⟨1, 300, 30, 300⟩ .empty : Audited MemoryStore) beats a ∧
      (∃ b ∈ beats, b.move = .drained) ∧ a.accepted = a.watched.duties.map Duty.assignment ∧
      a.watched.pool.nextBatch = 2 := by
  have checked : (Trace.play? Pool.cue? (.start ⟨1, 300, 30, 300⟩ .empty)
      (Pool.movesAtOnce lastBatch)).any fun played =>
        played.1.any (fun b => b.move = .drained) && played.2.nextBatch == 2 := by
    decide +kernel
  obtain ⟨beats, p, run, checked⟩ := Trace.exists_of_play? Pool.step_of_cue? checked
  simp only [Bool.and_eq_true, List.any_eq_true, decide_eq_true_eq, beq_iff_eq] at checked
  obtain ⟨last, number⟩ := checked
  obtain ⟨ds, accepted, run⟩ := exists_trace [] [] run
  exact ⟨beats, _, run, last, (shutdown_drains run last).1.1, number⟩

end Audited

end JobQueue
