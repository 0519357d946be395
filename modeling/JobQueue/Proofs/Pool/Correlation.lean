import JobQueue.Proofs.Pool.Beat
import JobQueue.Store.Memory

/-!
# Batches get their own outcomes

A batch that gets its turn returns one outcome for each of its records, in the order of the records,
whatever happens in the pool meanwhile. `Served` is how far such a batch is: what it was told filled
its slots as a history says, and it returns when the last one is filled. Every step keeps it there
(`Served.step`), so a whole run does.
-/

namespace JobQueue

open Time (Instant)

def Submission.jobIds (s : Submission) : List String := s.records.map Record.id

/-- What a batch returns after a history: an outcome for each job, in order. Each slot was filled
once, and the outcome is what filled it. -/
structure History.Answers (h : History) (jobIds : List String) (outcomes : List JobOutcome) :
    Prop where
  order : outcomes.map JobOutcome.jobId = jobIds
  each : h.closed.Perm (List.range jobIds.length)
  told : ∀ {i : Nat} {o : JobOutcome}, outcomes[i]? = some o →
    ∃ (k : Nat) (n : Notice), h[k]? = some (n, some i) ∧ n.outcome = o.outcome

namespace Collection

variable {c : Collection} {h : History} {jobIds : List String} {i : Nat}

theorem IsFilled.closed_of_isComplete (f : c.IsFilled jobIds h) (complete : c.isComplete = true)
    (inside : i < jobIds.length) : h.ClosedBefore h.length i := by
  refine (f.closedBefore_iff inside).mpr fun isOpen => ?_
  rw [f.kept.isComplete_eq_false_iff.mpr ⟨i, isOpen⟩] at complete
  cases complete

theorem IsFilled.exists_open (f : c.IsFilled jobIds h) (waits : c.isComplete = false) :
    ∃ i < jobIds.length, ¬ h.ClosedBefore h.length i := by
  obtain ⟨i, isOpen⟩ := f.kept.isComplete_eq_false_iff.mp waits
  have inside := f.inside isOpen
  exact ⟨i, inside, fun closed => (f.closedBefore_iff inside).mp closed isOpen⟩

theorem IsFilled.answers (f : c.IsFilled jobIds h) (complete : c.isComplete = true) :
    h.Answers jobIds c.outcomes where
  order := by
    have same : c.jobIds.length ≤ c.slots.length := Nat.le_of_eq f.kept.length.symm
    rw [Collection.outcomes, List.map_zipWith, ← f.names]
    simpa [List.zip, List.map_zipWith] using List.map_fst_zip same
  each := f.filling.closed_perm fun _ inside => f.closed_of_isComplete complete inside
  told := by
    intro i o listed
    rw [Collection.outcomes, List.getElem?_zipWith_eq_some] at listed
    obtain ⟨id, slot, its, there, rfl⟩ := listed
    have inside := (List.getElem?_eq_some_iff.mp its).1
    have shut := (f.closedBefore_iff (f.names ▸ inside)).mp
      (f.closed_of_isComplete complete (f.names ▸ inside))
    cases slot with
    | none => exact absurd there shut
    | some outcome => exact (f.outcomes i outcome).mp there

end Collection

namespace Pool

variable {σ : Type} {p p' p₁ p₂ : Pool σ} {b : Beat} {beats during : List Beat} {next : Submission}
  {batch : Nat} {h : History} {returned : List (Nat × List JobOutcome)}

-- ---------------------------------------------------------------------------
-- A batch that has got its turn
-- ---------------------------------------------------------------------------

/-- How far a batch is that has got its turn, and what it has returned. -/
inductive Served (p : Pool σ) (next : Submission) (batch : Nat) (h : History)
    (returned : List (Nat × List JobOutcome)) : Prop
  | waiting {c : Collection} (turn : p.collecting? = some (next.ticket, c)) (own : c.batch = batch)
      (filled : c.IsFilled next.jobIds h) (waits : c.isComplete = false) (silent : returned = [])
  | done {c : Collection} (turn : p.collecting? = none) (own : c.batch = batch)
      (filled : c.IsFilled next.jobIds h) (complete : c.isComplete = true)
      (said : returned = [(next.ticket, c.outcomes)])

theorem Served.of_collecting {p' : Pool σ} (served : p.Served next batch h returned)
    (same : p'.collecting? = p.collecting?) : p'.Served next batch h returned := by
  cases served with
  | waiting turn own filled waits silent => exact .waiting (same.trans turn) own filled waits silent
  | done turn own filled complete said => exact .done (same.trans turn) own filled complete said

@[simp] theorem collecting?_submit {ticket : Nat} {records : List Record} :
    (p.submit ticket records).1.collecting? = p.collecting? := by
  unfold submit
  split <;> rfl

theorem Served.tell {t : Turn} (n : Notice) (results : List Report)
    (served : p.Served next batch h returned) (its : p.turn = some t) :
    ∃ c x, t.collection.note? n = some c ∧
      ({ p with results }.settle t c).1.Served next batch (h ++ [(n, x)])
        (returned ++ ({ p with results }.settle t c).2.filterMap Event.returned?) := by
  have here : p.collecting? = some (t.ticket, t.collection) := by simp [collecting?, its]
  cases served with
  | done turn => rw [here] at turn; cases turn
  | @waiting c turn own filled waits silent =>
    obtain ⟨ticket, rfl⟩ := Prod.mk.inj (Option.some.inj (here.symm.trans turn))
    obtain ⟨c, noted, same, filled⟩ := filled.note (n := n) fun _ => waits
    refine ⟨c, t.collection.target? n, noted, ?_⟩
    subst silent
    unfold settle
    split
    · next complete =>
      exact .done rfl (same.trans own) filled complete (by simp [finish, Event.returned?, ticket])
    · next waits =>
      exact .waiting (by simp [collecting?, ticket]) (same.trans own) filled
        (Bool.eq_false_iff.mpr waits) rfl

theorem Served.step (served : p.Served next batch h returned) (e : p.Effect b p')
    (later : b.move ≠ .begin) :
    ∃ h' : History, h'.map Prod.fst = h.map Prod.fst ++ b.notice.toList ∧
      p'.Served next batch h' (returned ++ b.returned) := by
  cases e with
  | submitted =>
    exact ⟨h, by simp, by simpa [Beat.returned] using served.of_collecting collecting?_submit⟩
  | begun => exact absurd rfl later
  | refused => exact absurd rfl later
  | @told now m n t c results notice its taken noted =>
    obtain ⟨c', x, noted', served⟩ := served.tell n results its
    obtain rfl := Option.some.inj (noted.symm.trans noted')
    refine ⟨h ++ [(n, x)], by simp, ?_⟩
    cases m with
    | submit => cases notice
    | _ => exact served
  | @stuck now t its noted =>
    obtain ⟨c, x, noted', _⟩ := served.tell .timeout p.results its
    rw [noted] at noted'
    cases noted'
  | framed none later frame silent =>
    exact ⟨h, by simp [none], by simpa [silent] using served.of_collecting frame.collecting⟩

/-- A batch that has got its turn stays served until the next one gets it. -/
theorem Served.run [RecordStore σ] (start : p.Served next batch [] [])
    (during : Trace Step p beats p') (same : ∀ b ∈ beats, b.move ≠ .begin) :
    ∃ h : History, h.map Prod.fst = beats.filterMap Beat.notice ∧
      p'.Served next batch h (beats.flatMap Beat.returned) := by
  induction during with
  | nil => exact ⟨[], rfl, start⟩
  | @snoc _ _ beats b _ last ih =>
    obtain ⟨h, told, served⟩ := ih fun b earlier => same b (List.mem_append_left _ earlier)
    obtain ⟨h', more, served⟩ := served.step last.effect (same b (by simp))
    refine ⟨h', ?_, by simpa using served⟩
    rw [more, told, List.filterMap_append]
    cases notice : b.notice <;> simp [notice]

/-- A batch that waits can always be told something: the next report, or that there is none. -/
theorem exists_notice [RecordStore σ] {t : Turn} (its : p.turn = some t) (now : Instant)
    (store : σ) : ∃ m p' events,
      p.step? now store m = some (p', store, events) ∧ p.notice? m ≠ none := by
  cases results : p.results with
  | nil =>
    have expires : ∃ next, p.expire? = some next := by
      simp only [expire?, its, results]
      split
      · exact ⟨_, rfl⟩
      · exact ⟨_, rfl⟩
    obtain ⟨next, expires⟩ := expires
    exact ⟨.expire, _, _, congrArg (Option.map _) expires, by simp [notice?]⟩
  | cons r rest =>
    have collects : p.collect? =
        some ({ p with results := rest }.settle t (t.collection.receive r)) := by
      simp [collect?, its, results]
    exact ⟨.collect, _, _, congrArg (Option.map _) collects, by simp [notice?, results]⟩

-- ---------------------------------------------------------------------------
-- Before its turn
-- ---------------------------------------------------------------------------

/-- No number that is yet to be given is on anything that is on its way. -/
def IsFresh (p : Pool σ) : Prop := ∀ b, p.nextBatch ≤ b → p.underway (· == b) = 0

theorem Effect.isFresh (e : p.Effect b p') (fresh : p.IsFresh) : p'.IsFresh := by
  have shrinks (later : b.move ≠ .begin) (same : p'.nextBatch = p.nextBatch) : p'.IsFresh := by
    intro n new
    have := e.underway later (· == n)
    have := fresh n (same ▸ new)
    omega
  cases e with
  | submitted =>
    refine shrinks (by simp) ?_
    unfold submit
    split <;> rfl
  | begun idle =>
    intro n new
    have other : (p.nextBatch == n) = false := by simp at new ⊢; omega
    rw [underway_begun idle, fresh n (by simp at new; omega), other]
    simp
  | refused idle =>
    intro n new
    exact fresh n (by simp at new; omega)
  | @told now m n t c results notice =>
    refine shrinks ?_ ?_
    · rintro rfl
      cases notice
    · unfold settle
      split <;> rfl
  | stuck => exact shrinks (by simp) rfl
  | framed none later frame => exact shrinks later frame.nextBatch

theorem underway_start {settings : Settings} {registry : Registry (Handler σ)}
    (wanted : Nat → Bool) : (start settings registry).underway wanted = 0 := by
  have none : ¬ ∃ s ∈ List.replicate settings.workerCount (Seat.free (σ := σ)),
      s.batch?.any wanted = true := by
    rintro ⟨s, member, busy⟩
    rw [List.eq_of_mem_replicate member] at busy
    cases busy
  simp only [underway, start, feeder?, List.countP_nil, Option.bind_none, Option.elim_none]
  rw [List.countP_eq_zero.mpr]
  intro s member busy
  exact none ⟨s, member, busy⟩

theorem isFresh_start {settings : Settings} {registry : Registry (Handler σ)} :
    (start settings registry).IsFresh := fun b _ => underway_start (· == b)

theorem Effect.line (e : p.Effect b p') {s : Submission} (waits : s ∈ p'.line) :
    s ∈ p.line ∨ s.records ≠ [] ∧ b.move = .submit s.ticket s.records := by
  cases e with
  | @submitted now ticket records =>
    unfold submit at waits
    split at waits
    · exact .inl waits
    · next filled =>
      rcases List.mem_append.mp waits with old | new
      · exact .inl old
      · obtain rfl := List.mem_singleton.mp new
        exact .inr ⟨by simpa using filled, rfl⟩
  | begun idle first => exact .inl (first ▸ List.mem_cons_of_mem _ waits)
  | refused idle first => exact .inl (first ▸ List.mem_cons_of_mem _ waits)
  | told =>
    unfold settle at waits
    split at waits
    · exact .inl waits
    · exact .inl waits
  | stuck => exact .inl waits
  | framed none later frame => exact .inl (frame.line ▸ waits)

section
variable [RecordStore σ] {settings : Settings} {registry : Registry (Handler σ)}

theorem isFresh_of_trace (before : Trace Step (start settings registry) beats p) : p.IsFresh :=
  before.keeps (fun fresh step => step.effect.isFresh fresh) isFresh_start

theorem submitted_of_trace (before : Trace Step (start settings registry) beats p)
    {s : Submission} (waits : s ∈ p.line) :
    s.records ≠ [] ∧ ∃ b ∈ beats, b.move = .submit s.ticket s.records := by
  induction before with
  | nil => cases waits
  | snoc _ last ih =>
    rcases last.effect.line waits with old | ⟨filled, submits⟩
    · obtain ⟨filled, b, earlier, submits⟩ := ih old
      exact ⟨filled, b, List.mem_append_left _ earlier, submits⟩
    · exact ⟨filled, _, by simp, submits⟩

theorem underway_of_trace (during : Trace Step p beats p') (same : ∀ b ∈ beats, b.move ≠ .begin)
    (wanted : Nat → Bool) :
    p'.underway wanted + (beats.flatMap Beat.reports).countP (fun r => wanted r.batch) ≤
      p.underway wanted := by
  induction during with
  | nil => simp
  | @snoc _ _ beats b _ last ih =>
    have := ih fun b earlier => same b (List.mem_append_left _ earlier)
    have := last.effect.underway (same b (by simp)) wanted
    simp only [List.flatMap_append, List.flatMap_singleton, List.countP_append]
    omega

-- ---------------------------------------------------------------------------
-- All in all
-- ---------------------------------------------------------------------------

theorem reports_of_notices (told : h.map Prod.fst = beats.filterMap Beat.notice) :
    h.reports = beats.flatMap Beat.reports := by
  have flat : h.reports = (h.map Prod.fst).flatMap Notice.reports := by
    rw [List.flatMap_map]
    rfl
  rw [flat, told]
  clear flat told
  induction beats with
  | nil => rfl
  | cons b beats ih => cases notice : b.notice <;> simp [Beat.reports, notice, ih]

/-- A batch that gets its turn in a pool that has not been shut down is the first in the line. -/
theorem begun_of_step (accepting : p.accepting = true) (begins : Step p b p₁)
    (its : b.move = .begin) : ∃ next, p.line.head? = some next ∧
      p₁.collecting? = some (next.ticket, .ofRecords p.nextBatch next.records) ∧
      ∀ wanted : Nat → Bool, p₁.underway wanted =
        p.underway wanted + (wanted p.nextBatch).toNat * next.records.length := by
  cases begins.effect with
  | submitted => cases its
  | @begun now next rest idle first =>
    exact ⟨next, by rw [first]; rfl, rfl, fun _ => underway_begun idle⟩
  | refused _ _ closed => rw [accepting] at closed; cases closed
  | told _ notice => cases its; cases notice
  | stuck => cases its
  | framed _ later => exact absurd its later

/-- A batch returns one outcome for each of its records, in the order of the records. What it is
told while it has its turn fills its slots: each once, by a report of its own number and job or by
a wait that ran out, and from the lowest on. Its number is on nothing that was on its way before.
It is told only so many things, and until it returns, its slots are filled as far as it was told
and there is always one more thing to tell. A batch without records returns at once. -/
theorem correlation (before : Trace Step (start settings registry) beats p)
    (accepting : p.accepting = true) (begins : Step p b p₁) (its : b.move = .begin)
    (turn : Trace Step p₁ during p₂) (same : ∀ b ∈ during, b.move ≠ .begin) :
    (∃ (next : Submission) (h : History),
      p.line.head? = some next ∧ next.records ≠ [] ∧
      (∃ b ∈ beats, b.move = .submit next.ticket next.records) ∧
      p.underway (· == p.nextBatch) = 0 ∧
      h.map Prod.fst = during.filterMap Beat.notice ∧
      h.IsFilling p.nextBatch next.jobIds ∧
      h.length ≤ p.underway (fun _ => true) + 2 * next.records.length ∧
      ((∃ outcomes, during.flatMap Beat.returned = [(next.ticket, outcomes)] ∧
          h.Answers next.jobIds outcomes) ∨
        during.flatMap Beat.returned = [] ∧
          (∃ c, p₂.collecting? = some (next.ticket, c) ∧ c.IsFilled next.jobIds h) ∧
          (∃ i < next.jobIds.length, ¬ h.ClosedBefore h.length i) ∧
          ∀ now store, ∃ m p₃ events,
            p₂.step? now store m = some (p₃, store, events) ∧ p₂.notice? m ≠ none)) ∧
    ∀ (q : Pool σ) ticket, q.submit ticket [] = (q, [.returned ticket []]) := by
  refine ⟨?_, fun _ _ => rfl⟩
  obtain ⟨next, first, collecting, underway⟩ := begun_of_step accepting begins its
  obtain ⟨filled, submitted⟩ := submitted_of_trace before (List.mem_of_mem_head? first)
  have waits : (Collection.ofRecords p.nextBatch next.records).isComplete = false := by
    obtain ⟨record, rest, records⟩ := List.exists_cons_of_ne_nil filled
    simp [Collection.ofRecords, Collection.isComplete, records]
  have start : p₁.Served next p.nextBatch [] [] :=
    .waiting collecting rfl (.start p.nextBatch next.records) waits rfl
  obtain ⟨h, told, served⟩ := start.run turn same
  -- the loop cannot go on for ever: a report is used up, a wait that ends closes a slot
  have few : h.reports.length ≤ p.underway (fun _ => true) + next.records.length := by
    have taken := underway_of_trace turn same fun _ => true
    rw [underway, List.countP_true, ← reports_of_notices told, Bool.toNat_true] at taken
    omega
  have short (filling : h.IsFilling p.nextBatch next.jobIds) :
      h.length ≤ p.underway (fun _ => true) + 2 * next.records.length := by
    have := filling.length_le
    rw [Submission.jobIds, List.length_map] at this
    omega
  have fresh := isFresh_of_trace before p.nextBatch (Nat.le_refl _)
  cases served with
  | @waiting c collecting own filling waits silent =>
    obtain ⟨t, turn, _⟩ := Option.map_eq_some_iff.mp collecting
    exact ⟨next, h, first, filled, submitted, fresh, told, own ▸ filling.filling,
      short (own ▸ filling.filling),
      .inr ⟨silent, ⟨c, collecting, filling⟩, filling.exists_open waits, exists_notice turn⟩⟩
  | @done c collecting own filling complete said =>
    exact ⟨next, h, first, filled, submitted, fresh, told, own ▸ filling.filling,
      short (own ▸ filling.filling), .inl ⟨_, said, filling.answers complete⟩⟩

end

/-- A record that is refused as soon as a worker has it. -/
def strayRecord (id : String) : Record := ⟨id, "letters", "", 0, none, .epoch, .epoch⟩

def movesAtOnce (moves : List Move) : List (Cue MemoryStore) :=
  moves.map fun m => ⟨.epoch, m, Keyed.empty⟩

/-- The wait of one batch runs out while the next one is in the line. -/
def ranOut : List Move :=
  [.submit 0 [strayRecord "a"],
    .submit 1 [strayRecord "a", strayRecord "b", strayRecord "a"], .begin, .feed, .expire]

def lateReport : List Move :=
  [.feed, .take 0, .handOver 0, .collect, .take 0, .feed, .expire, .shutdown, .handOver 0, .collect,
    .take 0, .feed, .handOver 0, .collect]

/-- The report of the first batch comes in the turn of the second, in which one job occurs twice and
a wait runs out; the pool is shut down meanwhile. -/
theorem correlation_lateReport : ∃ beats during b p p₁ p₂,
    Trace Step (start ⟨1, 300, 30, 300⟩ Registry.empty : Pool MemoryStore) beats p ∧
      p.accepting = true ∧ Step p b p₁ ∧ b.move = .begin ∧ Trace Step p₁ during p₂ ∧
      (∀ b ∈ during, b.move ≠ .begin) ∧
      ∃ (h : History) (outcomes : List JobOutcome),
        during.flatMap Beat.returned = [(1, outcomes)] ∧ h.Answers ["a", "b", "a"] outcomes := by
  have checked : (Trace.play? cue? (start ⟨1, 300, 30, 300⟩ Registry.empty)
      (movesAtOnce ranOut)).any fun (_, p) =>
        p.accepting && p.line.head? == some ⟨1, ["a", "b", "a"].map strayRecord⟩ &&
          (p.cue? ⟨.epoch, .begin, Keyed.empty⟩).any fun (b, p₁) => b.move == .begin &&
            (Trace.play? cue? p₁ (movesAtOnce lateReport)).any fun (during, _) =>
              during.all (fun b => b.move ≠ .begin) && !(during.flatMap Beat.returned).isEmpty := by
    decide +kernel
  obtain ⟨beats, p, before, checked⟩ := Trace.exists_of_play? step_of_cue? checked
  simp only [Bool.and_eq_true, beq_iff_eq] at checked
  obtain ⟨⟨accepting, first⟩, begun⟩ := checked
  obtain ⟨⟨b, p₁⟩, begins, checked⟩ := (Option.any_eq_true _ _).mp begun
  simp only [Bool.and_eq_true, beq_iff_eq] at checked
  obtain ⟨its, played⟩ := checked
  obtain ⟨during, p₂, turn, checked⟩ := Trace.exists_of_play? step_of_cue? played
  simp only [Bool.and_eq_true, List.all_eq_true, decide_eq_true_eq, Bool.not_eq_true',
    List.isEmpty_eq_false_iff] at checked
  obtain ⟨same, returns⟩ := checked
  have begins := step_of_cue? begins
  obtain ⟨next, h, first', _, _, _, _, _, _, ended⟩ :=
    (correlation before accepting begins its turn same).1
  obtain rfl := Option.some.inj (first.symm.trans first')
  obtain ⟨outcomes, said, answers⟩ := ended.resolve_right fun waits => returns waits.1
  exact ⟨beats, during, b, p, p₁, p₂, before, accepting, begins, its, turn, same, h, outcomes, said,
    answers⟩

end Pool

end JobQueue
