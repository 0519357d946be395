import JobQueue.Proofs.Pool.Late
import JobQueue.Proofs.Pool.Owed

/-!
# The collecting loop ends

A batch that has its turn goes round a loop: in each round it is told one thing. A round fills a
slot, drops a report whose slot a wait has closed, or drops a report of an earlier batch. There are
only so many slots and reports for that, and nothing brings more of them (`Pool.Rounds`), so the
rounds of a batch are bounded from the start.
-/

namespace JobQueue

-- ---------------------------------------------------------------------------
-- Rounds of one job
-- ---------------------------------------------------------------------------

namespace History

variable {h : History} {batch : Nat} {jobIds : List String} {id : String}

def isSlotOf (jobIds : List String) (id : String) (i : Nat) : Bool := jobIds[i]?.any (· == id)

def brings (batch : Nat) (id : String) (e : Notice × Option Nat) : Bool :=
  e.1.reports.any fun r => r.batch == batch && r.jobId == id

def drops (batch : Nat) (id : String) (e : Notice × Option Nat) : Bool :=
  brings batch id e && e.2.isNone

def givesUp (jobIds : List String) (id : String) (e : Notice × Option Nat) : Bool :=
  e.1 == .timeout && e.2.any (isSlotOf jobIds id)

theorem countP_reports {wanted : Report → Bool} :
    h.reports.countP wanted = h.countP fun e => e.1.reports.any wanted := by
  induction h with
  | nil => rfl
  | cons e h ih =>
    have reports_cons : reports (e :: h) = e.1.reports ++ reports h := rfl
    rw [reports_cons, List.countP_append, ih, List.countP_cons]
    cases e.1 with
    | report r => simp [Notice.reports, List.countP_cons, Nat.add_comm]
    | timeout => simp [Notice.reports]

theorem countP_slots_le (shut : ∀ j, jobIds[j]? = some id → j ∈ h.closed) :
    jobIds.countP (· == id) ≤ h.closed.countP (isSlotOf jobIds id) := by
  rw [← countP_range_getElem?, List.countP_eq_length_filter, List.countP_eq_length_filter]
  refine (List.subperm_of_subset (List.nodup_range.filter _) ?_).length_le
  intro j member
  obtain ⟨inside, its⟩ := List.mem_filter.mp member
  obtain ⟨x, there, same⟩ := (Option.any_eq_true _ _).mp its
  exact List.mem_filter.mpr ⟨shut j (eq_of_beq same ▸ there), its⟩

theorem countP_brings : h.countP (brings batch id) =
    h.countP (drops batch id) + h.countP (fun e => brings batch id e && e.2.isSome) := by
  induction h with
  | nil => rfl
  | cons e h ih =>
    obtain ⟨n, _ | i⟩ := e
    · simp [List.countP_cons, ih, drops]
      omega
    · simp [List.countP_cons, ih, drops]
      omega

theorem countP_le_add {α : Type} {p q r : α → Bool} {xs : List α}
    (cases : ∀ x ∈ xs, p x = true → q x = true ∨ r x = true) :
    xs.countP p ≤ xs.countP q + xs.countP r := by
  induction xs with
  | nil => exact Nat.le_refl _
  | cons x xs ih =>
    have rest := ih fun y member => cases y (List.mem_cons_of_mem _ member)
    have here := cases x List.mem_cons_self
    simp only [List.countP_cons]
    split
    · next its => rcases here its with its | its <;> simp [its] <;> omega
    · omega

/-- A slot is closed by a report of its job, or because a wait has run out. -/
theorem IsFilling.countP_closed_le (f : h.IsFilling batch jobIds) (id : String) (k : Nat) :
    (closed (h.take k)).countP (isSlotOf jobIds id) ≤
      (h.take k).countP (givesUp jobIds id) +
        (h.take k).countP fun e => brings batch id e && e.2.isSome := by
  rw [closed, List.countP_filterMap]
  refine countP_le_add fun e member its => ?_
  obtain ⟨⟨n, _ | i⟩, rfl⟩ : ∃ e', e' = e := ⟨e, rfl⟩
  · cases its
  · cases n with
    | timeout => exact .inl (by simpa [givesUp] using its)
    | report r =>
      obtain ⟨k, there⟩ := List.getElem?_of_mem (List.mem_of_mem_take member)
      obtain ⟨own, same, _⟩ := f.report there
      have its : r.jobId = id := by simpa [isSlotOf, same] using its
      exact .inr (by simp [brings, Notice.reports, own, its])

theorem mem_closed_take {k i : Nat} (before : h.ClosedBefore k i) : i ∈ closed (h.take k) := by
  obtain ⟨j, before, n, there⟩ := before
  refine List.mem_filterMap.mpr ⟨(n, some i), ?_, rfl⟩
  exact List.mem_of_getElem? ((List.getElem?_take_of_lt before).trans there)

/-- A batch drops no more reports on a job than it has slots of the job that waits have closed, if
it gets no more reports on the job than it has slots of it. -/
theorem IsFilling.drops_le (f : h.IsFilling batch jobIds)
    (few : h.countP (brings batch id) ≤ jobIds.countP (· == id)) (k : Nat) :
    (h.take k).countP (drops batch id) ≤ (h.take k).countP (givesUp jobIds id) := by
  induction k with
  | zero => exact Nat.le_refl _
  | succ k ih =>
    have later {q : Notice × Option Nat → Bool} :
        (h.take k).countP q ≤ (h.take (k + 1)).countP q :=
      (List.take_prefix_take_left (Nat.le_succ k)).countP_le
    by_cases dropped : ∃ r, h[k]? = some (.report r, none) ∧ r.batch = batch ∧ r.jobId = id
    · -- all slots of the job are closed by now, as many of them by reports as were not dropped
      obtain ⟨r, there, own, rfl⟩ := dropped
      have shut := (f.dropped there).resolve_left (not_not.mpr own)
      have all := countP_slots_le (h := h.take k) fun j its => mem_closed_take (shut j its)
      have closers := f.countP_closed_le r.jobId k
      have brought : (h.take (k + 1)).countP (brings batch r.jobId) ≤
          h.countP (brings batch r.jobId) := (List.take_sublist _ _).countP_le
      rw [countP_brings] at brought
      have := later (q := fun e => brings batch r.jobId e && e.2.isSome)
      have := later (q := givesUp jobIds r.jobId)
      omega
    · have same :
          (h.take (k + 1)).countP (drops batch id) = (h.take k).countP (drops batch id) := by
        rw [List.take_add_one, List.countP_append, Nat.add_eq_left, List.countP_eq_zero]
        intro e there its
        have there : h[k]? = some e := by simpa using there
        obtain ⟨n, x⟩ := e
        cases n with
        | timeout => simp [drops, brings, Notice.reports] at its
        | report r =>
          simp [drops, brings, Notice.reports] at its
          exact dropped ⟨r, its.2 ▸ there, its.1⟩
      exact same ▸ Nat.le_trans ih later

end History

theorem Collection.IsFilled.length_closed {c : Collection} {h : History} {jobIds : List String}
    (f : c.IsFilled jobIds h) : h.closed.length + c.remaining = jobIds.length := by
  have isOpen_iff (i : Nat) : c.slots[i]?.any Option.isNone = true ↔ c.IsOpen i := by
    rw [IsOpen]
    cases c.slots[i]? <;> simp
  have perm : h.closed.Perm
      ((List.range jobIds.length).filter fun i => ¬c.slots[i]?.any Option.isNone) := by
    rw [List.perm_ext_iff_of_nodup f.filling.nodup_closed (List.nodup_range.filter _)]
    intro i
    rw [History.mem_closed_iff, List.mem_filter, List.mem_range, decide_eq_true_eq, isOpen_iff]
    constructor
    · intro closed
      have inside := List.mem_range.mp (f.filling.closed_subset (History.mem_closed_iff.mpr closed))
      exact ⟨inside, (f.closedBefore_iff inside).mp closed⟩
    · rintro ⟨inside, shut⟩
      exact (f.closedBefore_iff inside).mpr shut
  have slots := countP_range_getElem? Option.isNone c.slots
  have all := List.length_eq_countP_add_countP (fun i => c.slots[i]?.any Option.isNone)
    (l := List.range jobIds.length)
  rw [f.kept.length, f.names, ← f.kept.remaining] at slots
  rw [List.length_range, slots, List.countP_eq_length_filter, ← perm.length_eq] at all
  omega

-- ---------------------------------------------------------------------------
-- What is on its way for a job
-- ---------------------------------------------------------------------------

section
variable {σ : Type} {wanted wanted' : Nat → String → Bool} {f : Floor σ} {p : Pool σ}
  {ds : List (Duty σ)}

theorem Floor.cargo_mono (more : ∀ b id, wanted b id = true → wanted' b id = true) :
    f.cargo wanted ≤ f.cargo wanted' := by
  have feeder : f.feeder.elim 0 (Feeder.cargo wanted) ≤ f.feeder.elim 0 (Feeder.cargo wanted') := by
    cases f.feeder with
    | none => exact Nat.le_refl _
    | some g =>
      refine Nat.add_le_add ?_ (List.countP_mono_left fun record _ => more _ _)
      cases g.load <;> exact Bool.toNat_le_toNat (more _ _)
  have queue : f.queue.countP (fun a => wanted a.batch a.record.id) ≤
      f.queue.countP fun a => wanted' a.batch a.record.id :=
    List.countP_mono_left fun a _ => more _ _
  have seats : f.seats.countP (Seat.cargo wanted) ≤ f.seats.countP (Seat.cargo wanted') := by
    refine List.countP_mono_left fun st _ its => ?_
    cases st with
    | working | reporting => exact more _ _ its
    | free | left => cases its
  have results : f.results.countP (fun r => wanted r.batch r.jobId) ≤
      f.results.countP fun r => wanted' r.batch r.jobId :=
    List.countP_mono_left fun r _ => more _ _
  unfold Floor.cargo
  omega

variable (ds) in
theorem Watched.cargo_floor (wanted : Nat → Bool) :
    (floor ⟨p, ds⟩).cargo (fun batch _ => wanted batch) = p.underway wanted := by
  have seats : p.seats.countP (Seat.cargo fun batch _ => wanted batch) =
      p.seats.countP fun s => s.batch?.any wanted :=
    List.countP_congr fun st _ => by cases st <;> simp [Seat.cargo, Seat.batch?]
  have feeder : p.feeder?.elim 0 (Feeder.cargo fun batch _ => wanted batch) =
      p.feeder?.elim 0 (Feeder.underway wanted) := by
    cases p.feeder? with
    | none => rfl
    | some g =>
      have rest : g.rest.countP (fun _ => wanted g.batch) =
          (wanted g.batch).toNat * g.rest.length := by
        cases wanted g.batch <;> simp
      simp only [Option.elim_some, Feeder.cargo, Feeder.underway, rest]
      cases g.load <;> rfl
  simp only [Floor.cargo, floor, Pool.underway, seats, feeder]
  omega

end

namespace Watched

open Pool (Beat)

variable {σ : Type} [RecordStore σ] {wanted : Nat → String → Bool} {w w' : Watched σ} {b : Beat}
  {beats : List Beat}

variable (wanted) in
theorem Step.cargo_le (step : Step w b w') (later : b.move ≠ .begin) :
    w'.floor.cargo wanted + b.reports.countP (fun r => wanted r.batch r.jobId) ≤
      w.floor.cargo wanted := by
  cases step with
  | of h => exact (change_of_step? h).cargo_le later

variable (wanted) in
theorem cargo_le_of_trace (trace : Trace Step w beats w') (same : ∀ b ∈ beats, b.move ≠ .begin) :
    w'.floor.cargo wanted +
      (beats.flatMap Beat.reports).countP (fun r => wanted r.batch r.jobId) ≤
        w.floor.cargo wanted := by
  induction trace with
  | nil => simp
  | @snoc _ _ beats b _ last ih =>
    have := ih fun b earlier => same b (List.mem_append_left _ earlier)
    have := last.cargo_le wanted (same b (by simp))
    simp only [List.flatMap_append, List.flatMap_singleton, List.countP_append]
    omega

end Watched

-- ---------------------------------------------------------------------------
-- Rounds of a batch
-- ---------------------------------------------------------------------------

namespace Pool

variable {σ : Type} {p p₁ p₂ : Pool σ} {b : Beat} {beats during : List Beat} {next : Submission}
  {batch earlier : Nat} {jobIds : List String} {h : History}
  {returned : List (Nat × List JobOutcome)}

/-- What the rounds of a batch come to. Each of them fills a slot or drops a report, one of the
batch or an earlier one. What they have used up and what is left are no more than there was at first. -/
structure Rounds (p : Pool σ) (batch : Nat) (jobIds : List String) (earlier : Nat) (h : History) :
    Prop where
  filling : h.IsFilling batch jobIds
  each : ∀ e ∈ h, (∃ i < jobIds.length, e.2 = some i) ∨
    ∃ r, e = (.report r, none) ∧ (r.batch = batch ∨ r.batch < batch)
  slots : h.closed.length + p.awaited ≤ jobIds.length
  own : h.reports.countP (·.batch == batch) + p.underway (· == batch) ≤ jobIds.length
  /-- A report of the batch is dropped because a wait has closed its slot before. -/
  late : ∀ k id, (h.take k).countP (History.drops batch id) ≤
    (h.take k).countP (History.givesUp jobIds id)
  past : h.reports.countP (·.batch < batch) + p.underway (· < batch) ≤ earlier

theorem Rounds.length_le (rounds : p.Rounds batch jobIds earlier h) :
    h.length ≤ 2 * jobIds.length + earlier := by
  have known : ∀ r ∈ h.reports, r.batch = batch ∨ r.batch < batch := by
    intro r brought
    obtain ⟨⟨n, x⟩, told, its⟩ := List.mem_flatMap.mp brought
    cases n with
    | timeout => cases its
    | report r' =>
      obtain rfl := List.mem_singleton.mp its
      cases x with
      | some i =>
        obtain ⟨k, there⟩ := List.getElem?_of_mem told
        exact .inl (rounds.filling.report there).1
      | none =>
        obtain ⟨i, _, closed⟩ | ⟨r', same, which⟩ := rounds.each _ told
        · cases closed
        · cases same
          exact which
  have both : h.reports.length ≤
      h.reports.countP (·.batch == batch) + h.reports.countP (·.batch < batch) := by
    rw [← List.countP_true]
    exact History.countP_le_add fun r brought _ => by simpa using known r brought
  have := rounds.filling.length_le
  have := rounds.own
  have := rounds.past
  omega

theorem underway_mono {wanted wanted' : Nat → Bool}
    (more : ∀ b, wanted b = true → wanted' b = true) :
    p.underway wanted ≤ p.underway wanted' := by
  rw [← Watched.cargo_floor [], ← Watched.cargo_floor []]
  exact Floor.cargo_mono fun b _ => more b

theorem cargo_begun {wanted : Nat → String → Bool} {rest : List Submission}
    {nextBatch batch ticket : Nat} {records : List Record} {collection : Collection}
    (idle : p.turn = none) :
    (Watched.floor ⟨{ p with
      line := rest
      nextBatch
      turn := some ⟨ticket, collection, Feeder.ofRecords? batch records⟩ }, []⟩).cargo wanted =
        (Watched.floor ⟨p, []⟩).cargo wanted + records.countP fun r => wanted batch r.id := by
  simp only [Floor.cargo, Watched.floor, feeder?, idle, Option.bind_some, Option.bind_none,
    Option.elim_none, Feeder.cargo_ofRecords?]
  omega

theorem Rounds.of_filled {c : Collection} (filled : c.IsFilled jobIds h) (mine : c.batch = batch)
    (awaits : p.awaited = c.remaining)
    (known : ∀ r ∈ h.reports, r.batch = batch ∨ r.batch < batch)
    (few : ∀ id, h.reports.countP (fun r => r.batch == batch && r.jobId == id) ≤
      jobIds.countP (· == id))
    (own : h.reports.countP (·.batch == batch) + p.underway (· == batch) ≤ jobIds.length)
    (past : h.reports.countP (·.batch < batch) + p.underway (· < batch) ≤ earlier) :
    p.Rounds batch jobIds earlier h where
  filling := mine ▸ filled.filling
  each := by
    rintro ⟨n, x⟩ told
    obtain ⟨k, there⟩ := List.getElem?_of_mem told
    cases x with
    | some i => exact .inl ⟨i, filled.filling.lt_of_closed there, rfl⟩
    | none =>
      cases n with
      | report r =>
        exact .inr ⟨r, rfl, known r (List.mem_flatMap.mpr ⟨_, told, List.mem_singleton_self r⟩)⟩
      | timeout =>
        obtain ⟨i, _, closed, _⟩ := filled.filling.timeout there
        cases closed
  slots := awaits ▸ Nat.le_of_eq filled.length_closed
  own := own
  late k id := (mine ▸ filled.filling).drops_le (History.countP_reports ▸ few id) k
  past := past

theorem Served.filled (served : p.Served next batch h returned) : ∃ c : Collection,
    c.IsFilled next.jobIds h ∧ c.batch = batch ∧ p.awaited = c.remaining := by
  cases served with
  | waiting collecting own filled => exact ⟨_, filled, own, by simp [awaited, collecting]⟩
  | @done c collecting own filled complete =>
    have none : c.remaining = 0 := by simpa [Collection.isComplete] using complete
    exact ⟨c, filled, own, by simp [awaited, collecting, none]⟩

variable [RecordStore σ]

theorem countP_reports_le (fresh : p.IsFresh) (accepting : p.accepting = true)
    (first : p.line.head? = some next) (begins : Step p b p₁) (its : b.move = .begin)
    (turn : Trace Step p₁ during p₂) (same : ∀ b ∈ during, b.move ≠ .begin) (id : String) :
    (during.flatMap Beat.reports).countP (fun r => r.batch == p.nextBatch && r.jobId == id) ≤
      next.jobIds.countP (· == id) := by
  let wanted : Nat → String → Bool := fun batch jobId => batch == p.nextBatch && jobId == id
  obtain ⟨ds, turn⟩ := Watched.exists_trace [] turn
  have taken := Watched.cargo_le_of_trace wanted turn same
  have before : (Watched.floor ⟨p, []⟩).cargo wanted = 0 := by
    refine Nat.eq_zero_of_le_zero ?_
    rw [← fresh p.nextBatch (Nat.le_refl _), ← Watched.cargo_floor []]
    exact Floor.cargo_mono fun b _ both => (Bool.and_eq_true _ _ ▸ both).1
  cases begins.effect with
  | submitted => cases its
  | @begun now next' rest idle line =>
    obtain rfl : next' = next := by simpa [line] using first
    rw [cargo_begun idle, before] at taken
    simp only [wanted, beq_self_eq_true, Bool.true_and] at taken
    rw [Submission.jobIds, List.countP_map]
    exact Nat.le_trans (Nat.le_add_left _ _) (Nat.zero_add _ ▸ taken)
  | refused _ _ closed => rw [accepting] at closed; cases closed
  | told _ notice => cases its; cases notice
  | stuck => cases its
  | framed _ later => exact absurd its later

theorem notices_of_idle (turn : Trace Step p₁ during p₂) (same : ∀ b ∈ during, b.move ≠ .begin)
    (idle : p₁.collecting? = none) :
    p₂.collecting? = none ∧ during.filterMap Beat.notice = [] := by
  induction turn with
  | nil => exact ⟨idle, rfl⟩
  | @snoc _ _ beats b _ last ih =>
    obtain ⟨idle, silent⟩ := ih fun b before => same b (List.mem_append_left _ before)
    have later := same b (by simp)
    rw [List.filterMap_append, silent, List.nil_append]
    cases last.effect with
    | submitted => exact ⟨collecting?_submit.trans idle, rfl⟩
    | begun => exact absurd rfl later
    | refused => exact absurd rfl later
    | told _ _ its => simp [collecting?, its] at idle
    | stuck its => simp [collecting?, its] at idle
    | framed none _ frame => exact ⟨frame.collecting.trans idle, by simp [none]⟩

/-- A batch gets its turn when no other has it. It is the first in the line, and its records are all
that is new on its way; a closed pool refuses it. -/
theorem first_of_begin (begins : Step p b p₁) (its : b.move = .begin) :
    p.turn = none ∧ ∃ next, p.line.head? = some next ∧
      (∀ wanted : Nat → Bool, p₁.underway wanted ≤
        p.underway wanted + (wanted p.nextBatch).toNat * next.records.length) ∧
      (p₁.collecting? = none ∨ p.accepting = true ∧
        p₁.collecting? = some (next.ticket, .ofRecords p.nextBatch next.records)) := by
  cases begins.effect with
  | submitted => cases its
  | begun idle line accepting =>
    exact ⟨idle, _, by rw [line]; rfl, fun _ => Nat.le_of_eq (underway_begun idle),
      .inr ⟨accepting, rfl⟩⟩
  | refused idle line =>
    exact ⟨idle, _, by rw [line]; rfl, fun _ => Nat.le_add_right _ _,
      .inl (by simp [collecting?, idle])⟩
  | told _ notice => cases its; cases notice
  | stuck => cases its
  | framed _ later => exact absurd its later

omit [RecordStore σ] in
/-- Reports that nothing but the records of a batch is new to are of that batch or of earlier ones,
and neither are more than was on its way. -/
theorem spent_of_taken {reports : List Report} {size : Nat} (fresh : p.IsFresh)
    (idle : p.turn = none)
    (taken : ∀ wanted : Nat → Bool, p₂.underway wanted + reports.countP (fun r => wanted r.batch) ≤
      p.underway wanted + (wanted p.nextBatch).toNat * size) :
    (∀ r ∈ reports, r.batch = p.nextBatch ∨ r.batch < p.nextBatch) ∧
      reports.countP (·.batch == p.nextBatch) + p₂.underway (· == p.nextBatch) ≤ size ∧
      reports.countP (·.batch < p.nextBatch) + p₂.underway (· < p.nextBatch) ≤ p.outstanding := by
  refine ⟨fun r brought => ?_, ?_, ?_⟩
  · by_contra beyond
    have few := taken (· == r.batch)
    have other : (p.nextBatch == r.batch) = false := by simp; omega
    rw [fresh r.batch (by omega), other, Bool.toNat_false, Nat.zero_mul] at few
    have some : 0 < reports.countP fun r' => r'.batch == r.batch :=
      List.countP_pos_iff.mpr ⟨r, brought, by simp⟩
    omega
  · have few := taken (· == p.nextBatch)
    rw [fresh p.nextBatch (Nat.le_refl _), beq_self_eq_true, Bool.toNat_true] at few
    omega
  · have few := taken (· < p.nextBatch)
    have all : p.underway (· < p.nextBatch) ≤ p.underway fun _ => true :=
      underway_mono fun _ _ => rfl
    rw [underway_eq_outstanding idle] at all
    simp only [Nat.lt_irrefl, decide_false, Bool.toNat_false, Nat.zero_mul] at few
    omega

/-- The loop of a batch goes round at most twice for each of its records, and once for each report
that is still to come from earlier batches. -/
theorem rounds_bounded {settings : Settings} {registry : Registry (Handler σ)}
    (before : Trace Step (start settings registry) beats p)
    (begins : Step p b p₁) (its : b.move = .begin)
    (turn : Trace Step p₁ during p₂) (same : ∀ b ∈ during, b.move ≠ .begin) :
    ∃ (next : Submission) (h : History),
      p.line.head? = some next ∧ h.map Prod.fst = during.filterMap Beat.notice ∧
      p₂.Rounds p.nextBatch next.jobIds p.outstanding h ∧
      h.length ≤ 2 * next.records.length + p.outstanding ∧
      (p₂.turn = none ∨ ∀ now store, ∃ m p₃ events,
        p₂.step? now store m = some (p₃, store, events) ∧ p₂.notice? m ≠ none) := by
  obtain ⟨idle, next, first, brings, goes⟩ := first_of_begin begins its
  have size : next.jobIds.length = next.records.length := List.length_map _
  suffices rounds : ∃ h : History, h.map Prod.fst = during.filterMap Beat.notice ∧
      p₂.Rounds p.nextBatch next.jobIds p.outstanding h by
    obtain ⟨h, told, rounds⟩ := rounds
    refine ⟨next, h, first, told, rounds, size ▸ rounds.length_le, ?_⟩
    cases turn : p₂.turn with
    | none => exact .inl rfl
    | some t => exact .inr (exists_notice turn)
  have fresh := isFresh_of_trace before
  obtain ⟨known, own, past⟩ := spent_of_taken fresh idle fun wanted =>
    Nat.le_trans (underway_of_trace turn same wanted) (brings wanted)
  rw [← size] at own
  rcases goes with none | ⟨accepting, collecting⟩
  · obtain ⟨none, silent⟩ := notices_of_idle turn same none
    rw [← reports_of_notices (h := []) silent.symm] at own past
    refine ⟨[], silent.symm, ?_⟩
    have filling := (Collection.IsFilled.start p.nextBatch next.records).filling
    exact ⟨filling, by simp, by simp [awaited, none, History.closed], own, by simp, past⟩
  · have filled := (submitted_of_trace before (List.mem_of_mem_head? first)).1
    have waits : (Collection.ofRecords p.nextBatch next.records).isComplete = false := by
      simpa [Collection.ofRecords, Collection.isComplete] using filled
    have start : p₁.Served next p.nextBatch [] [] :=
      .waiting collecting rfl (.start p.nextBatch next.records) waits rfl
    obtain ⟨h, told, served⟩ := start.run turn same
    obtain ⟨c, filled, mine, awaits⟩ := served.filled
    have few := countP_reports_le fresh accepting first begins its turn same
    rw [← reports_of_notices told] at known own past
    simp only [← reports_of_notices told] at few
    exact ⟨h, told, .of_filled filled mine awaits known few own past⟩

/-- The wait of one batch runs out while its record is in the queue. -/
def leftBehind : List Move :=
  [.submit 0 [strayRecord "a"], .submit 1 [strayRecord "a", strayRecord "b"], .begin, .feed,
   .expire]

/-- The turn of the next batch: a wait runs out, a report of each batch comes too late, and another
wait runs out. -/
def fourRounds : List Move :=
  [.feed, .expire, .take 0, .handOver 0, .collect, .take 0, .handOver 0, .collect, .expire]

theorem rounds_bounded_fourRounds : ∃ beats during b p p₁ p₂,
    Trace Step (start ⟨1, 300, 30, 300⟩ Registry.empty : Pool MemoryStore) beats p ∧
      Step p b p₁ ∧ b.move = .begin ∧ Trace Step p₁ during p₂ ∧
      (∀ b ∈ during, b.move ≠ .begin) ∧ p.outstanding = 1 ∧
      ∃ h : History, h.length = 4 ∧ p₂.Rounds p.nextBatch ["a", "b"] 1 h := by
  have checked : (Trace.play? cue? (start ⟨1, 300, 30, 300⟩ Registry.empty)
      (movesAtOnce leftBehind)).any fun played =>
        played.2.outstanding == 1 &&
          played.2.line.head? == some ⟨1, ["a", "b"].map strayRecord⟩ &&
          (played.2.cue? ⟨.epoch, .begin, Keyed.empty⟩).any fun begun => begun.1.move == .begin &&
            (Trace.play? cue? begun.2 (movesAtOnce fourRounds)).any fun played =>
              played.1.all (fun b => b.move ≠ .begin) &&
                (played.1.filterMap Beat.notice).length == 4 := by
    decide +kernel
  obtain ⟨beats, p, before, checked⟩ := Trace.exists_of_play? step_of_cue? checked
  simp only [Bool.and_eq_true, beq_iff_eq] at checked
  obtain ⟨⟨one, first⟩, begun⟩ := checked
  obtain ⟨⟨b, p₁⟩, begins, checked⟩ := (Option.any_eq_true _ _).mp begun
  simp only [Bool.and_eq_true, beq_iff_eq] at checked
  obtain ⟨its, played⟩ := checked
  obtain ⟨during, p₂, turn, checked⟩ := Trace.exists_of_play? step_of_cue? played
  simp only [Bool.and_eq_true, List.all_eq_true, decide_eq_true_eq, beq_iff_eq] at checked
  obtain ⟨same, four⟩ := checked
  have begins := step_of_cue? begins
  obtain ⟨next, h, first', told, rounds, _⟩ := rounds_bounded before begins its turn same
  obtain rfl := Option.some.inj (first.symm.trans first')
  have length : h.length = 4 := by rw [← four, ← told, List.length_map]
  exact ⟨beats, during, b, p, p₁, p₂, before, begins, its, turn, same, one, h, length,
    one ▸ rounds⟩

end Pool

end JobQueue
