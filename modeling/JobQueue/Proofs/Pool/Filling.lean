import JobQueue.Proofs.Pool.Books
import Mathlib.Data.List.Perm.Subperm

/-!
# How slots are filled

A batch that collects is told one thing after another: a report, or that its wait has run out. A
history says for each of these which slot it closed, if it closed one. `IsFilling` is what a history
keeps to, without mention of how the slots are kept: each slot is closed at most once, a report
closes the lowest slot of its job that is open, a wait that has run out the lowest of all, and only
a report without such a slot is dropped. `Collection.IsFilled.note` shows that a collection keeps
to it.
-/

namespace JobQueue

/-- What a batch that collects is told: a report, or that its wait for one has run out. -/
inductive Notice
  | report (r : Report)
  | timeout
  deriving DecidableEq, Repr

namespace Notice

def outcome : Notice → Outcome
  | report r => r.outcome
  | timeout => .error .resultTimeout

def reports : Notice → List Report
  | report r => [r]
  | timeout => []

end Notice

namespace Collection

variable {c c' : Collection} {n : Notice} {i : Nat} {o : Outcome}

/-- The collection after a notice, unless a wait has run out and no slot is open. -/
def note? (c : Collection) : Notice → Option Collection
  | .report r => some (c.receive r)
  | .timeout => c.expire?

def target? (c : Collection) : Notice → Option Nat
  | .report r => if r.batch = c.batch then (Pending.slotsOf c.pending r.jobId).head? else none
  | .timeout => c.slots.findIdx? Option.isNone

def Wants (c : Collection) (i : Nat) : Notice → Prop
  | .report r => r.batch = c.batch ∧ c.jobIds[i]? = some r.jobId
  | .timeout => True

theorem IsKept.target?_eq_some_iff (kept : c.IsKept) : c.target? n = some i ↔
    c.IsOpen i ∧ c.Wants i n ∧ ∀ j < i, c.Wants j n → ¬ c.IsOpen j := by
  cases n with
  | report r =>
    by_cases own : r.batch = c.batch
    · simp only [target?, Wants, own, if_true, kept.pending, head?_openSlots, true_and]
      exact ⟨fun ⟨its, isOpen, lowest⟩ => ⟨isOpen, its, lowest⟩,
        fun ⟨isOpen, its, lowest⟩ => ⟨its, isOpen, lowest⟩⟩
    · simp [target?, Wants, own]
  | timeout =>
    simp only [target?, Wants, List.findIdx?_eq_some_iff_getElem, IsOpen, true_and, true_imp_iff]
    constructor
    · rintro ⟨inside, isNone, lowest⟩
      refine ⟨List.getElem?_eq_some_iff.mpr ⟨inside, Option.isNone_iff_eq_none.mp isNone⟩, ?_⟩
      intro j before isOpen
      exact lowest j before (by simp [(List.getElem?_eq_some_iff.mp isOpen).2])
    · rintro ⟨isOpen, lowest⟩
      obtain ⟨inside, isNone⟩ := List.getElem?_eq_some_iff.mp isOpen
      refine ⟨inside, by simp [isNone], fun j before isNone => ?_⟩
      exact lowest j before (List.getElem?_eq_some_iff.mpr
        ⟨Nat.lt_trans before inside, Option.isNone_iff_eq_none.mp isNone⟩)

theorem IsKept.target?_eq_none_iff (kept : c.IsKept) :
    c.target? n = none ↔ ∀ j, c.Wants j n → ¬ c.IsOpen j := by
  cases n with
  | report r =>
    by_cases own : r.batch = c.batch
    · simp only [target?, Wants, own, if_true, kept.pending, List.head?_eq_none_iff, true_and,
        List.eq_nil_iff_forall_not_mem, mem_openSlots, not_and]
    · simp [target?, Wants, own]
  | timeout =>
    simp only [target?, Wants, List.findIdx?_eq_none_iff, IsOpen, true_imp_iff]
    constructor
    · intro none j isOpen
      cases none _ (List.mem_of_getElem? isOpen)
    · intro none slot member
      obtain ⟨j, there⟩ := List.getElem?_of_mem member
      cases slot with
      | none => exact absurd there (none j)
      | some o => rfl

theorem IsKept.target?_timeout (kept : c.IsKept) (waits : c.isComplete = false) :
    ∃ i, c.target? .timeout = some i := by
  cases none : c.target? .timeout with
  | some i => exact ⟨i, rfl⟩
  | none =>
    obtain ⟨i, isOpen⟩ := kept.isComplete_eq_false_iff.mp waits
    exact absurd isOpen (kept.target?_eq_none_iff.mp none i trivial)

theorem IsKept.note?_closes (kept : c.IsKept) (target : c.target? n = some i) :
    ∃ c', c.note? n = some c' ∧ c.Closes c' i n.outcome := by
  cases n with
  | report r =>
    rw [target?, Option.ite_none_right_eq_some] at target
    exact ⟨_, rfl, kept.receive_closes target.1 target.2⟩
  | timeout => exact kept.expire?_closes target

theorem receive_of_target? {r : Report} (none : c.target? (.report r) = none) :
    c.receive r = c := by
  unfold receive
  split
  · rfl
  · next own =>
    rw [target?, if_pos (not_not.mp own), List.head?_eq_none_iff] at none
    rw [none]

theorem IsKept.note?_cases (kept : c.IsKept) (noted : c.note? n = some c') :
    (c' = c ∧ ∃ r, n = .report r) ∨ ∃ i, c.IsOpen i ∧ c.Closes c' i n.outcome := by
  cases target : c.target? n with
  | none =>
    cases n with
    | report r =>
      rw [← Option.some.inj noted]
      exact .inl ⟨receive_of_target? target, r, rfl⟩
    | timeout =>
      rw [target?] at target
      simp [note?, expire?, target] at noted
  | some i =>
    obtain ⟨c'', noted', closes⟩ := kept.note?_closes target
    obtain rfl := Option.some.inj (noted.symm.trans noted')
    exact .inr ⟨i, (kept.target?_eq_some_iff.mp target).1, closes⟩

theorem IsKept.note (kept : c.IsKept) (noted : c.note? n = some c') : c'.IsKept := by
  rcases kept.note?_cases noted with ⟨rfl, _⟩ | ⟨i, isOpen, closes⟩
  · exact kept
  · exact closes.isKept kept isOpen

end Collection

-- ---------------------------------------------------------------------------
-- Histories
-- ---------------------------------------------------------------------------

/-- What a batch was told, each with the slot that it closed. -/
abbrev History := List (Notice × Option Nat)

namespace History

variable {h : History} {n : Notice} {i k : Nat} {x : Option Nat}

def ClosedBefore (h : History) (k i : Nat) : Prop := ∃ j < k, ∃ n, h[j]? = some (n, some i)

/-- What a history keeps to, in a batch of jobs. -/
structure IsFilling (batch : Nat) (jobIds : List String) (h : History) : Prop where
  /-- Each slot is closed at most once. -/
  once : ∀ {j k i : Nat} {m n : Notice}, h[j]? = some (m, some i) → h[k]? = some (n, some i) → j = k
  /-- A report closes the lowest open slot of its job, in its own batch. -/
  report : ∀ {k i : Nat} {r : Report}, h[k]? = some (.report r, some i) →
    r.batch = batch ∧ jobIds[i]? = some r.jobId ∧
      ∀ j < i, jobIds[j]? = some r.jobId → h.ClosedBefore k j
  /-- A report is dropped only if it belongs to another batch or its job has no open slot. -/
  dropped : ∀ {k : Nat} {r : Report}, h[k]? = some (.report r, none) →
    r.batch ≠ batch ∨ ∀ j, jobIds[j]? = some r.jobId → h.ClosedBefore k j
  /-- A wait that runs out closes the lowest open slot, and there is one. -/
  timeout : ∀ {k : Nat} {x : Option Nat}, h[k]? = some (.timeout, x) →
    ∃ i < jobIds.length, x = some i ∧ ∀ j < i, h.ClosedBefore k j

theorem getElem?_snoc {e e' : Notice × Option Nat} : (h ++ [e])[k]? = some e' ↔
    h[k]? = some e' ∨ k = h.length ∧ e = e' := by
  rw [List.getElem?_append]
  split
  · next inside =>
    exact ⟨.inl, fun found => found.resolve_right fun last => by omega⟩
  · next outside =>
    rw [List.getElem?_singleton, List.getElem?_eq_none (Nat.le_of_not_lt outside)]
    have last : k - h.length = 0 ↔ k = h.length := by omega
    simp only [reduceCtorEq, false_or, Option.ite_none_right_eq_some, Option.some.injEq, last]

theorem ClosedBefore.snoc {e : Notice × Option Nat} (closed : h.ClosedBefore k i) :
    (h ++ [e] : History).ClosedBefore k i := by
  obtain ⟨j, hj, m, there⟩ := closed
  exact ⟨j, hj, m, getElem?_snoc.mpr (.inl there)⟩

def closed (h : History) : List Nat := h.filterMap Prod.snd

def reports (h : History) : List Report := h.flatMap fun e => e.1.reports

variable {batch : Nat} {jobIds : List String}

theorem mem_closed_iff : i ∈ h.closed ↔ h.ClosedBefore h.length i := by
  simp only [closed, List.mem_filterMap, ClosedBefore]
  constructor
  · rintro ⟨⟨n, x⟩, told, rfl⟩
    obtain ⟨k, inside, there⟩ := List.mem_iff_getElem.mp told
    exact ⟨k, inside, n, List.getElem?_eq_some_iff.mpr ⟨inside, there⟩⟩
  · rintro ⟨k, _, n, there⟩
    exact ⟨(n, some i), List.mem_of_getElem? there, rfl⟩

theorem IsFilling.lt_of_closed (f : h.IsFilling batch jobIds) (told : h[k]? = some (n, some i)) :
    i < jobIds.length := by
  cases n with
  | report r => exact (List.getElem?_eq_some_iff.mp (f.report told).2.1).1
  | timeout =>
    obtain ⟨_, inside, same, _⟩ := f.timeout told
    obtain rfl := Option.some.inj same
    exact inside

theorem IsFilling.nodup_closed (f : h.IsFilling batch jobIds) : h.closed.Nodup := by
  rw [closed, List.Nodup, List.pairwise_filterMap, List.pairwise_iff_getElem]
  rintro j k hj hk before i first i' second rfl
  have told (k : Nat) (hk : k < h.length) (its : h[k].2 = some i) :
      h[k]? = some (h[k].1, some i) := by
    rw [List.getElem?_eq_getElem hk, ← its]
  have same := f.once (told j hj first) (told k hk second)
  omega

theorem IsFilling.closed_subset (f : h.IsFilling batch jobIds) :
    h.closed ⊆ List.range jobIds.length := by
  intro i closed
  obtain ⟨k, _, n, told⟩ := mem_closed_iff.mp closed
  exact List.mem_range.mpr (f.lt_of_closed told)

theorem IsFilling.length_closed_le (f : h.IsFilling batch jobIds) :
    h.closed.length ≤ jobIds.length := by
  have := (List.subperm_of_subset f.nodup_closed f.closed_subset).length_le
  rwa [List.length_range] at this

/-- All slots are closed, each once, if none is left open. -/
theorem IsFilling.closed_perm (f : h.IsFilling batch jobIds)
    (all : ∀ i < jobIds.length, h.ClosedBefore h.length i) :
    h.closed.Perm (List.range jobIds.length) := by
  rw [List.perm_ext_iff_of_nodup f.nodup_closed List.nodup_range]
  intro i
  exact ⟨fun closed => f.closed_subset closed,
    fun inside => mem_closed_iff.mpr (all i (List.mem_range.mp inside))⟩

theorem length_le_of_timeouts_close (closes : ∀ x, (Notice.timeout, x) ∈ h → x ≠ none) :
    h.length ≤ h.reports.length + h.closed.length := by
  induction h with
  | nil => simp
  | cons e h ih =>
    have rest := ih fun x told => closes x (List.mem_cons_of_mem _ told)
    have reports_cons : reports (e :: h) = e.1.reports ++ reports h := rfl
    rw [reports_cons, List.length_append, List.length_cons]
    obtain ⟨n, _ | i⟩ := e
    · cases n with
      | report r =>
        change h.length + 1 ≤ 1 + (reports h).length + (closed h).length
        omega
      | timeout => exact absurd rfl (closes none List.mem_cons_self)
    · have closed_cons : closed ((n, some i) :: h) = i :: closed h := rfl
      rw [closed_cons, List.length_cons]
      omega

/-- A batch is told no more than its reports, and one thing more for each of its slots. -/
theorem IsFilling.length_le (f : h.IsFilling batch jobIds) :
    h.length ≤ h.reports.length + jobIds.length := by
  have closes : ∀ x, (Notice.timeout, x) ∈ h → x ≠ none := by
    intro x told
    obtain ⟨k, there⟩ := List.getElem?_of_mem told
    obtain ⟨i, _, rfl, _⟩ := f.timeout there
    exact Option.some_ne_none i
  have := length_le_of_timeouts_close closes
  have := f.length_closed_le
  omega

end History

-- ---------------------------------------------------------------------------
-- A collection keeps to it
-- ---------------------------------------------------------------------------

namespace Collection

variable {c c' : Collection} {n : Notice} {h : History} {jobIds : List String} {i : Nat}

structure IsFilled (c : Collection) (jobIds : List String) (h : History) : Prop where
  kept : c.IsKept
  names : c.jobIds = jobIds
  filling : h.IsFilling c.batch jobIds
  outcomes : ∀ i o, c.slots[i]? = some (some o) ↔
    ∃ (k : Nat) (n : Notice), h[k]? = some (n, some i) ∧ n.outcome = o

theorem IsFilled.start (batch : Nat) (records : List Record) :
    (ofRecords batch records).IsFilled (records.map Record.id) [] where
  kept := isKept_ofRecords batch records
  names := rfl
  filling := ⟨by simp, by simp, by simp, by simp⟩
  outcomes := by simp [ofRecords]

theorem IsFilled.closedBefore_iff (f : c.IsFilled jobIds h) (inside : i < jobIds.length) :
    h.ClosedBefore h.length i ↔ ¬ c.IsOpen i := by
  have here : i < c.slots.length := by rwa [f.kept.length, f.names]
  rw [IsOpen, List.getElem?_eq_getElem here, Option.some.injEq, ← ne_eq,
    Option.ne_none_iff_exists']
  constructor
  · rintro ⟨k, _, n, closed⟩
    obtain ⟨_, same⟩ := List.getElem?_eq_some_iff.mp ((f.outcomes i _).mpr ⟨k, n, closed, rfl⟩)
    exact ⟨n.outcome, same⟩
  · rintro ⟨o, closed⟩
    obtain ⟨k, n, closed, _⟩ := (f.outcomes i o).mp (closed ▸ List.getElem?_eq_getElem here)
    exact ⟨k, (List.getElem?_eq_some_iff.mp closed).1, n, closed⟩

theorem IsFilled.inside (f : c.IsFilled jobIds h) (isOpen : c.IsOpen i) : i < jobIds.length := by
  rw [← f.names, ← f.kept.length]
  exact (List.getElem?_eq_some_iff.mp isOpen).1

theorem IsFilled.target?_ne (f : c.IsFilled jobIds h) {k : Nat} {m : Notice}
    (closed : h[k]? = some (m, some i)) : c.target? n ≠ some i := by
  intro target
  obtain ⟨isOpen, _⟩ := f.kept.target?_eq_some_iff.mp target
  exact (f.closedBefore_iff (f.inside isOpen)).mp
    ⟨k, (List.getElem?_eq_some_iff.mp closed).1, m, closed⟩ isOpen

theorem IsFilled.filling_snoc (f : c.IsFilled jobIds h)
    (waits : n = .timeout → c.isComplete = false) :
    (h ++ [(n, c.target? n)] : History).IsFilling c.batch jobIds where
  once := by
    intro j k i m m' hj hk
    -- two old lines, or the new one and an old one: its slot is open, so no old line closed it
    rcases History.getElem?_snoc.mp hj with hj | ⟨rfl, ej⟩ <;>
      rcases History.getElem?_snoc.mp hk with hk | ⟨rfl, ek⟩
    · exact f.filling.once hj hk
    · exact absurd (Prod.mk.inj ek).2 (f.target?_ne hj)
    · exact absurd (Prod.mk.inj ej).2 (f.target?_ne hk)
    · rfl
  report := by
    intro k i r hk
    rcases History.getElem?_snoc.mp hk with hk | ⟨rfl, e⟩
    · obtain ⟨own, its, lower⟩ := f.filling.report hk
      exact ⟨own, its, fun j hj same => (lower j hj same).snoc⟩
    · obtain ⟨rfl, target⟩ := Prod.mk.inj e
      obtain ⟨_, ⟨own, its⟩, lowest⟩ := f.kept.target?_eq_some_iff.mp target
      rw [f.names] at its
      refine ⟨own, its, fun j hj same => ?_⟩
      have inside := (List.getElem?_eq_some_iff.mp same).1
      exact ((f.closedBefore_iff inside).mpr (lowest j hj ⟨own, f.names ▸ same⟩)).snoc
  dropped := by
    intro k r hk
    rcases History.getElem?_snoc.mp hk with hk | ⟨rfl, e⟩
    · exact (f.filling.dropped hk).imp_right fun all j same => (all j same).snoc
    · obtain ⟨rfl, target⟩ := Prod.mk.inj e
      -- nothing is next for the job, so nothing that the report may close is open
      have none := f.kept.target?_eq_none_iff.mp target
      by_cases own : r.batch = c.batch
      · refine .inr fun j same => ?_
        have inside := (List.getElem?_eq_some_iff.mp same).1
        exact ((f.closedBefore_iff inside).mpr (none j ⟨own, f.names ▸ same⟩)).snoc
      · exact .inl own
  timeout := by
    intro k x hk
    rcases History.getElem?_snoc.mp hk with hk | ⟨rfl, e⟩
    · obtain ⟨i, hi, some, lower⟩ := f.filling.timeout hk
      exact ⟨i, hi, some, fun j hj => (lower j hj).snoc⟩
    · obtain ⟨rfl, rfl⟩ := Prod.mk.inj e
      obtain ⟨i, target⟩ := f.kept.target?_timeout (waits rfl)
      obtain ⟨isOpen, _, lowest⟩ := f.kept.target?_eq_some_iff.mp target
      have hi := f.inside isOpen
      refine ⟨i, hi, target, fun j hj => ?_⟩
      exact ((f.closedBefore_iff (Nat.lt_trans hj hi)).mpr (lowest j hj trivial)).snoc

theorem IsFilled.outcomes_snoc (f : c.IsFilled jobIds h) {t : Nat} (isOpen : c.IsOpen t)
    (closes : c.Closes c' t n.outcome) (i : Nat) (o : Outcome) :
    c'.slots[i]? = some (some o) ↔
      ∃ (k : Nat) (m : Notice), (h ++ [(n, some t)])[k]? = some (m, some i) ∧ m.outcome = o := by
  rw [closes.slots, List.getElem?_set, if_pos (List.getElem?_eq_some_iff.mp isOpen).1]
  constructor
  · intro now
    split at now
    · next same =>
      subst same
      refine ⟨h.length, n, History.getElem?_snoc.mpr (.inr ⟨rfl, rfl⟩), ?_⟩
      exact Option.some.inj (Option.some.inj now)
    · obtain ⟨k, m, told, same⟩ := (f.outcomes i o).mp now
      exact ⟨k, m, History.getElem?_snoc.mpr (.inl told), same⟩
  · rintro ⟨k, m, told, rfl⟩
    rcases History.getElem?_snoc.mp told with told | ⟨rfl, e⟩
    · have before := (f.outcomes i _).mpr ⟨k, m, told, rfl⟩
      rw [if_neg, before]
      rintro rfl
      rw [isOpen] at before
      cases before
    · obtain ⟨rfl, same⟩ := Prod.mk.inj e
      rw [if_pos (Option.some.inj same)]

theorem IsFilled.note (f : c.IsFilled jobIds h) (waits : n = .timeout → c.isComplete = false) :
    ∃ c', c.note? n = some c' ∧ c'.batch = c.batch ∧
      c'.IsFilled jobIds (h ++ [(n, c.target? n)]) := by
  have filling := f.filling_snoc waits
  cases target : c.target? n with
  | some t =>
    obtain ⟨c', noted, closes⟩ := f.kept.note?_closes target
    have isOpen := (f.kept.target?_eq_some_iff.mp target).1
    refine ⟨c', noted, closes.batch, closes.isKept f.kept isOpen, closes.jobIds.trans f.names, ?_,
      f.outcomes_snoc isOpen closes⟩
    rw [closes.batch, ← target]
    exact filling
  | none =>
    cases n with
    | timeout =>
      obtain ⟨t, some⟩ := f.kept.target?_timeout (waits rfl)
      rw [some] at target
      cases target
    | report r =>
      refine ⟨c, congrArg some (receive_of_target? target), rfl, f.kept, f.names, target ▸ filling,
        fun i o => (f.outcomes i o).trans ?_⟩
      simp only [History.getElem?_snoc, Prod.mk.injEq, reduceCtorEq, and_false, or_false]

end Collection

end JobQueue
