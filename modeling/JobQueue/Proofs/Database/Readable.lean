import JobQueue.Proofs.Database.Table
import JobQueue.Proofs.Time.Window

/-!
# When a table stays readable

A table can be read as long as each of its rows can, and one row that cannot be read fails the list
of the due records for all. Three kinds of calls write such a row: a reservation or a record with a
reservation outside the years 0000 to 9999, a time that its microseconds do not tell, and a failure
counted at the greatest number of attempts. These are the only ones, and the only calls that fail
and leave the table changed (`isFaultless_iff`).
-/

namespace JobQueue.Database

open Time (Instant Span)
open RecordStore (reply next Along)

variable {s : TableStore} {t : Table} {c : Call} {calls : List Call} {id : String} {row : Row}

def Table.IsReadable (t : Table) : Prop :=
  ∀ ⦃id : String⦄ ⦃row : Row⦄, t.row? id = some row → row.IsReadable

theorem Table.IsReadable.write_iff (h : t.IsReadable) :
    (t.write id row).IsReadable ↔ row.IsReadable := by
  constructor
  · intro readable
    exact readable (row?_write.trans (if_pos rfl))
  · intro readable other found there
    rw [row?_write] at there
    split at there
    · exact Option.some.inj there ▸ readable
    · exact h there

theorem Table.IsReadable.erase (h : t.IsReadable) : Table.IsReadable (t.erase id) := by
  intro other found there
  rw [row?_erase] at there
  split at there
  · cases there
  · exact h there

namespace TableStore

/-- Whether every stored record can be got, and the due ones can be listed. -/
structure IsReadable (s : TableStore) : Prop where
  get : ∀ now id row, s.table.row? id = some row → ∃ r, reply s ⟨now, .get id⟩ = .ok (some r)
  listDue : ∀ clock now window (limit : Nat), limit ≤ maxInteger →
    ∃ rs, reply s ⟨clock, .listDue now window limit⟩ = .ok rs

theorem isReadable_iff : s.IsReadable ↔ s.table.IsReadable := by
  constructor
  · intro h id row there
    obtain ⟨r, got⟩ := h.get .epoch id row there
    exact (Row.isReadable_iff id s.name).mpr ⟨r, (reply_get_eq_some_iff there).mp got⟩
  · intro h
    constructor
    · intro now id row there
      obtain ⟨r, read⟩ := (Row.isReadable_iff id s.name).mp (h there)
      exact ⟨r, (reply_get_eq_some_iff there).mpr read⟩
    · intro clock now window limit small
      obtain ⟨rs, due, _⟩ := Table.exists_due small fun e mem => h (Table.row?_of_mem mem)
      exact ⟨rs, congrArg (Except.mapError Error.toStoreError) due⟩

/-- Whether a call writes nothing that cannot be read again. -/
def IsHarmless (s : TableStore) (c : Call) : Prop :=
  match c.request with
  | .save r => (∀ time ∈ r.reservedAt, time.HasPlainYear) ∧ r.createdAt.IsCounted ∧ c.now.IsCounted
  | .reserve id expected time => id ≠ "" → ∀ row ∈ s.table.row? id,
      row.reservedAt = reservationText expected → time.HasPlainYear ∧ c.now.IsCounted
  | .recordFailure id time => id ≠ "" → ∀ row ∈ s.table.row? id,
      row.attempts < 0xFFFFFFFF ∧ time.IsCounted
  | .get _ | .delete _ | .listDue _ _ _ => True

instance (s : TableStore) (c : Call) : Decidable (s.IsHarmless c) :=
  match c with
  | ⟨_, .save _⟩ => inferInstanceAs (Decidable (_ ∧ _))
  | ⟨_, .reserve _ _ _⟩ => inferInstanceAs (Decidable (_ → _))
  | ⟨_, .recordFailure _ _⟩ => inferInstanceAs (Decidable (_ → _))
  | ⟨_, .get _⟩ | ⟨_, .delete _⟩ | ⟨_, .listDue _ _ _⟩ => .isTrue trivial

/-- Whether, all along a run, the table can be read and a call that fails leaves it as it was. -/
def IsFaultless (s : TableStore) : List Call → Prop
  | [] => s.IsReadable
  | c :: calls => s.IsReadable ∧ (∀ e, reply s c = .error e → (next s c).table = s.table) ∧
      IsFaultless (next s c) calls

theorem IsFaultless.isReadable (h : s.IsFaultless calls) : s.IsReadable := by
  cases calls with
  | nil => exact h
  | cons => exact h.1

/-- What a call does to a table that can be read. A row is written before it is read back. -/
inductive Effect (s : TableStore) (c : Call) : Prop
  | kept (same : (next s c).table = s.table) (harmless : s.IsHarmless c)
  | written (id : String) (row : Row) (left : (next s c).table = s.table.write id row)
      (harmless : row.IsReadable ↔ s.IsHarmless c) (answered : row.IsReadable → ∃ a, reply s c = .ok a)
  | erased (id : String) (left : (next s c).table = s.table.erase id) (harmless : s.IsHarmless c)
      (answered : ∃ a, reply s c = .ok a)

theorem effect_save (now : Instant) (r : Record) : s.Effect ⟨now, .save r⟩ := by
  refine .written r.id _ table_withTable Row.isReadable_ofRecord fun readable => ?_
  obtain ⟨c, columns⟩ := readable.columns
  exact ⟨(), by simp [reply_eq, perform, Table.upsert, columns, Except.map, Except.mapError]⟩

theorem effect_reserve (h : s.table.IsReadable) (now : Instant) (expected : Option Instant)
    (time : Instant) : s.Effect ⟨now, .reserve id expected time⟩ := by
  by_cases named : id = ""
  · refine .kept ?_ fun other => absurd named other
    simp [next_eq, perform, Table.compareAndReserve, named]
  cases there : s.table.row? id with
  | none =>
    refine .kept ?_ fun _ row found => by simp [there] at found
    simp [next_eq, perform, Table.compareAndReserve_missing named there]
  | some row =>
    by_cases same : row.reservedAt = reservationText expected
    · have claimed : s.table.compareAndReserve s.name now id expected time = _ :=
        Table.compareAndReserve_same named there same
      refine .written id (row.claim now time) ?_ ?_ fun readable => ?_
      · simp [next_eq, perform, claimed]
      · rw [(h there).claim_iff]
        simp [IsHarmless, named, there, same]
      · obtain ⟨c, columns⟩ := readable.columns
        exact ⟨true, by simp [reply_eq, perform, claimed, columns, Except.map, Except.mapError]⟩
    · refine .kept ?_ ?_
      · simp [next_eq, perform, Table.compareAndReserve_other named there same]
      · simp [IsHarmless, there, same]

theorem effect_recordFailure (h : s.table.IsReadable) (now time : Instant) :
    s.Effect ⟨now, .recordFailure id time⟩ := by
  by_cases named : id = ""
  · refine .kept ?_ fun other => absurd named other
    simp [next_eq, perform, Table.countFailure, named]
  cases there : s.table.row? id with
  | none =>
    refine .kept ?_ fun _ row found => by simp [there] at found
    simp [next_eq, perform, Table.countFailure_missing named there]
  | some row =>
    have counted : s.table.countFailure s.name id time = _ :=
      Table.countFailure_there named there (h there).attempts_lt
    refine .written id (row.fail time) ?_ ?_ fun readable => ?_
    · simp [next_eq, perform, counted]
    · rw [(h there).fail_iff]
      simp [IsHarmless, named, there]
    · obtain ⟨r, read⟩ := (Row.isReadable_iff id s.name).mp readable
      exact ⟨r, by simp [reply_eq, perform, counted, read, Except.mapError]⟩

theorem effect_delete (h : s.table.IsReadable) (now : Instant) : s.Effect ⟨now, .delete id⟩ := by
  cases there : s.table.row? id with
  | none =>
    refine .kept ?_ trivial
    simp [next_eq, perform, Table.remove_missing there]
  | some row =>
    obtain ⟨c, columns⟩ := (h there).columns
    refine .erased id ?_ trivial ⟨(), ?_⟩
    · simp [next_eq, perform, Table.remove_there there]
    · simp [reply_eq, perform, Table.remove_there there, columns, Except.map, Except.mapError]

theorem effect (h : s.table.IsReadable) (c : Call) : s.Effect c := by
  obtain ⟨now, q⟩ := c
  cases q with
  | get => exact .kept rfl trivial
  | save r => exact effect_save now r
  | reserve id expected time => exact effect_reserve h now expected time
  | recordFailure id time => exact effect_recordFailure h now time
  | delete id => exact effect_delete h now
  | listDue => exact .kept rfl trivial

theorem isReadable_next (h : s.table.IsReadable) :
    (next s c).table.IsReadable ↔ s.IsHarmless c := by
  cases effect h c with
  | kept same harmless => exact iff_of_true (same ▸ h) harmless
  | written id row left harmless => rw [left, h.write_iff, harmless]
  | erased id left harmless => exact iff_of_true (left ▸ h.erase) harmless

/-- A harmless call that fails found nothing to change. -/
theorem table_next_of_error (h : s.table.IsReadable) (harmless : s.IsHarmless c) {e : StoreError}
    (failed : reply s c = .error e) : (next s c).table = s.table := by
  have answered : (∃ a, reply s c = .ok a) → (next s c).table = s.table := by
    rintro ⟨a, ok⟩
    rw [failed] at ok
    cases ok
  cases effect h c with
  | kept same => exact same
  | written id row _ readable ok => exact answered (ok (readable.mpr harmless))
  | erased id _ _ ok => exact answered ok

theorem isFaultless_iff_of_isReadable (h : s.table.IsReadable) :
    s.IsFaultless calls ↔ Along IsHarmless s calls := by
  induction calls generalizing s with
  | nil => exact iff_of_true (isReadable_iff.mpr h) trivial
  | cons c calls ih =>
    constructor
    · rintro ⟨_, _, rest⟩
      have readable := isReadable_iff.mp rest.isReadable
      exact ⟨(isReadable_next h).mp readable, (ih readable).mp rest⟩
    · rintro ⟨harmless, rest⟩
      exact ⟨isReadable_iff.mpr h, fun e => table_next_of_error h harmless,
        (ih ((isReadable_next h).mpr harmless)).mpr rest⟩

/-- Over a fresh table, nothing becomes unreadable and nothing that fails changes the table, exactly
if each call is harmless. -/
theorem isFaultless_iff (fresh : s.table = .empty) :
    s.IsFaultless calls ↔ Along IsHarmless s calls := by
  apply isFaultless_iff_of_isReadable
  intro id row there
  simp [fresh, Table.row?] at there

/-- A record is saved, claimed again and again, and deleted. -/
theorem isFaultless_claimedAgain :
    (⟨.empty, queueCollection⟩ : TableStore).table = .empty ∧
    IsFaultless ⟨.empty, queueCollection⟩
      [⟨.epoch, .save (.ofParts "a" queueCollection "" .epoch)⟩,
        ⟨.epoch, .reserve "a" none (.ofSecond 1)⟩,
        ⟨.epoch, .reserve "a" (some (.ofSecond 1)) (.ofSecond 2)⟩,
        ⟨.epoch, .recordFailure "a" (.ofSecond 3)⟩, ⟨.epoch, .delete "a"⟩] :=
  ⟨rfl, (isFaultless_iff rfl).mpr (by decide +kernel)⟩

/-- A failure counted at the greatest number of attempts is refused, and written all the same. -/
theorem not_isFaultless_fullCounter :
    ¬ IsFaultless ⟨.empty, queueCollection⟩
      [⟨.epoch, .save { Record.ofParts "a" queueCollection "" .epoch with attempts := 0xFFFFFFFF }⟩,
        ⟨.epoch, .recordFailure "a" .epoch⟩] := by
  rintro ⟨_, _, _, unchanged, _⟩
  exact absurd (unchanged _ rfl) (by decide +kernel)

end TableStore

end JobQueue.Database
