import JobQueue.Database.Store
import JobQueue.Proofs.Checked
import JobQueue.Proofs.Database.Row
import JobQueue.Proofs.Store.Calls
import JobQueue.Proofs.Store.Keyed

/-!
# What a table answers

Each statement by the row that it finds under its key: what it answers as long as rows can be read,
and which row it leaves under which key.
-/

namespace JobQueue.Database

open Time (Instant Span)
open RecordStore (reply next)

namespace Table

variable {t : Table} {row : Row} {id other collection : String} {now time : Instant}
  {expected : Option Instant} {e : Entry}

theorem row?_write :
    (t.write id row).row? other = if id = other then some row else t.row? other := by
  rw [row?, write, Keyed.find?_put]
  split <;> simp [row?]

theorem row?_erase : row? (t.erase id) other = if id = other then none else t.row? other := by
  rw [row?, Keyed.find?_erase]
  split <;> simp [row?]

theorem row?_of_mem (h : e ∈ t.items) : t.row? e.id = some e.row := by
  rw [row?, Keyed.find?_of_mem h]
  rfl

-- ---------------------------------------------------------------------------
-- Answers
-- ---------------------------------------------------------------------------

theorem compareAndReserve_missing (named : id ≠ "") (h : t.row? id = none) :
    t.compareAndReserve collection now id expected time = (.error (.notFound id), t) := by
  simp [compareAndReserve, named, h]

theorem compareAndReserve_same (named : id ≠ "") (h : t.row? id = some row)
    (same : row.reservedAt = reservationText expected) :
    t.compareAndReserve collection now id expected time =
      ((row.claim now time).columns.map fun _ => true, t.write id (row.claim now time)) := by
  simp [compareAndReserve, named, h, same, Row.claim]

theorem compareAndReserve_other (named : id ≠ "") (h : t.row? id = some row)
    (differ : row.reservedAt ≠ reservationText expected) :
    t.compareAndReserve collection now id expected time =
      ((row.record id collection).map fun _ => false, t) := by
  simp [compareAndReserve, named, h, differ]

theorem countFailure_missing (named : id ≠ "") (h : t.row? id = none) :
    t.countFailure collection id time = (.error (.notFound id), t) := by
  simp [countFailure, named, h]

theorem countFailure_there (named : id ≠ "") (h : t.row? id = some row)
    (countable : row.attempts < maxInteger) :
    t.countFailure collection id time =
      ((row.fail time).record id collection, t.write id (row.fail time)) := by
  simp [countFailure, named, h, Int.not_le.mpr countable, Row.fail]

theorem remove_missing (h : t.row? id = none) : t.remove id = (.error (.notFound id), t) := by
  simp [remove, h]

theorem remove_there (h : t.row? id = some row) :
    t.remove id = (row.columns.map fun _ => (), t.erase id) := by
  simp [remove, h]

-- ---------------------------------------------------------------------------
-- Due records
-- ---------------------------------------------------------------------------

theorem mem_of_mem_dueEntries {cutoff : Instant} {limit : Nat}
    (h : e ∈ t.dueEntries cutoff limit) : e ∈ t.items :=
  (List.mem_filter.mp (List.mem_mergeSort.mp (List.mem_of_mem_take h))).1

/-- The columns of all rows are read first. It comes to the same as reading row by row. -/
theorem due_eq_ok_iff {window : Span} {limit : Nat} {rs : List Record}
    (small : (limit : Int) ≤ maxInteger) : t.due collection now window limit = .ok rs ↔
      List.Forall₂ (fun e r => e.row.record e.id collection = .ok r)
        (t.dueEntries (cutoff now window) limit) rs := by
  rw [due, if_neg (Int.not_lt.mpr small)]
  simp only [bind_eq_ok_iff, mapM_eq_ok_iff, Keyed.forall₂_trans_iff, Row.record, pure, Except.pure,
    Except.ok.injEq]
  constructor
  · refine List.Forall₂.imp ?_
    rintro e r ⟨_, ⟨c, columns, rfl⟩, read⟩
    exact ⟨c, columns, read⟩
  · refine List.Forall₂.imp ?_
    rintro e r ⟨c, columns, read⟩
    exact ⟨_, ⟨c, columns, rfl⟩, read⟩

theorem exists_due {window : Span} {limit : Nat} (small : (limit : Int) ≤ maxInteger)
    (h : ∀ e ∈ t.items, e.row.IsReadable) : ∃ rs,
      t.due collection now window limit = .ok rs ∧
      List.Forall₂ (fun e r => e.row.record e.id collection = .ok r)
        (t.dueEntries (cutoff now window) limit) rs := by
  simp only [due_eq_ok_iff small, and_self]
  have readable : ∀ e ∈ t.dueEntries (cutoff now window) limit, e.row.IsReadable :=
    fun e mem => h e (mem_of_mem_dueEntries mem)
  generalize t.dueEntries (cutoff now window) limit = es at readable
  induction es with
  | nil => exact ⟨[], .nil⟩
  | cons e es ih =>
    obtain ⟨r, first⟩ := (Row.isReadable_iff e.id collection).mp (readable e List.mem_cons_self)
    obtain ⟨rs, rest⟩ := ih fun f mem => readable f (List.mem_cons_of_mem e mem)
    exact ⟨r :: rs, .cons first rest⟩

end Table

namespace TableStore

variable {s : TableStore} {t : Table} {id : String} {row : Row} {now time clock : Instant}
  {expected : Option Instant}

@[simp] theorem table_withTable : (s.withTable t).table = t := by
  simp [table, withTable, Tables.get, Keyed.find?_put]

theorem reply_eq {c : Call} :
    reply s c = (perform c.now c.request s).1.mapError Error.toStoreError := rfl

theorem next_eq {c : Call} : next s c = (perform c.now c.request s).2 := rfl

theorem reply_get_missing (h : s.table.row? id = none) :
    reply s ⟨clock, .get id⟩ = .ok none := by
  rw [reply_eq, perform, Table.find, h]
  rfl

theorem reply_get_there (h : s.table.row? id = some row) :
    reply s ⟨clock, .get id⟩ =
      ((row.record id s.name).map some).mapError Error.toStoreError := by
  rw [reply_eq, perform, Table.find, h]

theorem reply_get_eq_some_iff (h : s.table.row? id = some row) {r : Record} :
    reply s ⟨clock, .get id⟩ = .ok (some r) ↔ row.record id s.name = .ok r := by
  rw [reply_get_there h, mapError_eq_ok_iff, map_eq_ok_iff]
  simp

theorem perform_reserve {a : Except Error Bool}
    (h : s.table.compareAndReserve s.name now id expected time = (a, t)) :
    perform now (.reserve id expected time) s = (a, s.withTable t) := by
  rw [perform, h]

theorem perform_recordFailure {a : Except Error Record}
    (h : s.table.countFailure s.name id time = (a, t)) :
    perform now (.recordFailure id time) s = (a, s.withTable t) := by
  rw [perform, h]

theorem perform_listDue {window : Span} {limit : Nat} {a : Except Error (List Record)}
    (h : s.table.due s.name time window limit = a) :
    perform now (.listDue time window limit) s = (a, s) := by
  rw [perform, h]

theorem name_next (s : TableStore) (c : Call) : (next s c).name = s.name := by
  obtain ⟨now, q⟩ := c
  cases q <;> rfl

theorem perform_delete {a : Except Error Unit} (h : s.table.remove id = (a, t)) :
    perform now (.delete id) s = (a, s.withTable t) := by
  rw [perform, h]

end TableStore

end JobQueue.Database
