import JobQueue.Proofs.Database.Claims
import JobQueue.Proofs.Database.Cutoff
import JobQueue.Proofs.Store.Due

/-!
# Which records are due in a table

A table is asked for due records by texts: a row is listed if the text of its reservation is empty
or not after that of the cutoff. The records that are read from the listed rows are those that the
window check finds free, and the oldest of them (`TableStore.IsDue`).
-/

namespace JobQueue

open Time (Instant Span)

namespace Time.Instant

variable {t u : Instant} {m n : Int}

/-- Instants are ordered as the counts of microseconds that they are read from. -/
theorem le_of_ofMicroseconds? (ht : ofMicroseconds? m = some t) (hu : ofMicroseconds? n = some u)
    (h : m ≤ n) : t ≤ u := by
  unfold ofMicroseconds? ofParts? at ht hu
  split at ht
  · split at hu
    · obtain rfl := Option.some.inj ht
      obtain rfl := Option.some.inj hu
      change le _ _ = true
      simp only [le, Bool.or_eq_true, Bool.and_eq_true, decide_eq_true_eq]
      omega
    · cases hu
  · cases ht

theorem IsPlain.of_told (year : t.HasPlainYear) (regular : t.told.isLeapSecond = false) :
    t.told.IsPlain :=
  ⟨hasPlainYear_shown.mpr year, regular, Nat.mul_mod_left _ _⟩

end Time.Instant

namespace Database

open RecordStore (reply next after)

variable {row : Row} {e f g : Entry} {id collection : String} {now : Instant} {window : Span}
  {limit : Nat} {r u : Record}

-- ---------------------------------------------------------------------------
-- Rows that are free by their texts
-- ---------------------------------------------------------------------------

theorem Row.IsBounded.shows (bounded : row.IsBounded) (read : row.record id collection = .ok r) :
    row.reservedAt = reservationText r.reservedAt ∧
      ∀ time ∈ r.reservedAt, time.isLeapSecond = false → time.IsPlain := by
  obtain ⟨time?, text, plain⟩ := bounded.reservedAt
  have reserved := (Row.record_eq_ok_iff.mp read).2.2.2.2.1
  rw [text, readReservation_of_hasPlainYear plain] at reserved
  obtain shown := Except.ok.inj reserved
  rw [← shown]
  refine ⟨text.trans reservationText_told.symm, ?_⟩
  rintro time member regular
  obtain ⟨since, held, rfl⟩ := Option.map_eq_some_iff.mp member
  exact .of_told (plain since held) regular

theorem Row.IsBounded.isFree_iff (window : Span) (bounded : row.IsBounded)
    (read : row.record id collection = .ok r)
    (regular : ∀ time ∈ r.reservedAt, time.isLeapSecond = false) (present : now.HasPlainYear)
    (steady : now.isLeapSecond = false) :
    (row.reservedAt = "" ∨ row.reservedAt ≤ reservationText (some (Table.cutoff now window))) ↔
      r.isReservedWithin now window = false := by
  obtain ⟨text, plain⟩ := bounded.shows read
  rw [text]
  cases reserved : r.reservedAt with
  | none => simp [reservationText, Record.isReservedWithin, reserved]
  | some time =>
    have plain := plain time reserved (regular time reserved)
    rw [reservationText_le_cutoff_iff plain present steady]
    simp [reservationText_ne_empty, Record.isReservedWithin, reserved]

-- ---------------------------------------------------------------------------
-- The order of rows
-- ---------------------------------------------------------------------------

namespace Table

variable {t : Table} {cutoff : Instant}

theorem olderEntry_trans (e f g : Entry) (first : olderEntry e f = true)
    (second : olderEntry f g = true) : olderEntry e g = true := by
  unfold olderEntry at *
  cases he : e.row.createdAt <;> cases hf : f.row.createdAt <;> cases hg : g.row.createdAt <;>
    simp only [he, hf, hg, Bool.or_eq_true, Bool.and_eq_true, decide_eq_true_eq, reduceCtorEq]
      at first second ⊢
  · exact String.le_trans first second
  · rcases first with first | ⟨same, first⟩ <;> rcases second with second | ⟨same', second⟩
    · omega
    · omega
    · omega
    · exact .inr ⟨by omega, String.le_trans first second⟩

theorem olderEntry_total (e f : Entry) : (olderEntry e f || olderEntry f e) = true := by
  unfold olderEntry
  cases he : e.row.createdAt <;> cases hf : f.row.createdAt <;>
    simp only [Bool.or_eq_true, Bool.and_eq_true, decide_eq_true_eq, or_true, true_or]
  · exact String.le_total _ _
  · rcases String.le_total e.id f.id with ids | ids
    · simp only [ids, and_true]
      omega
    · simp only [ids, and_true]
      omega

theorem isFirst_dueEntries : t.IsFirst
    (fun e => e.row.reservedAt = "" ∨ e.row.reservedAt ≤ reservationText (some cutoff)) olderEntry
    limit (t.dueEntries cutoff limit) :=
  Keyed.isFirst_take_mergeSort olderEntry_trans olderEntry_total

end Table

-- ---------------------------------------------------------------------------
-- What is listed
-- ---------------------------------------------------------------------------

namespace TableStore

variable {s : TableStore} {clock : Instant} {due : List Record}

/-- Whether a list is that of the oldest records of a table that nobody holds, as they are read. -/
structure IsDue (s : TableStore) (now : Instant) (window : Span) (limit : Nat)
    (due : List Record) : Prop where
  stored : ∀ r ∈ due, ∀ clock, reply s ⟨clock, .get r.id⟩ = .ok (some r)
  free : ∀ r ∈ due, r.isReservedWithin now window = false
  ordered : due.Pairwise fun a b => a.createdAt ≤ b.createdAt
  distinct : (due.map Record.id).Nodup
  short : due.length ≤ limit
  full : due.length < limit → ∀ clock id r, reply s ⟨clock, .get id⟩ = .ok (some r) →
    r.isReservedWithin now window = false → r ∈ due
  first : ∀ clock id r, reply s ⟨clock, .get id⟩ = .ok (some r) →
    r.isReservedWithin now window = false → r ∉ due → ∀ d ∈ due, d.createdAt ≤ r.createdAt

theorem reply_get_iff : reply s ⟨clock, .get id⟩ = .ok (some r) ↔
    ∃ e ∈ s.table.items, e.id = id ∧ e.row.record e.id s.name = .ok r := by
  cases there : s.table.row? id with
  | none =>
    rw [reply_get_missing there]
    refine iff_of_false (by simp) ?_
    rintro ⟨e, member, rfl, _⟩
    cases (Table.row?_of_mem member).symm.trans there
  | some row =>
    rw [reply_get_eq_some_iff there]
    constructor
    · intro read
      obtain ⟨e, found, rfl⟩ := Option.map_eq_some_iff.mp there
      obtain rfl : e.id = id := Keyed.key_of_find? found
      exact ⟨e, Keyed.mem_of_find? found, rfl, read⟩
    · rintro ⟨e, member, rfl, read⟩
      obtain rfl := Option.some.inj ((Table.row?_of_mem member).symm.trans there)
      exact read

theorem reply_listDue_iff (small : limit ≤ maxInteger) :
    reply s ⟨clock, .listDue now window limit⟩ = .ok due ↔
      List.Forall₂ (fun e r => e.row.record e.id s.name = .ok r)
        (s.table.dueEntries (Table.cutoff now window) limit) due := by
  rw [← Table.due_eq_ok_iff small, reply_eq, perform]
  exact mapError_eq_ok_iff

end TableStore

theorem ids_of_reads {es : List Entry} {rs : List Record}
    (reads : List.Forall₂ (fun e r => e.row.record e.id collection = .ok r) es rs) :
    rs.map Record.id = es.map Entry.id := by
  induction reads with
  | nil => rfl
  | cons read _ ih => rw [List.map_cons, List.map_cons, ih, (Row.record_eq_ok_iff.mp read).1]

theorem createdAt_le_of_olderEntry {collection : String}
    (he : e.row.record e.id collection = .ok r) (hf : f.row.record f.id collection = .ok u)
    (older : Table.olderEntry e f = true) : r.createdAt ≤ u.createdAt := by
  have created := (Row.record_eq_ok_iff.mp he).2.2.2.2.2.1
  have created' := (Row.record_eq_ok_iff.mp hf).2.2.2.2.2.1
  obtain ⟨m, its, read⟩ := Option.bind_eq_some_iff.mp created
  obtain ⟨n, its', read'⟩ := Option.bind_eq_some_iff.mp created'
  refine Instant.le_of_ofMicroseconds? read read' ?_
  simp only [Table.olderEntry, its, its', Bool.or_eq_true, Bool.and_eq_true,
    decide_eq_true_eq] at older
  omega

def Row.reservation? (row : Row) : Option Instant := (readReservation row.reservedAt).toOption.join

def Table.IsSteady (t : Table) : Prop :=
  ∀ e ∈ t.items, ∀ time ∈ e.row.reservation?, time.isLeapSecond = false

instance (t : Table) : Decidable t.IsSteady :=
  inferInstanceAs (Decidable (∀ e ∈ t.items, ∀ time ∈ e.row.reservation?, _ = false))

theorem Row.reservation?_eq (read : row.record id collection = .ok r) :
    row.reservation? = r.reservedAt := by
  simp [reservation?, (Row.record_eq_ok_iff.mp read).2.2.2.2.1, Except.toOption]

namespace TableStore

variable {s : TableStore} {clock : Instant} {due : List Record}

theorem isDue_of_reply (bounded : ∀ e ∈ s.table.items, e.row.IsBounded)
    (steady : s.table.IsSteady) (present : now.HasPlainYear) (regular : now.isLeapSecond = false)
    (small : limit ≤ maxInteger)
    (answer : reply s ⟨clock, .listDue now window limit⟩ = .ok due) :
    s.IsDue now window limit due := by
  have reads := (reply_listDue_iff small).mp answer
  have listed : s.table.IsFirst _ _ limit (s.table.dueEntries (Table.cutoff now window) limit) :=
    Table.isFirst_dueEntries
  have free {e : Entry} {r : Record} (member : e ∈ s.table.items)
      (read : e.row.record e.id s.name = .ok r) :=
    (bounded e member).isFree_iff window read
      (Row.reservation?_eq read ▸ steady e member) present regular
  -- a record that is read from a listed row is the one that is listed for it
  have listed_of {e : Entry} {r : Record} (read : e.row.record e.id s.name = .ok r)
      (member : e ∈ s.table.dueEntries (Table.cutoff now window) limit) : r ∈ due := by
    obtain ⟨u, there, read'⟩ := Keyed.exists_of_forall₂_left reads member
    rw [read] at read'
    exact Except.ok.inj read' ▸ there
  constructor
  case stored =>
    intro r member clock
    obtain ⟨e, listed_, read⟩ := Keyed.exists_of_forall₂_right reads member
    exact reply_get_iff.mpr
      ⟨e, listed.stored e listed_, (Row.record_eq_ok_iff.mp read).1.symm, read⟩
  case free =>
    intro r member
    obtain ⟨e, listed_, read⟩ := Keyed.exists_of_forall₂_right reads member
    exact (free (listed.stored e listed_) read).mp (of_decide_eq_true (listed.passed e listed_))
  case ordered =>
    refine Keyed.pairwise_of_forall₂ ?_ reads listed.ordered
    intro e f r u read read' older
    exact createdAt_le_of_olderEntry read read' older
  case distinct => exact ids_of_reads reads ▸ listed.distinct
  case short => exact reads.length_eq ▸ listed.short
  case full =>
    intro few clock id r got unheld
    obtain ⟨e, member, -, read⟩ := reply_get_iff.mp got
    exact listed_of read (listed.full (reads.length_eq ▸ few) e member
      (decide_eq_true ((free member read).mpr unheld)))
  case first =>
    intro clock id r got unheld left d there
    obtain ⟨e, member, -, read⟩ := reply_get_iff.mp got
    obtain ⟨f, listed_, read'⟩ := Keyed.exists_of_forall₂_right reads there
    refine createdAt_le_of_olderEntry read' read (listed.before e member
      (decide_eq_true ((free member read).mpr unheld)) (fun inside => ?_) f listed_)
    exact left (listed_of read inside)

/-- What a table lists as due is what the window check finds free, the oldest first, whatever calls
the table went through, as long as its reservations are in range and neither they nor the present
are within a leap second. A list is given unless there is a record that cannot be got. -/
theorem listDue_free (fresh : TableStore) (calls : List Call) (clock now : Instant) (window : Span)
    (limit : Nat) (empty : fresh.table = .empty) (range : (after fresh calls).table.IsInRange)
    (steady : (after fresh calls).table.IsSteady) (present : now.HasPlainYear)
    (regular : now.isLeapSecond = false) (small : limit ≤ maxInteger) :
    (∀ due, reply (after fresh calls) ⟨clock, .listDue now window limit⟩ = .ok due →
      (after fresh calls).IsDue now window limit due) ∧
    ((∀ id, ∃ r?, reply (after fresh calls) ⟨clock, .get id⟩ = .ok r?) →
      ∃ due, reply (after fresh calls) ⟨clock, .listDue now window limit⟩ = .ok due) := by
  have own {id : String} : ∀ row, (after fresh calls).table.row? id = some row → row.IsOwn := by
    refine isOwn_after ?_
    intro row there
    simp [empty, Table.row?] at there
  constructor
  · intro due answer
    refine isDue_of_reply (fun e member => ?_) steady present regular small answer
    have there := Table.row?_of_mem member
    exact (own e.row there).isBounded range there
  · intro gettable
    have readable : ∀ e ∈ (after fresh calls).table.items, e.row.IsReadable := by
      intro e member
      obtain ⟨r?, got⟩ := gettable e.id
      have there := Table.row?_of_mem member
      cases r? with
      | none => exact absurd got (reply_get_ne_none there)
      | some r =>
        exact (Row.isReadable_iff _ _).mpr ⟨r, (reply_get_eq_some_iff there).mp got⟩
    obtain ⟨due, -, reads⟩ := Table.exists_due small readable
    exact ⟨due, (reply_listDue_iff small).mpr reads⟩

def nanosecondsAfter (second nano : Nat) : Instant :=
  (Instant.ofParts? second nano).getD .epoch

/-- Three records: one that was claimed 300 seconds and a fraction of a microsecond before the
second 300 ended, a free one, and one that was claimed later. -/
def threeClaims : List Call :=
  [⟨.epoch, .save (.ofParts "b" queueCollection "" .epoch)⟩,
    ⟨.epoch, .save (.ofParts "a" queueCollection "" (.ofSecond 1))⟩,
    ⟨.epoch, .save (.ofParts "c" queueCollection "" (.ofSecond 2))⟩,
    ⟨.epoch, .reserve "b" none (nanosecondsAfter 0 1500)⟩,
    ⟨.epoch, .reserve "c" none (.ofSecond 200)⟩]

/-- A claim of 1500 nanoseconds is kept as one of 1000, so it is over 300 seconds and 1200
nanoseconds after the start. -/
theorem listDue_free_threeClaims :
    let s : TableStore := after ⟨.empty, queueCollection⟩ threeClaims
    let now := nanosecondsAfter 300 1200
    s.table.IsInRange ∧ s.table.IsSteady ∧ now.HasPlainYear ∧ now.isLeapSecond = false ∧
    ∃ due, reply s ⟨now, .listDue now defaultWindow 5⟩ = .ok due ∧
      due.map Record.id = ["b", "a"] ∧ s.IsDue now defaultWindow 5 due := by
  intro s now
  have range : s.table.IsInRange := by decide +kernel
  have steady : s.table.IsSteady := by decide +kernel
  have present : now.HasPlainYear := by decide +kernel
  have regular : now.isLeapSecond = false := by decide +kernel
  refine ⟨range, steady, present, regular, ?_⟩
  obtain ⟨agrees, answers⟩ := listDue_free ⟨.empty, queueCollection⟩ threeClaims now now
    defaultWindow 5 rfl range steady present regular (by decide)
  have read : ∀ e ∈ s.table.items, (e.row.record e.id s.name).isOk = true := by decide +kernel
  have gettable : ∀ id, ∃ r?, reply s ⟨now, .get id⟩ = .ok r? := by
    intro id
    cases there : s.table.row? id with
    | none => exact ⟨none, reply_get_missing there⟩
    | some row =>
      obtain ⟨e, found, rfl⟩ := Option.map_eq_some_iff.mp there
      obtain rfl : e.id = id := Keyed.key_of_find? found
      have isOk := read e (Keyed.mem_of_find? found)
      cases its : e.row.record e.id s.name with
      | ok r => exact ⟨some r, (reply_get_eq_some_iff there).mpr its⟩
      | error fault => simp [its, Except.isOk, Except.toBool] at isOk
  obtain ⟨due, answer⟩ := answers gettable
  have inOrder : (s.table.items.filter fun e => e.row.reservedAt = "" ∨ e.row.reservedAt ≤
      reservationText (some (Table.cutoff now defaultWindow))).Pairwise
        fun e f => Table.olderEntry e f = true := by
    decide +kernel
  have listed : (s.table.dueEntries (Table.cutoff now defaultWindow) 5).map Entry.id =
      ["b", "a"] := by
    rw [Table.dueEntries, List.mergeSort_of_pairwise inOrder]
    decide +kernel
  have ids := ids_of_reads ((reply_listDue_iff (by decide)).mp answer)
  exact ⟨due, answer, ids.trans listed, agrees due answer⟩

end TableStore

end Database

end JobQueue
