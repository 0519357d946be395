import JobQueue.Proofs.Database.Readable
import JobQueue.Proofs.Store.Claims

/-!
# Claims over a table

A claim over a table compares texts. They tell reservations apart up to a microsecond, and a leap
second only at the end of a minute (`reservationText_eq_iff`). So a claim is an exact
compare-and-set on what `get` shows, with one exception: a row whose time of the last update cannot
be read fails `get`, but not the claim, which sets that time anew before the row is read.
-/

namespace JobQueue.Database

open Time (Instant)
open RecordStore (reply next after ClaimsExactly NeedsRenewal exists_renewal)

variable {row : Row} {id other collection : String} {now time clock : Instant}
  {expected time? other? : Option Instant}

-- ---------------------------------------------------------------------------
-- Reservations as texts
-- ---------------------------------------------------------------------------

theorem reservationText_told : reservationText (time?.map Instant.told) = reservationText time? := by
  cases time? with
  | none => rfl
  | some time => simp [reservationText, Instant.stampChars_told]

theorem readReservation_of_hasPlainYear (plain : ∀ time ∈ time?, time.HasPlainYear) :
    readReservation (reservationText time?) = .ok (time?.map Instant.told) := by
  cases time? with
  | none => rfl
  | some time => exact readReservation_reservationText (plain time rfl)

theorem hasPlainYear_of_read {read : Option Instant}
    (h : readReservation (reservationText time?) = .ok read) :
    ∀ time ∈ time?, time.HasPlainYear := by
  rintro time rfl
  exact hasPlainYear_of_readReservation h

theorem reservationText_eq_iff (plain : ∀ time ∈ other?, time.HasPlainYear) :
    reservationText time? = reservationText other? ↔
      time?.map Instant.told = other?.map Instant.told := by
  constructor
  · intro same
    have read := readReservation_of_hasPlainYear plain
    rw [← same] at read
    rw [readReservation_of_hasPlainYear (hasPlainYear_of_read read)] at read
    exact Except.ok.inj read
  · intro same
    rw [← reservationText_told, same, reservationText_told]

-- ---------------------------------------------------------------------------
-- Why a row cannot be read
-- ---------------------------------------------------------------------------

namespace Row

/-- Whether a row holds a reservation as text, of a year of four digits if it is one, and a number
of attempts that a record can have. -/
structure IsBounded (row : Row) : Prop where
  reservedAt : ∃ time?, row.reservedAt = reservationText time? ∧ ∀ time ∈ time?, time.HasPlainYear
  attempts : 0 ≤ row.attempts ∧ row.attempts ≤ 0xFFFFFFFF

/-- Whether the time of the last update is the only column of a row that cannot be read. -/
structure HasLostUpdate (row : Row) : Prop where
  createdAt : ∃ time, row.createdAt.bind Instant.ofMicroseconds? = some time
  updatedAt : row.updatedAt.bind Instant.ofMicroseconds? = none

theorem readReservation_error {raw : String} {e : Error} (h : readReservation raw = .error e) :
    ∃ text, e = .serialization text := by
  unfold readReservation at h
  split at h
  · cases h
  · split at h
    · cases h
    · exact ⟨_, (Except.error.inj h).symm⟩

theorem readAttempts_error {n : Int} {e : Error} (h : readAttempts n = .error e) :
    e = .engine (.unreadableColumn "attempts") := by
  unfold readAttempts at h
  split at h
  · cases h
  · exact (Except.error.inj h).symm

theorem readStamp_error {name : String} {value? : Option Int} {e : Error}
    (h : readStamp name value? = .error e) : e = .engine (.unreadableColumn name) := by
  unfold readStamp at h
  split at h
  · cases h
  · exact (Except.error.inj h).symm

theorem columns_error {e : Error} (h : row.columns = .error e) :
    ∃ name, e = .engine (.unreadableColumn name) := by
  simp only [columns, bind_eq_error_iff] at h
  rcases h with attempts | ⟨_, _, created | ⟨_, _, updated | ⟨_, _, read⟩⟩⟩
  · exact ⟨_, readAttempts_error attempts⟩
  · exact ⟨_, readStamp_error created⟩
  · exact ⟨_, readStamp_error updated⟩
  · cases read

theorem record_error {e : Error} (h : row.record id collection = .error e) :
    (∃ name, e = .engine (.unreadableColumn name)) ∨ ∃ text, e = .serialization text := by
  simp only [record, Columns.record, bind_eq_error_iff] at h
  rcases h with columns | ⟨_, _, reserved | ⟨_, _, read⟩⟩
  · exact .inl (columns_error columns)
  · exact .inr (readReservation_error reserved)
  · cases read

theorem IsBounded.isReadable_iff (h : row.IsBounded) : row.IsReadable ↔
    (∃ time, row.createdAt.bind Instant.ofMicroseconds? = some time) ∧
      ∃ time, row.updatedAt.bind Instant.ofMicroseconds? = some time := by
  obtain ⟨⟨time?, text, plain⟩, attempts⟩ := h
  refine ⟨fun readable => ⟨readable.createdAt, readable.updatedAt⟩, fun stamps => ?_⟩
  exact ⟨attempts, ⟨_, text ▸ readReservation_of_hasPlainYear plain⟩, stamps.1, stamps.2⟩

theorem IsBounded.isReadable_claim_iff (h : row.IsBounded) (plain : time.HasPlainYear)
    (counted : now.IsCounted) : (row.claim now time).IsReadable ↔
      ∃ created, row.createdAt.bind Instant.ofMicroseconds? = some created := by
  refine ⟨IsReadable.createdAt, fun created => ?_⟩
  exact ⟨h.attempts, ⟨_, readReservation_reservationText plain⟩, created,
    Instant.isCounted_iff.mp counted⟩

/-- A row that cannot be read is not reported as missing. -/
theorem record_ne_notFound {e : Error} (h : row.record id collection = .error e) (other : String) :
    e.toStoreError ≠ .notFound other := by
  rcases record_error h with ⟨name, rfl⟩ | ⟨text, rfl⟩ <;> simp [Error.toStoreError]

end Row

-- ---------------------------------------------------------------------------
-- What calls leave in a row
-- ---------------------------------------------------------------------------

inductive Row.Left (c : Call) (id : String) (found : Option Row) : Option Row → Prop
  | kept : Left c id found found
  | gone : Left c id found none
  | saved (r : Record) (asked : c.request = .save r) (its : r.id = id) :
      Left c id found (some (.ofRecord { r with updatedAt := c.now }))
  | claimed (row : Row) (there : found = some row) {expected : Option Instant} {time : Instant}
      (asked : c.request = .reserve id expected time) :
      Left c id found (some (row.claim c.now time))
  | failed (row : Row) (there : found = some row) {time : Instant}
      (asked : c.request = .recordFailure id time) : Left c id found (some (row.fail time))

structure Row.IsOwn (row : Row) : Prop where
  reservedAt : ∃ time?, row.reservedAt = reservationText time?
  attempts : 0 ≤ row.attempts

theorem Row.Left.isOwn {c : Call} {found left : Option Row} (h : Left c id found left)
    (own : ∀ row, found = some row → row.IsOwn) : ∀ row, left = some row → row.IsOwn := by
  intro after there
  cases h with
  | kept => exact own after there
  | gone => cases there
  | saved r => exact Option.some.inj there ▸ ⟨⟨r.reservedAt, rfl⟩, Int.natCast_nonneg _⟩
  | @claimed row found _ time =>
    exact Option.some.inj there ▸ ⟨⟨some time, rfl⟩, (own row found).attempts⟩
  | failed row found =>
    exact Option.some.inj there ▸ ⟨⟨none, rfl⟩, Int.le_add_one (own row found).attempts⟩

theorem Row.Left.text {c : Call} {found left : Option Row} (h : Left c id found left) :
    left.map reservedAt = found.map reservedAt ∨ left.map reservedAt = none ∨
      ∃ given, c.Gives id given ∧ left.map reservedAt = some (reservationText given) := by
  cases h with
  | kept => exact .inl rfl
  | gone => exact .inr (.inl rfl)
  | saved r asked its => exact .inr (.inr ⟨r.reservedAt, by simp [Call.Gives, asked, its], rfl⟩)
  | @claimed row _ _ time asked =>
    exact .inr (.inr ⟨some time, by simp [Call.Gives, asked], rfl⟩)
  | failed row _ asked => exact .inr (.inr ⟨none, by simp [Call.Gives, asked], rfl⟩)

namespace TableStore

variable {s s' : TableStore} {c : Call} {calls : List Call}

theorem left_next (s : TableStore) (c : Call) (id : String) :
    Row.Left c id (s.table.row? id) ((next s c).table.row? id) := by
  obtain ⟨clock, q⟩ := c
  cases q with
  | get | listDue => exact .kept
  | save r =>
    rw [next_eq, perform, table_withTable, Table.upsert]
    simp only [Table.row?_write]
    split
    · next its => exact .saved r rfl its
    · exact .kept
  | reserve other expected time =>
    rw [next_eq, perform, table_withTable]
    unfold Table.compareAndReserve
    split
    · exact .kept
    · split
      · exact .kept
      · next row there =>
        split
        · simp only [Table.row?_write]
          split
          · next its => exact its ▸ .claimed row there rfl
          · exact .kept
        · exact .kept
  | recordFailure other time =>
    rw [next_eq, perform, table_withTable]
    unfold Table.countFailure
    split
    · exact .kept
    · split
      · exact .kept
      · next row there =>
        split
        · exact .kept
        · simp only [Table.row?_write]
          split
          · next its => exact its ▸ .failed row there rfl
          · exact .kept
  | delete other =>
    rw [next_eq, perform, table_withTable]
    unfold Table.remove
    split
    · exact .kept
    · simp only [Table.row?_erase]
      split
      · exact .gone
      · exact .kept

-- ---------------------------------------------------------------------------
-- One claim
-- ---------------------------------------------------------------------------

theorem reply_congr (name : s.name = s'.name) (table : s.table = s'.table) :
    reply s c = reply s' c := by
  obtain ⟨clock, q⟩ := c
  cases q <;> simp only [reply_eq, perform, name, table]

theorem table_next_congr (name : s.name = s'.name) (table : s.table = s'.table) :
    (next s c).table = (next s' c).table := by
  obtain ⟨clock, q⟩ := c
  cases q <;> simp only [next_eq, perform, name, table, table_withTable]

/-- What a store answers from now on is up to its table and the table's name. -/
theorem reply_after_congr (name : s.name = s'.name) (table : s.table = s'.table) :
    reply (after s calls) c = reply (after s' calls) c := by
  induction calls generalizing s s' with
  | nil => exact reply_congr name table
  | cons first calls ih =>
    refine ih ?_ (table_next_congr name table)
    rw [name_next, name_next, name]

theorem reply_get_ne_none (h : s.table.row? id = some row) :
    reply s ⟨clock, .get id⟩ ≠ .ok none := by
  rw [reply_get_there h, Ne, mapError_eq_ok_iff, map_eq_ok_iff]
  simp

theorem reply_reserve_missing (named : id ≠ "") (h : s.table.row? id = none) :
    reply s ⟨now, .reserve id expected time⟩ = .error (.notFound id) := by
  rw [reply_eq, perform_reserve (Table.compareAndReserve_missing named h)]
  rfl

theorem table_reserve_missing (named : id ≠ "") (h : s.table.row? id = none) :
    (next s ⟨now, .reserve id expected time⟩).table = s.table := by
  rw [next_eq, perform_reserve (Table.compareAndReserve_missing named h), table_withTable]

theorem reply_reserve_same (named : id ≠ "") (h : s.table.row? id = some row)
    (same : row.reservedAt = reservationText expected) :
    reply s ⟨now, .reserve id expected time⟩ =
      ((row.claim now time).columns.map fun _ => true).mapError Error.toStoreError := by
  rw [reply_eq, perform_reserve (Table.compareAndReserve_same named h same)]

theorem table_reserve_same (named : id ≠ "") (h : s.table.row? id = some row)
    (same : row.reservedAt = reservationText expected) :
    (next s ⟨now, .reserve id expected time⟩).table = s.table.write id (row.claim now time) := by
  rw [next_eq, perform_reserve (Table.compareAndReserve_same named h same), table_withTable]

theorem reply_reserve_other (named : id ≠ "") (h : s.table.row? id = some row)
    (differ : row.reservedAt ≠ reservationText expected) :
    reply s ⟨now, .reserve id expected time⟩ =
      ((row.record id s.name).map fun _ => false).mapError Error.toStoreError := by
  rw [reply_eq, perform_reserve (Table.compareAndReserve_other named h differ)]

theorem table_reserve_other (named : id ≠ "") (h : s.table.row? id = some row)
    (differ : row.reservedAt ≠ reservationText expected) :
    (next s ⟨now, .reserve id expected time⟩).table = s.table := by
  rw [next_eq, perform_reserve (Table.compareAndReserve_other named h differ), table_withTable]

theorem granted_iff (bounded : row.IsBounded) (named : id ≠ "") (h : s.table.row? id = some row)
    (same : row.reservedAt = reservationText expected) (plain : time.HasPlainYear)
    (counted : now.IsCounted) : reply s ⟨now, .reserve id expected time⟩ = .ok true ↔
      ∃ created, row.createdAt.bind Instant.ofMicroseconds? = some created := by
  rw [reply_reserve_same named h same, mapError_eq_ok_iff, map_eq_ok_iff]
  constructor
  · rintro ⟨c, columns, _⟩
    exact ⟨c.createdAt, (Row.columns_eq_ok_iff.mp columns).2.2.2.1⟩
  · intro created
    obtain ⟨c, columns⟩ := ((bounded.isReadable_claim_iff plain counted).mpr created).columns
    exact ⟨c, columns, rfl⟩

theorem text_of_get (bounded : row.IsBounded) (h : s.table.row? id = some row) {r : Record}
    (got : reply s ⟨clock, .get id⟩ = .ok (some r)) :
    row.reservedAt = reservationText r.reservedAt := by
  obtain ⟨time?, text, plain⟩ := bounded.reservedAt
  have read := (Row.record_eq_ok_iff.mp ((reply_get_eq_some_iff h).mp got)).2.2.2.2.1
  rw [text, readReservation_of_hasPlainYear plain] at read
  rw [text, ← Except.ok.inj read, reservationText_told]

theorem accepted (bounded : row.IsBounded) (named : id ≠ "") (h : s.table.row? id = some row)
    (plain : time.HasPlainYear) (counted : now.IsCounted) {r : Record}
    (got : reply s ⟨clock, .get id⟩ = .ok (some r)) :
    reply s ⟨now, .reserve id r.reservedAt time⟩ = .ok true := by
  rw [granted_iff bounded named h (text_of_get bounded h got) plain counted]
  exact ⟨_, (Row.record_eq_ok_iff.mp ((reply_get_eq_some_iff h).mp got)).2.2.2.2.2.1⟩

theorem reply_get_congr (name : s.name = s'.name) (h : s.table.row? id = s'.table.row? id) :
    reply s ⟨clock, .get id⟩ = reply s' ⟨clock, .get id⟩ := by
  simp only [reply_eq, perform, Table.find, name, h]

/-- A row whose reservation is known fails to be shown only if it cannot be read at all. -/
theorem get_shows_iff (h : s.table.row? id = some row)
    (same : row.reservedAt = reservationText time?) (plain : ∀ time ∈ time?, time.HasPlainYear) :
    (∃ r, reply s ⟨clock, .get id⟩ = .ok (some r) ∧ r.reservedAt = time?.map Instant.told) ↔
      row.IsReadable := by
  rw [Row.isReadable_iff id s.name]
  constructor
  · rintro ⟨r, got, _⟩
    exact ⟨r, (reply_get_eq_some_iff h).mp got⟩
  · rintro ⟨r, read⟩
    have reserved := (Row.record_eq_ok_iff.mp read).2.2.2.2.1
    rw [same, readReservation_of_hasPlainYear plain] at reserved
    exact ⟨r, (reply_get_eq_some_iff h).mpr read, (Except.ok.inj reserved).symm⟩

theorem claimsExactly_missing (named : id ≠ "") (h : s.table.row? id = none) :
    ClaimsExactly Instant.told s now id expected time := by
  have answer : reply s ⟨now, .reserve id expected time⟩ = .error (.notFound id) :=
    reply_reserve_missing named h
  have unchanged : (next s ⟨now, .reserve id expected time⟩).table = s.table :=
    table_reserve_missing named h
  constructor
  case missing => exact fun clock => iff_of_true answer (reply_get_missing h)
  case granted => simp [answer, reply_get_missing h]
  case claimed => simp [answer]
  case refused => simp [answer]
  case others => exact fun clock other _ => reply_congr (name_next ..) unchanged
  case accepted => simp [reply_get_missing h]

theorem claimsExactly_other (bounded : row.IsBounded) (named : id ≠ "")
    (h : s.table.row? id = some row) (differ : row.reservedAt ≠ reservationText expected)
    (plain : time.HasPlainYear) (counted : now.IsCounted) :
    ClaimsExactly Instant.told s now id expected time := by
  have answer : reply s ⟨now, .reserve id expected time⟩ =
      ((row.record id s.name).map fun _ => false).mapError Error.toStoreError :=
    reply_reserve_other named h differ
  have unchanged : (next s ⟨now, .reserve id expected time⟩).table = s.table :=
    table_reserve_other named h differ
  have refuses : reply s ⟨now, .reserve id expected time⟩ ≠ .ok true := by
    rw [answer, Ne, mapError_eq_ok_iff, map_eq_ok_iff]
    rintro ⟨_, _, ⟨⟩⟩
  constructor
  case missing =>
    intro clock
    refine iff_of_false ?_ (reply_get_ne_none h)
    rw [answer]
    cases read : row.record id s.name with
    | ok r => simp [Except.map, Except.mapError]
    | error e =>
      intro missing
      exact Row.record_ne_notFound read id (Except.error.inj missing)
  case granted =>
    intro clock
    refine iff_of_false refuses ?_
    rintro ⟨r, got, same⟩
    rw [text_of_get bounded h got, same, reservationText_told] at differ
    exact differ rfl
  case claimed => exact fun clock granted => absurd granted refuses
  case refused =>
    intro calls c _
    rw [RecordStore.after_cons]
    exact reply_after_congr (name_next s _) unchanged
  case others => exact fun clock other _ => reply_congr (name_next ..) unchanged
  case accepted => exact fun clock r got => accepted bounded named h plain counted got

theorem claimsExactly_same_iff (bounded : row.IsBounded) (named : id ≠ "")
    (h : s.table.row? id = some row) (same : row.reservedAt = reservationText expected)
    (wanted : ∀ time ∈ expected, time.HasPlainYear) (plain : time.HasPlainYear)
    (counted : now.IsCounted) :
    ClaimsExactly Instant.told s now id expected time ↔ ¬row.HasLostUpdate := by
  have grants := granted_iff bounded named h same plain counted
  have written : (next s ⟨now, .reserve id expected time⟩).table =
      s.table.write id (row.claim now time) := table_reserve_same named h same
  constructor
  · rintro exact_ ⟨created, lost⟩
    have readable := (get_shows_iff h same wanted).mp
      ((exact_.granted .epoch).mp (grants.mpr created))
    obtain ⟨updated, there⟩ := readable.updatedAt
    cases lost.symm.trans there
  · intro kept
    constructor
    case missing =>
      intro clock
      refine iff_of_false ?_ (reply_get_ne_none h)
      rw [reply_reserve_same named h same]
      cases columns : (row.claim now time).columns with
      | ok c => simp [Except.map, Except.mapError]
      | error e =>
        obtain ⟨name, rfl⟩ := Row.columns_error columns
        simp [Except.map, Except.mapError, Error.toStoreError]
    case granted =>
      intro clock
      rw [grants, get_shows_iff h same wanted, bounded.isReadable_iff]
      refine ⟨fun created => ⟨created, ?_⟩, And.left⟩
      rw [← Option.ne_none_iff_exists']
      exact fun lost => kept ⟨created, lost⟩
    case claimed =>
      -- the claim has set the time of the last update, so the row is read whatever it was
      intro clock granted
      have there : (next s ⟨now, .reserve id expected time⟩).table.row? id =
          some (row.claim now time) := by
        rw [written, Table.row?_write, if_pos rfl]
      have text : (row.claim now time).reservedAt = reservationText (some time) := rfl
      refine (get_shows_iff there text (by simpa using plain)).mpr ?_
      exact (bounded.isReadable_claim_iff plain counted).mpr (grants.mp granted)
    case refused =>
      intro calls c refused
      rw [reply_reserve_same named h same, mapError_eq_ok_iff, map_eq_ok_iff] at refused
      obtain ⟨_, _, ⟨⟩⟩ := refused
    case others =>
      intro clock other differ
      refine reply_get_congr (name_next ..) ?_
      rw [written, Table.row?_write, if_neg (Ne.symm differ)]
    case accepted => exact fun clock r got => accepted bounded named h plain counted got

/-- A claim over a table is an exact compare-and-set, up to what a text tells of a time, unless it is
granted over a row whose time of the last update is the only column that cannot be read. -/
theorem claimsExactly_iff (bounded : ∀ row, s.table.row? id = some row → row.IsBounded)
    (named : id ≠ "") (wanted : ∀ time ∈ expected, time.HasPlainYear) (plain : time.HasPlainYear)
    (counted : now.IsCounted) : ClaimsExactly Instant.told s now id expected time ↔
      ∀ row, s.table.row? id = some row → row.reservedAt = reservationText expected →
        ¬row.HasLostUpdate := by
  cases there : s.table.row? id with
  | none => exact iff_of_true (claimsExactly_missing named there) (by simp)
  | some row =>
    by_cases same : row.reservedAt = reservationText expected
    · rw [claimsExactly_same_iff (bounded row there) named there same wanted plain counted]
      simp [same]
    · exact iff_of_true (claimsExactly_other (bounded row there) named there same plain counted)
        (by simp [same])

-- ---------------------------------------------------------------------------
-- Runs of calls
-- ---------------------------------------------------------------------------

theorem isOwn_after (own : ∀ row, s.table.row? id = some row → row.IsOwn) :
    ∀ row, (after s calls).table.row? id = some row → row.IsOwn := by
  induction calls generalizing s with
  | nil => exact own
  | cons c calls ih =>
    exact ih fun row there => (left_next s c id).isOwn own row there

/-- The reservation that is stored of a record, if its text can be read. -/
def held (id : String) (s : TableStore) : Option (Option Instant) :=
  (s.table.row? id).bind fun row => (readReservation row.reservedAt).toOption

def heldText (id : String) (s : TableStore) : Option String :=
  (s.table.row? id).map Row.reservedAt

theorem held_of_heldText (plain : ∀ time ∈ expected, time.HasPlainYear)
    (text : heldText id s = some (reservationText expected)) :
    held id s = some (expected.map Instant.told) := by
  obtain ⟨row, there, same⟩ := Option.map_eq_some_iff.mp text
  simp [held, there, same, readReservation_of_hasPlainYear plain, Except.toOption]

theorem heldText_next (s : TableStore) (c : Call) : heldText id (next s c) = heldText id s ∨
    heldText id (next s c) = none ∨
    ∃ given, c.Gives id given ∧ heldText id (next s c) = some (reservationText given) :=
  (left_next s c id).text

theorem heldText_of_granted (granted : reply s ⟨now, .reserve id expected time⟩ = .ok true) :
    heldText id s = some (reservationText expected) ∧
      heldText id (next s ⟨now, .reserve id expected time⟩) =
        some (reservationText (some time)) := by
  by_cases named : id = ""
  · rw [reply_eq, perform, Table.compareAndReserve, if_pos named] at granted
    cases granted
  cases there : s.table.row? id with
  | none =>
    rw [reply_reserve_missing named there] at granted
    cases granted
  | some row =>
    by_cases same : row.reservedAt = reservationText expected
    · refine ⟨by rw [heldText, there, Option.map_some, same], ?_⟩
      rw [heldText, table_reserve_same named there same, Table.row?_write, if_pos rfl]
      rfl
    · rw [reply_reserve_other named there same, mapError_eq_ok_iff, map_eq_ok_iff] at granted
      obtain ⟨_, _, ⟨⟩⟩ := granted

theorem needsRenewal (plain : ∀ time ∈ expected, time.HasPlainYear) :
    NeedsRenewal Instant.told (held id) s id expected := by
  intro now time between now' time' first second
  have start : ∃ given, Call.Gives ⟨now, .reserve id expected time⟩ id given ∧
      heldText id (next s ⟨now, .reserve id expected time⟩) = some (reservationText given) :=
    ⟨some time, ⟨rfl, rfl⟩, (heldText_of_granted first).2⟩
  obtain ⟨before, c, rest, given, split, gives, coded, stays⟩ :=
    exists_renewal heldText_next start (heldText_of_granted second).1
  refine ⟨before, c, rest, given, split, gives, (reservationText_eq_iff plain).mp coded, ?_⟩
  intro more short
  exact held_of_heldText plain (stays more short)

end TableStore

/-- Whether the reservations of a table are of years that can be read, and no number of attempts is
past the greatest that a record can have. -/
def Table.IsInRange (t : Table) : Prop :=
  ∀ e ∈ t.items, (readReservation e.row.reservedAt).isOk = true ∧ e.row.attempts ≤ 0xFFFFFFFF

instance (t : Table) : Decidable t.IsInRange :=
  inferInstanceAs (Decidable (∀ e ∈ t.items, _ = true ∧ _ ≤ _))

theorem Row.IsOwn.isBounded {t : Table} (own : row.IsOwn) (range : t.IsInRange)
    (there : t.row? id = some row) : row.IsBounded := by
  obtain ⟨e, found, rfl⟩ := Option.map_eq_some_iff.mp there
  obtain ⟨readable, small⟩ := range e (Keyed.mem_of_find? found)
  obtain ⟨time?, text⟩ := own.reservedAt
  refine ⟨⟨time?, text, ?_⟩, own.attempts, small⟩
  rw [text] at readable
  cases read : readReservation (reservationText time?) with
  | ok time? => exact hasPlainYear_of_read read
  | error e => simp [read, Except.isOk, Except.toBool] at readable

/-- Claiming is an exact compare-and-set in memory. Over a table that began empty, whose
reservations are in range, it is one up to what a text tells of a time, unless it is granted over a
row whose time of the last update is the only column that cannot be read. What a text tells is the
time rounded down to a microsecond, but for a leap second within a minute. In both stores a
reservation that a claim has replaced comes back only by a call that writes it. -/
theorem claims_compare_and_set (s : MemoryStore) (fresh : TableStore) (calls : List Call)
    (empty : fresh.table = .empty) (id : String) (expected : Option Instant) :
    (∀ now time, ClaimsExactly (fun t => t) s now id expected time) ∧
    NeedsRenewal (fun t => t) (MemoryStore.held id) s id expected ∧
    (∀ time : Instant, time.told = time.cut ↔ time.IsLegible) ∧
    ((∀ time ∈ expected, time.HasPlainYear) →
      NeedsRenewal Instant.told (TableStore.held id) (after fresh calls) id expected ∧
      ((after fresh calls).table.IsInRange → id ≠ "" →
        ∀ now time, time.HasPlainYear → now.IsCounted →
          (ClaimsExactly Instant.told (after fresh calls) now id expected time ↔
            ∀ row, (after fresh calls).table.row? id = some row →
              row.reservedAt = reservationText expected → ¬row.HasLostUpdate))) := by
  refine ⟨fun now time => MemoryStore.claimsExactly, MemoryStore.needsRenewal,
    fun time => Instant.told_eq_cut_iff, fun wanted => ?_⟩
  refine ⟨TableStore.needsRenewal wanted, fun range named now time plain counted => ?_⟩
  have own : ∀ row, (after fresh calls).table.row? id = some row → row.IsOwn := by
    refine TableStore.isOwn_after ?_
    intro row there
    simp [empty, Table.row?] at there
  have bounded (row : Row) (there : (after fresh calls).table.row? id = some row) :
      row.IsBounded := (own row there).isBounded range there
  exact TableStore.claimsExactly_iff bounded named wanted plain counted

/-- A record whose reservation is claimed, to a fraction of a microsecond. -/
def claimedLetter : List Call :=
  [⟨.epoch, .save (.ofParts "a" queueCollection "" .epoch)⟩,
    ⟨.epoch, .reserve "a" none ⟨1, 1500, by decide, by decide, by decide⟩⟩]

/-- The claim is taken over by who knows it to the microsecond. A claim over no reservation is
granted after a failure, and again after another one. -/
theorem claims_compare_and_set_claimedLetter :
    let fresh : TableStore := ⟨.empty, queueCollection⟩
    let claim : Call := ⟨.epoch, .reserve "a" none (.ofSecond 3)⟩
    let failure : Call := ⟨.ofSecond 4, .recordFailure "a" (.ofSecond 4)⟩
    ClaimsExactly Instant.told (after fresh claimedLetter) .epoch "a"
      (some ⟨1, 1700, by decide, by decide, by decide⟩) (.ofSecond 2) ∧
    RecordStore.Renews Instant.told (TableStore.held "a") (after fresh (claimedLetter ++ [failure]))
      "a" none [claim, failure] := by
  intro fresh claim failure
  constructor
  · obtain ⟨-, -, -, table⟩ := claims_compare_and_set .empty fresh claimedLetter rfl "a"
      (some ⟨1, 1700, by decide, by decide, by decide⟩)
    obtain ⟨-, exactly⟩ := table (by decide +kernel)
    refine (exactly (by decide +kernel) (by decide) .epoch (.ofSecond 2) (by decide +kernel)
      (by decide +kernel)).mpr ?_
    intro row there _ lost
    have updated : ((after fresh claimedLetter).table.row? "a").bind (fun row =>
        row.updatedAt.bind Instant.ofMicroseconds?) = some .epoch := by decide +kernel
    rw [there, Option.bind_some, lost.updatedAt] at updated
    cases updated
  · obtain ⟨-, -, -, table⟩ :=
      claims_compare_and_set .empty fresh (claimedLetter ++ [failure]) rfl "a" none
    have granted : reply (after fresh (claimedLetter ++ [failure])) claim = .ok true := by
      decide +kernel
    have again : reply (after (after fresh (claimedLetter ++ [failure])) [claim, failure])
        ⟨.ofSecond 5, .reserve "a" none (.ofSecond 5)⟩ = .ok true := by decide +kernel
    exact (table (by simp)).1 granted again

def lastLeapSecond : Instant :=
  (Instant.ofParts? Time.lastSecond Time.Span.perSecond).get (by decide)

/-- A failure that is stamped with the leap second after the last second leaves a record that `get`
does not show and a claim is granted on. -/
theorem not_claimsExactly_lastLeapSecond :
    ¬∀ (fresh : TableStore) calls, fresh.table = .empty → (after fresh calls).table.IsInRange →
      ∀ now id expected time, id ≠ "" →
        (∀ time ∈ expected, time.HasPlainYear ∧ time.IsLegible) →
        time.HasPlainYear → time.IsLegible → now.IsCounted →
        ClaimsExactly Instant.cut (after fresh calls) now id expected time := by
  intro all
  let calls : List Call := [⟨.epoch, .save (.ofParts "a" queueCollection "" .epoch)⟩,
    ⟨.epoch, .recordFailure "a" lastLeapSecond⟩]
  let s : TableStore := after ⟨.empty, queueCollection⟩ calls
  have exact_ : ClaimsExactly Instant.cut s .epoch "a" none .epoch :=
    all _ calls rfl (by decide +kernel) .epoch "a" none .epoch (by decide) (by simp)
      (by decide +kernel) (by decide +kernel) (by decide +kernel)
  have granted : reply s ⟨.epoch, .reserve "a" none .epoch⟩ = .ok true := by decide +kernel
  obtain ⟨r, got, _⟩ := (exact_.granted .epoch).mp granted
  have hidden : (reply s ⟨.epoch, .get "a"⟩).isOk = false := by decide +kernel
  rw [got] at hidden
  cases hidden

end JobQueue.Database
