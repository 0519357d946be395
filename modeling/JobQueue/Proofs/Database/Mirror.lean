import JobQueue.Proofs.Database.Cutoff
import JobQueue.Proofs.Database.Table
import JobQueue.Proofs.Store.Memory

/-!
# Two stores, one interface

As long as times are plain, the store over a table answers every call as the store in memory does,
except for the times of the last update (`heard_eq`). Entry by entry, the table holds the rows of
the records in memory, in the same order; the two are sorted alike, records of equal times of
creation included, since both go on to the identifiers.
-/

namespace JobQueue

open Time (Instant Span)

-- ---------------------------------------------------------------------------
-- Answers without the times of the last update
-- ---------------------------------------------------------------------------

def Record.untimed (r : Record) : Record := { r with updatedAt := .epoch }

def Request.untimed : (q : Request) → q.Answer → q.Answer
  | get _, r? => r?.map Record.untimed
  | recordFailure _ _, r => r.untimed
  | listDue _ _ _, rs => rs.map Record.untimed
  | save _, a => a
  | reserve _ _ _, a => a
  | delete _, a => a

/-- What is heard of a store in a run, but for the times of the last update. -/
def RecordStore.heard {σ : Type} [RecordStore σ] (s : σ) :
    List Call → List ((q : Request) × Except StoreError q.Answer)
  | [] => []
  | c :: calls => ⟨c.request, (reply s c).map c.request.untimed⟩ :: heard (next s c) calls

structure Record.IsPlain (r : Record) (collection : String) : Prop where
  collection : r.collection = collection
  reservedAt : ∀ time ∈ r.reservedAt, time.IsPlain
  createdAt : r.createdAt.IsPlain

instance (r : Record) (collection : String) : Decidable (r.IsPlain collection) :=
  decidable_of_iff (r.collection = collection ∧ (∀ time ∈ r.reservedAt, time.IsPlain) ∧
    r.createdAt.IsPlain) ⟨fun h => ⟨h.1, h.2.1, h.2.2⟩, fun h => ⟨h.1, h.2, h.3⟩⟩

namespace Database

open RecordStore (reply next Along heard)

variable {collection : String} {e f : Entry} {r u : Record} {row : Row} {id : String}
  {now time : Instant} {m : MemoryStore} {s : TableStore} {c : Call} {calls : List Call}

-- ---------------------------------------------------------------------------
-- Rows that show records
-- ---------------------------------------------------------------------------

/-- Whether an entry is the row of a plain record, but for the time of the last update. -/
structure Entry.Shows (collection : String) (e : Entry) (r : Record) : Prop where
  id : e.id = r.id
  payload : e.row.payload = r.payload
  attempts : e.row.attempts = r.attempts.toNat
  reservedAt : e.row.reservedAt = reservationText r.reservedAt
  createdAt : e.row.createdAt = some r.createdAt.microseconds
  updatedAt : ∃ time, e.row.updatedAt.bind Instant.ofMicroseconds? = some time
  plain : r.IsPlain collection

namespace Entry.Shows

theorem createdAt_read (h : e.Shows collection r) :
    e.row.createdAt.bind Instant.ofMicroseconds? = some r.createdAt := by
  have plain := h.plain.createdAt
  rw [h.createdAt, Option.bind_some, Instant.ofMicroseconds?_microseconds plain.regular,
    Instant.cut_eq_iff.mpr plain.whole]

theorem exists_record (h : e.Shows collection r) :
    ∃ u, e.row.record e.id collection = .ok u ∧ u.untimed = r.untimed := by
  obtain ⟨updatedAt, updated⟩ := h.updatedAt
  refine ⟨{ r with updatedAt }, Row.record_eq_ok_iff.mpr
    ⟨h.id.symm, h.plain.collection, h.payload, h.attempts, ?_, h.createdAt_read, updated⟩, rfl⟩
  rw [h.reservedAt]
  exact readReservation_of_isPlain h.plain.reservedAt

theorem isReadable (h : e.Shows collection r) : e.row.IsReadable := by
  obtain ⟨u, read, _⟩ := h.exists_record
  exact (Row.isReadable_iff _ _).mpr ⟨u, read⟩

theorem ofRecord (plain : r.IsPlain collection) (counted : now.IsCounted) :
    Shows collection ⟨r.id, Row.ofRecord { r with updatedAt := now }⟩ { r with updatedAt := now } :=
  ⟨rfl, rfl, rfl, rfl, rfl, Instant.isCounted_iff.mp counted,
    ⟨plain.collection, plain.reservedAt, plain.createdAt⟩⟩

theorem claim (h : e.Shows collection r) (plain : time.IsPlain) (counted : now.IsCounted) :
    Shows collection ⟨e.id, e.row.claim now time⟩ (r.reserve time) :=
  ⟨h.id, h.payload, h.attempts, rfl, h.createdAt, Instant.isCounted_iff.mp counted,
    ⟨h.plain.collection, by simpa [Record.reserve] using plain, h.plain.createdAt⟩⟩

theorem fail (h : e.Shows collection r) (counted : time.IsCounted)
    (room : r.attempts ≠ 0xFFFFFFFF) :
    Shows collection ⟨e.id, e.row.fail time⟩ (r.recordFailure time) := by
  have attempts : e.row.attempts + 1 = (countAttempt r.attempts).toNat := by
    have bound := r.attempts.toNat_lt
    have other : r.attempts.toNat ≠ 4294967295 := fun same => room (UInt32.toNat_inj.mp same)
    rw [toNat_countAttempt, h.attempts]
    omega
  exact ⟨h.id, h.payload, attempts, rfl, h.createdAt, Instant.isCounted_iff.mp counted,
    ⟨h.plain.collection, by simp [Record.recordFailure], h.plain.createdAt⟩⟩

theorem isFree (h : e.Shows collection r) (hnow : now.IsPlain) (window : Span) :
    (e.row.reservedAt = "" ∨
      e.row.reservedAt ≤ reservationText (some (Table.cutoff now window))) ↔
      r.isReservedWithin now window = false := by
  rw [h.reservedAt]
  cases reserved : r.reservedAt with
  | none => simp [reservationText, Record.isReservedWithin, reserved]
  | some time =>
    have plain := h.plain.reservedAt time reserved
    rw [reservationText_le_cutoff_iff plain hnow.year hnow.regular]
    simp [reservationText_ne_empty, Record.isReservedWithin, reserved]

theorem older (h : e.Shows collection r) (h' : f.Shows collection u) :
    Table.olderEntry e f = r.servedBefore u := by
  have plain := h.plain.createdAt
  have plain' := h'.plain.createdAt
  simp [Table.olderEntry, Record.servedBefore, h.createdAt, h'.createdAt, h.id, h'.id,
    plain.lt_iff plain', plain.eq_iff plain']

end Entry.Shows

-- ---------------------------------------------------------------------------
-- Tables that mirror a store in memory
-- ---------------------------------------------------------------------------

/-- Whether a table holds the rows of what is in memory, in the same order. -/
def Mirrors (s : TableStore) (m : MemoryStore) : Prop :=
  List.Forall₂ (Entry.Shows s.name) s.table.items m.items

/-- Whether a call keeps to plain times, to the collection of the table, and to what a table can
count. -/
def IsPlainCall (collection : String) (m : MemoryStore) (c : Call) : Prop :=
  match c.request with
  | .get _ | .delete _ => True
  | .save r => r.IsPlain collection ∧ c.now.IsCounted
  | .reserve id expected time => id ≠ "" ∧ (∀ time ∈ expected, time.IsPlain) ∧ time.IsPlain ∧
      c.now.IsCounted
  | .recordFailure id time => id ≠ "" ∧ time.IsCounted ∧
      ∀ r ∈ m.find? id, r.attempts ≠ 0xFFFFFFFF
  | .listDue now _ limit => now.IsPlain ∧ limit ≤ maxInteger

instance (collection : String) (m : MemoryStore) (c : Call) :
    Decidable (IsPlainCall collection m c) :=
  match c with
  | ⟨_, .get _⟩ | ⟨_, .delete _⟩ => .isTrue trivial
  | ⟨_, .save _⟩ | ⟨_, .reserve _ _ _⟩ | ⟨_, .recordFailure _ _⟩ | ⟨_, .listDue _ _ _⟩ =>
    inferInstanceAs (Decidable (_ ∧ _))

theorem Mirrors.find? (h : Mirrors s m) (id : String) :
    m.find? id = none ∧ s.table.row? id = none ∨
      ∃ row r, m.find? id = some r ∧ s.table.row? id = some row ∧ Entry.Shows s.name ⟨id, row⟩ r := by
  rcases Keyed.forall₂_find? (fun _ _ shows => Entry.Shows.id shows) h id with
    ⟨missing, missing'⟩ | ⟨e, r, found, found', shows⟩
  · exact .inl ⟨missing', by simp [Table.row?, missing]⟩
  · obtain rfl : e.id = id := Keyed.key_of_find? found
    exact .inr ⟨e.row, r, found', by simp [Table.row?, found], shows⟩

theorem Mirrors.due (h : Mirrors s m) (hnow : now.IsPlain) (window : Span) (limit : Nat) :
    List.Forall₂ (Entry.Shows s.name) (s.table.dueEntries (Table.cutoff now window) limit)
      (m.due now window limit) := by
  refine List.forall₂_take limit (Keyed.forall₂_mergeSort
    (fun _ _ _ _ shows shows' => shows.older shows') (List.rel_filter (fun e r shows => ?_) h))
  simp only [decide_eq_true_iff, shows.isFree hnow, Bool.not_eq_true']

theorem untimed_of_reads {es : List Entry} {us rs : List Record}
    (reads : List.Forall₂ (fun e u => e.row.record e.id collection = .ok u) es us)
    (shows : List.Forall₂ (Entry.Shows collection) es rs) :
    us.map Record.untimed = rs.map Record.untimed := by
  induction reads generalizing rs with
  | nil =>
    cases shows
    rfl
  | cons read _ ih =>
    cases shows with
    | cons first rest =>
      obtain ⟨u, read', same⟩ := first.exists_record
      rw [read, Except.ok.injEq] at read'
      rw [List.map_cons, List.map_cons, ih rest, read', same]

structure Agrees (m : MemoryStore) (s : TableStore) (c : Call) : Prop where
  heard : (reply m c).map c.request.untimed = (reply s c).map c.request.untimed
  mirrors : Mirrors (next s c) (next m c)

theorem Agrees.of_answers {q : Request} {a : Except StoreError q.Answer}
    {a' : Except Error q.Answer}
    {m' : MemoryStore} {s' : TableStore} (left : RecordStore.answer now q m = (a, m'))
    (right : TableStore.perform now q s = (a', s'))
    (heard : a.map q.untimed = (a'.mapError Error.toStoreError).map q.untimed)
    (mirrors : Mirrors s' m') : Agrees m s ⟨now, q⟩ := by
  constructor
  · rw [TableStore.reply_eq, right, reply, left]
    exact heard
  · rw [TableStore.next_eq, right, next, left]
    exact mirrors

namespace Mirrors

theorem put (h : Mirrors s m) (shows : e.Shows s.name r) :
    Mirrors (s.withTable (s.table.put e)) (m.put r) := by
  rw [Mirrors, TableStore.table_withTable]
  exact Keyed.forall₂_put (fun _ _ => Entry.Shows.id) h shows

theorem erase (h : Mirrors s m) : Mirrors (s.withTable (s.table.erase id)) (m.erase id) := by
  rw [Mirrors, TableStore.table_withTable]
  exact Keyed.forall₂_erase (fun _ _ => Entry.Shows.id) h

theorem unchanged (h : Mirrors s m) : Mirrors (s.withTable s.table) m := by
  rw [Mirrors, TableStore.table_withTable]
  exact h

theorem agrees_get (h : Mirrors s m) : Agrees m s ⟨now, .get id⟩ := by
  refine .of_answers rfl rfl ?_ h
  rcases h.find? id with ⟨missing, missing'⟩ | ⟨row, r, found, there, shows⟩
  · simp [missing, Table.find, missing', Except.map, Except.mapError]
  · obtain ⟨u, read, same⟩ := shows.exists_record
    simp [found, Table.find, there, read, Except.map, Except.mapError, Request.untimed, same]

theorem agrees_save (h : Mirrors s m) (plain : r.IsPlain s.name) (counted : now.IsCounted) :
    Agrees m s ⟨now, .save r⟩ := by
  have shows := Entry.Shows.ofRecord plain counted
  obtain ⟨c, columns⟩ := shows.isReadable.columns
  refine .of_answers rfl rfl ?_ (h.put shows)
  simp [columns, Except.map, Except.mapError]

theorem agrees_reserve (h : Mirrors s m) (named : id ≠ "") {expected : Option Instant}
    (expectable : ∀ time ∈ expected, time.IsPlain) (plain : time.IsPlain)
    (counted : now.IsCounted) : Agrees m s ⟨now, .reserve id expected time⟩ := by
  rcases h.find? id with ⟨missing, missing'⟩ | ⟨row, r, found, there, shows⟩
  · exact .of_answers (MemoryStore.reserve_missing missing)
      (TableStore.perform_reserve (Table.compareAndReserve_missing named missing')) rfl h.unchanged
  · have texts := reservationText_inj shows.plain.reservedAt expectable
    rw [← shows.reservedAt] at texts
    by_cases same : r.reservedAt = expected
    · have claimed := shows.claim plain counted
      obtain ⟨c, columns⟩ := claimed.isReadable.columns
      refine .of_answers (MemoryStore.reserve_same found same) (TableStore.perform_reserve
        (Table.compareAndReserve_same named there (texts.mpr same))) ?_ (h.put claimed)
      simp [columns, Except.map, Except.mapError]
    · obtain ⟨u, read, _⟩ := shows.exists_record
      refine .of_answers (MemoryStore.reserve_other found same) (TableStore.perform_reserve
        (Table.compareAndReserve_other named there (mt texts.mp same))) ?_ h.unchanged
      simp [read, Except.map, Except.mapError]

theorem agrees_recordFailure (h : Mirrors s m) (named : id ≠ "") (counted : time.IsCounted)
    (room : ∀ r ∈ m.find? id, r.attempts ≠ 0xFFFFFFFF) :
    Agrees m s ⟨now, .recordFailure id time⟩ := by
  rcases h.find? id with ⟨missing, missing'⟩ | ⟨row, r, found, there, shows⟩
  · exact .of_answers (MemoryStore.recordFailure_missing missing)
      (TableStore.perform_recordFailure (Table.countFailure_missing named missing')) rfl h.unchanged
  · have failed := shows.fail counted (room r found)
    obtain ⟨u, read, same⟩ := failed.exists_record
    refine .of_answers (MemoryStore.recordFailure_there found) (TableStore.perform_recordFailure
      (Table.countFailure_there named there shows.isReadable.attempts_lt)) ?_ (h.put failed)
    simp [read, Except.map, Except.mapError, Request.untimed, same]

theorem agrees_delete (h : Mirrors s m) : Agrees m s ⟨now, .delete id⟩ := by
  rcases h.find? id with ⟨missing, missing'⟩ | ⟨row, r, found, there, shows⟩
  · exact .of_answers (MemoryStore.delete_missing missing)
      (TableStore.perform_delete (Table.remove_missing missing')) rfl h.unchanged
  · obtain ⟨c, columns⟩ := shows.isReadable.columns
    refine .of_answers (MemoryStore.delete_there found)
      (TableStore.perform_delete (Table.remove_there there)) ?_ h.erase
    simp [columns, Except.map, Except.mapError]

theorem agrees_listDue (h : Mirrors s m) {clock : Instant} (hnow : now.IsPlain) (window : Span)
    {limit : Nat} (small : limit ≤ maxInteger) : Agrees m s ⟨clock, .listDue now window limit⟩ := by
  have readable : ∀ e ∈ s.table.items, e.row.IsReadable := by
    intro e mem
    rcases h.find? e.id with ⟨_, missing⟩ | ⟨row, r, _, there, shows⟩
    · simp [Table.row?_of_mem mem] at missing
    · obtain rfl := Option.some.inj ((Table.row?_of_mem mem).symm.trans there)
      exact shows.isReadable
  obtain ⟨rs, listed, reads⟩ := Table.exists_due small readable
  refine .of_answers rfl (TableStore.perform_listDue listed) ?_ h
  simp [Except.map, Except.mapError, Request.untimed,
    untimed_of_reads reads (h.due hnow window limit)]

theorem agrees (h : Mirrors s m) (plain : IsPlainCall s.name m c) : Agrees m s c := by
  obtain ⟨now, q⟩ := c
  cases q with
  | get id => exact h.agrees_get
  | save r => exact h.agrees_save plain.1 plain.2
  | reserve id expected time =>
    obtain ⟨named, expectable, plain, counted⟩ := plain
    exact h.agrees_reserve named expectable plain counted
  | recordFailure id time =>
    obtain ⟨named, counted, room⟩ := plain
    exact h.agrees_recordFailure named counted room
  | delete id => exact h.agrees_delete
  | listDue now window limit => exact h.agrees_listDue plain.1 window plain.2

theorem heard_eq (h : Mirrors s m) (plain : Along (IsPlainCall s.name) m calls) :
    heard m calls = heard s calls := by
  induction calls generalizing m s with
  | nil => rfl
  | cons c calls ih =>
    obtain ⟨first, rest⟩ := plain
    obtain ⟨reply, mirrors⟩ := h.agrees first
    rw [← TableStore.name_next s c] at rest
    rw [heard, heard, reply, ih mirrors rest]

end Mirrors

/-- A store over a fresh table answers as an empty store in memory does. -/
theorem heard_eq_heard (fresh : s.table = .empty)
    (plain : Along (IsPlainCall s.name) (Keyed.empty : MemoryStore) calls) :
    heard (Keyed.empty : MemoryStore) calls = heard s calls := by
  refine Mirrors.heard_eq ?_ plain
  rw [Mirrors, fresh]
  exact .nil

/-- Two records are claimed, one fails and is due again, and the reservation of the other is as old
as the window. -/
def twoClaims : List Call :=
  [⟨.epoch, .save (.ofParts "a" queueCollection "" (.ofSecond 2))⟩,
    ⟨.epoch, .save (.ofParts "b" queueCollection "" (.ofSecond 1))⟩,
    ⟨.epoch, .reserve "a" none (.ofSecond 10)⟩,
    ⟨.epoch, .reserve "b" none (.ofSecond 10)⟩,
    ⟨.epoch, .recordFailure "a" (.ofSecond 11)⟩,
    ⟨.epoch, .listDue (.ofSecond 310) defaultWindow 5⟩,
    ⟨.epoch, .delete "c"⟩]

theorem heard_eq_heard_twoClaims : heard (Keyed.empty : MemoryStore) twoClaims =
    heard (⟨.empty, queueCollection⟩ : TableStore) twoClaims :=
  heard_eq_heard rfl (by decide +kernel)

end Database

end JobQueue
