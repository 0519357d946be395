import JobQueue.Database.Row
import JobQueue.Proofs.Time.Stamp

/-!
# Which rows can be read

A row is read as a record exactly if each of its columns is (`Row.record_eq_ok_iff`). The text of a
reservation is read back, rounded down to a microsecond, where its year has four digits, and refused
where it has a sign.
-/

namespace JobQueue.Database

open Time (Instant)

variable {row : Row} {time : Instant}

-- ---------------------------------------------------------------------------
-- Reservations
-- ---------------------------------------------------------------------------

theorem reservationText_ne_empty : reservationText (some time) ≠ "" := by
  intro empty
  have text := congrArg String.toList empty
  simp [reservationText, Instant.stampChars] at text

@[simp] theorem readReservation_empty : readReservation "" = .ok none := rfl

theorem readReservation_reservationText (h : time.HasPlainYear) :
    readReservation (reservationText (some time)) = .ok (some time.told) := by
  rw [readReservation, if_neg reservationText_ne_empty, reservationText,
    Instant.ofStamp?_stampChars h]

theorem hasPlainYear_of_readReservation {read : Option Instant}
    (h : readReservation (reservationText (some time)) = .ok read) : time.HasPlainYear := by
  by_contra signed
  obtain ⟨fault, refused⟩ := Instant.ofStamp?_of_signed signed
  rw [readReservation, if_neg reservationText_ne_empty, reservationText, refused] at h
  cases h

-- ---------------------------------------------------------------------------
-- Columns
-- ---------------------------------------------------------------------------

theorem Row.readAttempts_eq_ok_iff {n : Int} {attempts : UInt32} :
    readAttempts n = .ok attempts ↔ n = attempts.toNat := by
  have bound := attempts.toNat_lt
  unfold readAttempts
  split
  · next fits =>
    obtain ⟨positive, small⟩ := fits
    rw [Except.ok.injEq, ← UInt32.toNat_inj, UInt32.toNat_ofNat_of_lt' small]
    omega
  · next fits =>
    simp only [reduceCtorEq, false_iff]
    rintro rfl
    exact fits ⟨Int.natCast_nonneg _, bound⟩

theorem Row.readStamp_eq_ok_iff (name : String) {value? : Option Int} :
    readStamp name value? = .ok time ↔ value?.bind Instant.ofMicroseconds? = some time := by
  unfold readStamp
  cases value?.bind Instant.ofMicroseconds? <;> simp

theorem Row.columns_eq_ok_iff {c : Columns} : row.columns = .ok c ↔
    row.payload = c.payload ∧ row.attempts = c.attempts.toNat ∧ row.reservedAt = c.reservedAt ∧
      row.createdAt.bind Instant.ofMicroseconds? = some c.createdAt ∧
      row.updatedAt.bind Instant.ofMicroseconds? = some c.updatedAt := by
  rw [← readAttempts_eq_ok_iff, ← readStamp_eq_ok_iff "created_at",
    ← readStamp_eq_ok_iff "updated_at"]
  cases c
  cases attempts : readAttempts row.attempts <;>
    cases created : readStamp "created_at" row.createdAt <;>
    cases updated : readStamp "updated_at" row.updatedAt <;>
    simp [columns, attempts, created, updated, bind, Except.bind, pure, Except.pure]

theorem Row.record_eq_ok_iff {id collection : String} {r : Record} :
    row.record id collection = .ok r ↔ r.id = id ∧ r.collection = collection ∧
      row.payload = r.payload ∧ row.attempts = r.attempts.toNat ∧
      readReservation row.reservedAt = .ok r.reservedAt ∧
      row.createdAt.bind Instant.ofMicroseconds? = some r.createdAt ∧
      row.updatedAt.bind Instant.ofMicroseconds? = some r.updatedAt := by
  have steps : row.record id collection = .ok r ↔ ∃ c, row.columns = .ok c ∧
      ∃ reservedAt, readReservation c.reservedAt = .ok reservedAt ∧ r = { c with
        id, collection, reservedAt } := by
    cases read : row.columns with
    | error => simp [record, read, bind, Except.bind]
    | ok c =>
      cases reserved : readReservation c.reservedAt <;>
        simp [record, Columns.record, read, reserved, bind, Except.bind, pure, Except.pure, eq_comm]
  simp only [steps, columns_eq_ok_iff]
  constructor
  · rintro ⟨c, ⟨payload, attempts, reserved, created, updated⟩, reservedAt, read, rfl⟩
    exact ⟨rfl, rfl, payload, attempts, reserved ▸ read, created, updated⟩
  · rintro ⟨rfl, rfl, payload, attempts, read, created, updated⟩
    exact ⟨⟨r.payload, r.attempts, row.reservedAt, r.createdAt, r.updatedAt⟩,
      ⟨payload, attempts, rfl, created, updated⟩, r.reservedAt, read, rfl⟩

-- ---------------------------------------------------------------------------
-- Readable rows
-- ---------------------------------------------------------------------------

namespace Row

structure IsReadable (row : Row) : Prop where
  attempts : 0 ≤ row.attempts ∧ row.attempts ≤ 0xFFFFFFFF
  reservedAt : ∃ time?, readReservation row.reservedAt = .ok time?
  createdAt : ∃ time, row.createdAt.bind Instant.ofMicroseconds? = some time
  updatedAt : ∃ time, row.updatedAt.bind Instant.ofMicroseconds? = some time

theorem isReadable_iff (id collection : String) :
    row.IsReadable ↔ ∃ r, row.record id collection = .ok r := by
  constructor
  · rintro ⟨⟨positive, small⟩, ⟨reservedAt, read⟩, ⟨createdAt, created⟩, ⟨updatedAt, updated⟩⟩
    have attempts : row.attempts = (UInt32.ofNat row.attempts.toNat).toNat := by
      rw [UInt32.toNat_ofNat_of_lt' (by rw [UInt32.size]; omega)]
      omega
    exact ⟨⟨id, collection, row.payload, _, reservedAt, createdAt, updatedAt⟩,
      record_eq_ok_iff.mpr ⟨rfl, rfl, rfl, attempts, read, created, updated⟩⟩
  · rintro ⟨r, read⟩
    obtain ⟨-, -, -, attempts, reserved, created, updated⟩ := record_eq_ok_iff.mp read
    have := r.attempts.toNat_lt
    exact ⟨by omega, ⟨_, reserved⟩, ⟨_, created⟩, ⟨_, updated⟩⟩

theorem IsReadable.columns (h : row.IsReadable) : ∃ c, row.columns = .ok c := by
  obtain ⟨r, read⟩ := (isReadable_iff "" "").mp h
  cases columns : row.columns with
  | ok c => exact ⟨c, rfl⟩
  | error => simp [record, columns, bind, Except.bind] at read

theorem IsReadable.attempts_lt (h : row.IsReadable) : row.attempts < maxInteger := by
  have := h.attempts
  simp only [maxInteger]
  omega

def claim (row : Row) (now time : Instant) : Row :=
  { row with reservedAt := reservationText (some time), updatedAt := some now.microseconds }

def fail (row : Row) (time : Instant) : Row :=
  { row with
    attempts := row.attempts + 1, reservedAt := "", updatedAt := some time.microseconds }

theorem isReadable_ofRecord {r : Record} : (ofRecord r).IsReadable ↔
    (∀ time ∈ r.reservedAt, time.HasPlainYear) ∧ r.createdAt.IsCounted ∧
      r.updatedAt.IsCounted := by
  rw [Instant.isCounted_iff, Instant.isCounted_iff]
  constructor
  · rintro ⟨-, ⟨_, read⟩, created, updated⟩
    refine ⟨fun time reserved => ?_, created, updated⟩
    rw [ofRecord, reserved] at read
    exact hasPlainYear_of_readReservation read
  · rintro ⟨plain, created, updated⟩
    have small := r.attempts.toNat_lt
    refine ⟨⟨Int.natCast_nonneg _, ?_⟩, ?_, created, updated⟩
    · simp only [ofRecord]
      omega
    · cases reserved : r.reservedAt with
      | none => exact ⟨none, by simp [ofRecord, reserved, reservationText]⟩
      | some time =>
        refine ⟨some time.told, ?_⟩
        rw [ofRecord, reserved]
        exact readReservation_reservationText (plain time reserved)

theorem IsReadable.claim_iff {now : Instant} (h : row.IsReadable) :
    (row.claim now time).IsReadable ↔ time.HasPlainYear ∧ now.IsCounted := by
  rw [Instant.isCounted_iff]
  constructor
  · rintro ⟨-, ⟨_, read⟩, -, updated⟩
    exact ⟨hasPlainYear_of_readReservation read, updated⟩
  · rintro ⟨plain, updated⟩
    exact ⟨h.attempts, ⟨_, readReservation_reservationText plain⟩, h.createdAt, updated⟩

theorem IsReadable.fail_iff (h : row.IsReadable) :
    (row.fail time).IsReadable ↔ row.attempts < 0xFFFFFFFF ∧ time.IsCounted := by
  have positive := h.attempts.1
  rw [Instant.isCounted_iff]
  constructor
  · rintro ⟨⟨_, small⟩, -, -, updated⟩
    simp only [fail] at small
    exact ⟨by omega, updated⟩
  · rintro ⟨small, updated⟩
    exact ⟨⟨by simp only [fail]; omega, by simp only [fail]; omega⟩, ⟨none, rfl⟩, h.createdAt,
      updated⟩

end Row

end JobQueue.Database
