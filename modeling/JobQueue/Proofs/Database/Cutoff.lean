import JobQueue.Proofs.Database.Row
import JobQueue.Database.Table
import JobQueue.Proofs.Time.Window

/-!
# Reservations as texts

Plain times are those that a table keeps as they are: whole microseconds of the years 0000 to 9999,
outside leap seconds. Their reservations are equal texts exactly if they are equal, and no later a
text than the cutoff's exactly if the window has passed, also where the cutoff is before the year 0
or before the earliest instant that there is. The present need not be a whole microsecond for that:
what the text of the cutoff leaves out is less than one, and reservations have no such part.
-/

namespace JobQueue.Database

open Time (Instant Span)

variable {now time : Instant} {window : Span}

theorem readReservation_of_isPlain {time? : Option Instant} (h : ∀ time ∈ time?, time.IsPlain) :
    readReservation (reservationText time?) = .ok time? := by
  cases time? with
  | none => rfl
  | some time =>
    have plain := h time rfl
    rw [readReservation_reservationText plain.year, plain.told_eq]

theorem reservationText_inj {time? other? : Option Instant} (h : ∀ time ∈ time?, time.IsPlain)
    (h' : ∀ time ∈ other?, time.IsPlain) :
    reservationText time? = reservationText other? ↔ time? = other? := by
  constructor
  · intro same
    have read := readReservation_of_isPlain h
    rw [same, readReservation_of_isPlain h'] at read
    exact (Except.ok.inj read).symm
  · exact congrArg reservationText

theorem reservationText_le_iff {bound : Instant} (h : time.IsPlain)
    (year : bound.date.year ≤ 9999) (regular : bound.isLeapSecond = false) :
    reservationText (some time) ≤ reservationText (some bound) ↔
      time.toNanoseconds ≤ bound.toNanoseconds := by
  have short := Instant.nano_lt_second h.regular
  have short' := Instant.nano_lt_second regular
  have whole := h.whole
  rw [← String.not_lt, reservationText, reservationText, String.lt_iff_toList_lt,
    String.toList_ofList, String.toList_ofList,
    Instant.stampChars_lt_iff year h.year regular h.regular]
  simp only [Instant.microseconds, Instant.toNanoseconds, Span.perSecond]
  omega

/-- A reservation is no later a text than the cutoff exactly if it is as old as the window. -/
theorem reservationText_le_cutoff_iff (h : time.IsPlain) (present : now.HasPlainYear)
    (steady : now.isLeapSecond = false) :
    reservationText (some time) ≤ reservationText (some (Table.cutoff now window)) ↔
      window.capped.nanoseconds ≤ now.since time := by
  have since := Instant.since_eq steady h.regular
  cases earlier : now.before? window.capped with
  | some bound =>
    obtain ⟨regular, difference⟩ := Instant.of_before?_eq_some steady earlier
    have seconds : bound.second ≤ now.second := by
      have := Instant.nano_lt_second steady
      simp only [Instant.toNanoseconds, Span.perSecond] at difference
      omega
    have year := Int.le_trans (Instant.year_le seconds) present.2
    rw [Table.cutoff, earlier, Option.getD_some, reservationText_le_iff h year regular]
    omega
  | none =>
    have outside := Instant.of_before?_eq_none steady earlier
    -- the cutoff is before the year 0, and the reservation is not
    have later : Instant.earliest.toNanoseconds < time.toNanoseconds := by
      have seconds : Instant.earliest.second < time.second := by
        by_contra first
        have year := Instant.year_le (Int.not_lt.mp first)
        have before : Instant.earliest.date.year < 0 := by decide +kernel
        have := h.year.1
        omega
      simp only [Instant.toNanoseconds, Instant.earliest, Span.perSecond] at seconds ⊢
      omega
    rw [Table.cutoff, earlier, Option.getD_none,
      reservationText_le_iff h (by decide +kernel) (by decide)]
    omega

end JobQueue.Database
