import JobQueue.Proofs.Database.Claims
import JobQueue.Proofs.Text.Bytes
import JobQueue.Proofs.Time.Window

/-!
# Reservations in order

A table knows reservations only as texts. Those of the years 0000 to 9999 are 27 bytes each, compare
byte by byte as the instants do that they show, and are read back; a microsecond is as much as they
tell, and a leap second at the end of a minute stands between the seconds around it
(`reservationText_keeps_order`). A leap second within a minute has the text of the second after it,
so it is read back as another instant and may come after one that is later.
-/

namespace JobQueue

namespace Time

theorem utf8Size_of_isDigit {c : Char} (digit : c.isDigit = true) : c.utf8Size = 1 := by
  have bounds := toNat_of_isDigit digit
  rw [Char.utf8Size_eq_one_iff, UInt32.le_iff_toNat_le]
  exact Nat.le_trans bounds.2 (by decide)

namespace Instant

variable {t u : Instant}

theorem told_lt_iff : t.told < u.told ↔ t.shown.second < u.shown.second ∨
    t.shown.second = u.shown.second ∧ t.shown.nano / 1000 < u.shown.nano / 1000 := by
  rw [lt_iff]
  simp only [told, cut]
  omega

theorem told_lt_trichotomy (t u : Instant) :
    t.told < u.told ∨ t.told = u.told ∨ u.told < t.told := by
  rw [lt_iff, lt_iff, eq_iff]
  omega

/-- The fields of a stamp have widths of their own, whatever the instant. -/
theorem length_stampChars (h : t.HasPlainYear) : (t.stampChars .micros).length = 27 := by
  obtain ⟨_, month, _, day⟩ : t.date.Valid := Date.valid_ofDays _
  have short := monthLength_le t.date.year month
  have bounds := t.secondOfDay_bounds
  have shown := t.shownSecond_lt
  have year := h.2
  have nano : t.nano % Span.perSecond / 1000 < 10 ^ 6 := by
    simp only [Span.perSecond]
    omega
  rw [stampChars_eq h, clockText_eq]
  simp only [List.length_append, List.length_cons, List.length_nil,
    length_padded (show 0 < 4 by decide) (show t.date.year.toNat < 10 ^ 4 by omega),
    length_padded (show 0 < 2 by decide) (show t.date.month < 10 ^ 2 by omega),
    length_padded (show 0 < 2 by decide) (show t.date.day < 10 ^ 2 by omega),
    length_padded (show 0 < 2 by decide) (show t.secondOfDay.toNat / 3600 < 10 ^ 2 by omega),
    length_padded (show 0 < 2 by decide) (show t.secondOfDay.toNat / 60 % 60 < 10 ^ 2 by omega),
    length_padded (show 0 < 2 by decide) (show t.shownSecond < 10 ^ 2 by omega),
    length_padded (show 0 < 6 by decide) nano]

theorem utf8Size_of_mem_stampChars (h : t.HasPlainYear) :
    ∀ c ∈ t.stampChars .micros, c.utf8Size = 1 := by
  have digits {width n : Nat} : ∀ c ∈ padded width n, c.utf8Size = 1 :=
    fun _ its => utf8Size_of_isDigit (isDigit_of_mem_padded its)
  rw [stampChars_eq h, clockText_eq]
  simp only [List.forall_mem_append, List.forall_mem_cons]
  exact ⟨digits, rfl, digits, rfl, digits, rfl, digits, rfl, digits, rfl, digits, rfl, digits, rfl,
    nofun⟩

end Instant

end Time

namespace Database

open Time (Instant)

variable {x y : Instant}

theorem bytes_reservationText (h : x.HasPlainYear) :
    (Text.bytes (reservationText (some x))).length = 27 := by
  rw [Text.length_bytes]
  · rw [reservationText, String.toList_ofList, Instant.length_stampChars h]
  · intro c member
    rw [reservationText, String.toList_ofList] at member
    exact Instant.utf8Size_of_mem_stampChars h c member

theorem reservationText_lt (hx : x.HasPlainYear) (hy : y.HasPlainYear) (h : x.told < y.told) :
    reservationText (some x) < reservationText (some y) := by
  rw [String.lt_iff_toList_lt, reservationText, reservationText, String.toList_ofList,
    String.toList_ofList, ← x.stampChars_shown, ← y.stampChars_shown]
  exact Instant.stampChars_lt_of_earlier (Instant.hasPlainYear_shown.mpr hx)
    (Instant.hasPlainYear_shown.mpr hy) Instant.isLegible_shown Instant.isLegible_shown
    (Instant.told_lt_iff.mp h)

theorem reservationText_lt_iff (hx : x.HasPlainYear) (hy : y.HasPlainYear) :
    reservationText (some x) < reservationText (some y) ↔ x.told < y.told := by
  refine ⟨fun less => ?_, reservationText_lt hx hy⟩
  rcases Instant.told_lt_trichotomy x y with before | same | after
  · exact before
  · have same : reservationText (some x) = reservationText (some y) := by
      rw [← reservationText_told, Option.map_some, same, ← Option.map_some, reservationText_told]
    exact absurd (same ▸ less) (String.lt_irrefl _)
  · exact absurd less (String.lt_asymm (reservationText_lt hy hx after))

theorem empty_lt_reservationText : reservationText none < reservationText (some x) := by
  have filled : (reservationText (some x)).toList ≠ [] :=
    fun none => reservationText_ne_empty (String.toList_eq_nil_iff.mp none)
  obtain ⟨c, cs, text⟩ := List.exists_cons_of_ne_nil filled
  rw [String.lt_iff_toList_lt, text]
  exact List.nil_lt_cons _ _

/-- Reservations of the years 0000 to 9999 compare as bytes exactly as what they tell of the
instants: of all but a leap second within a minute, that is the instant rounded down to a
microsecond. Their texts are of one length and come after the text of no reservation. Each is read
back as what it tells, whose text it is as well. -/
theorem reservationText_keeps_order (x y : Instant) (hx : x.HasPlainYear) (hy : y.HasPlainYear) :
    ((Text.bytes (reservationText (some x)) < Text.bytes (reservationText (some y)) ↔
        x.told < y.told) ∧
      (Text.bytes (reservationText (some x)) = Text.bytes (reservationText (some y)) ↔
        x.told = y.told) ∧
      (Text.bytes (reservationText (some y)) < Text.bytes (reservationText (some x)) ↔
        y.told < x.told)) ∧
    (x.told = x.cut ↔ x.IsLegible) ∧
    (Text.bytes (reservationText (some x))).length = 27 ∧
    Text.bytes (reservationText none) < Text.bytes (reservationText (some x)) ∧
    readReservation (reservationText (some x)) = .ok (some x.told) ∧
    reservationText (some x.told) = reservationText (some x) := by
  refine ⟨⟨?_, ?_, ?_⟩, Instant.told_eq_cut_iff, bytes_reservationText hx, ?_,
    readReservation_reservationText hx, ?_⟩
  · rw [Text.bytes_lt_iff, reservationText_lt_iff hx hy]
  · have plain : ∀ time ∈ some y, time.HasPlainYear := by
      rintro time ⟨⟩
      exact hy
    rw [Text.bytes_inj, reservationText_eq_iff plain, Option.map_some, Option.map_some,
      Option.some.injEq]
  · rw [Text.bytes_lt_iff, reservationText_lt_iff hy hx]
  · exact Text.bytes_lt_iff.mpr empty_lt_reservationText
  · have same : reservationText ((some x).map Instant.told) = reservationText (some x) :=
      reservationText_told
    exact same

/-- Half a microsecond before the end of the leap second of 2016. -/
def leapSecondEnd : Instant := ⟨1483228799, 1999999500, by decide, by decide, by decide⟩

/-- A microsecond after the beginning of 2017. -/
def newYear : Instant := ⟨1483228800, 1000, by decide, by decide, by decide⟩

theorem reservationText_keeps_order_leapSecond :
    leapSecondEnd.HasPlainYear ∧ newYear.HasPlainYear ∧ leapSecondEnd.told = leapSecondEnd.cut ∧
      reservationText (some leapSecondEnd) = "2016-12-31T23:59:60.999999Z" ∧
      Text.bytes (reservationText (some leapSecondEnd)) <
        Text.bytes (reservationText (some newYear)) ∧
      leapSecondEnd.microseconds = newYear.microseconds + 999998 := by
  have leap : leapSecondEnd.HasPlainYear := by decide +kernel
  have after : newYear.HasPlainYear := by decide +kernel
  obtain ⟨⟨order, -⟩, told, -⟩ := reservationText_keeps_order leapSecondEnd newYear leap after
  exact ⟨leap, after, told.mpr (by decide), by decide +kernel, order.mpr (by decide), by decide⟩

/-- A leap second within a minute comes before the second after it, but its text does not, and is
read back as a later instant. -/
theorem not_reservationText_keeps_order_strayLeapSecond :
    (¬∀ x y : Instant, x.HasPlainYear → y.HasPlainYear →
      (Text.bytes (reservationText (some x)) < Text.bytes (reservationText (some y)) ↔
        x.cut < y.cut)) ∧
    ¬∀ x : Instant, x.HasPlainYear →
      readReservation (reservationText (some x)) = .ok (some x.cut) := by
  have plain : Instant.strayLeapSecond.HasPlainYear := by decide +kernel
  constructor
  · intro order
    have less := (order .strayLeapSecond (.ofSecond 86165) plain (by decide +kernel)).mpr (by decide)
    exact absurd less (by decide +kernel)
  · intro exact_
    have read := exact_ .strayLeapSecond plain
    rw [readReservation_reservationText plain] at read
    have same : Instant.strayLeapSecond.told = Instant.strayLeapSecond.cut :=
      Option.some.inj (Except.ok.inj read)
    exact absurd (Instant.told_eq_cut_iff.mp same) (by decide)

end Database

end JobQueue
