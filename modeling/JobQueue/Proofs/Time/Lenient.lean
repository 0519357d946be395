import JobQueue.Proofs.Time.Stamp
import Mathlib.Data.List.TakeWhile

/-!
# The lenient reader reads every stamp

A stamp of the shortest precision loses nothing of the instant that it shows, whatever its year and
within a leap second too: the lenient reader finds that instant again (`ofText?_stamp`).
-/

namespace JobQueue.Time

variable {width n : Nat} {cs rest : List Char} {c : Char}

-- ---------------------------------------------------------------------------
-- Numbers
-- ---------------------------------------------------------------------------

theorem isBlank_of_isDigit (digit : c.isDigit = true) : Text.isBlank c = false := by
  have bounds := toNat_of_isDigit digit
  simp only [Text.isBlank, Text.blankRanges, List.any_cons, List.any_nil, Bool.or_eq_false_iff,
    Bool.and_eq_false_iff, decide_eq_false_iff_not, and_true]
  omega

theorem trimFront_cons (solid : Text.isBlank c = false) : Text.trimFront (c :: rest) = c :: rest :=
  List.dropWhile_cons_of_neg (by simp [solid])

theorem trimFront_padded : Text.trimFront (padded width n ++ rest) = padded width n ++ rest := by
  obtain ⟨c, cs, digits, first⟩ := exists_padded width n
  rw [digits, List.cons_append, trimFront_cons (isBlank_of_isDigit first)]

theorem looseNumber?_padded (positive : 0 < width) (h : n < 10 ^ width) :
    looseNumber? width (padded width n ++ rest) = some (n, rest) := by
  have length := length_padded positive h
  have taken : (padded width n).takeWhile Char.isDigit = padded width n :=
    List.takeWhile_eq_self_iff.mpr fun _ => isDigit_of_mem_padded
  rw [looseNumber?, trimFront_padded]
  simp only [List.take_left' length, taken, isEmpty_padded, Bool.false_eq_true, if_false,
    numberOfDigits_padded, List.drop_left' rfl]

theorem looseChar?_cons (solid : Text.isBlank c = false) :
    looseChar? c (c :: rest) = some rest := by
  rw [looseChar?, trimFront_cons solid]
  exact if_pos rfl

/-- A year is read with its sign, if it is written with one. -/
theorem looseYear?_yearText (year : Int) :
    looseYear? (yearText year ++ '-' :: rest) = some (year, '-' :: rest) := by
  have taken : (padded 4 year.natAbs ++ '-' :: rest).takeWhile Char.isDigit =
      padded 4 year.natAbs := takeWhile_padded rfl
  have dropped : (padded 4 year.natAbs ++ '-' :: rest).dropWhile Char.isDigit = '-' :: rest :=
    dropWhile_padded rfl
  unfold yearText
  split
  · next plain =>
    have read : looseNumber? 4 (padded 4 year.toNat ++ '-' :: rest) =
        some (year.toNat, '-' :: rest) := looseNumber?_padded (by decide) (by omega)
    have value : (year.toNat : Int) = year := Int.toNat_of_nonneg plain.1
    obtain ⟨c, cs, written, first⟩ := exists_padded 4 year.toNat
    rw [looseYear?, trimFront_padded]
    rw [written, List.cons_append] at read ⊢
    split
    · next same => cases same; cases first
    · next same => cases same; cases first
    · rw [read, Option.map_some, value]
  · next signed =>
    by_cases negative : year < 0
    · have value : -(year.natAbs : Int) = year := by omega
      rw [if_pos negative, List.cons_append, looseYear?, trimFront_cons (by decide)]
      simp only [taken, dropped, isEmpty_padded, Bool.false_eq_true, if_false,
        numberOfDigits_padded, Option.map_some, value]
    · have value : (year.natAbs : Int) = year := by omega
      rw [if_neg negative, List.cons_append, looseYear?, trimFront_cons (by decide)]
      simp only [taken, dropped, isEmpty_padded, Bool.false_eq_true, if_false,
        numberOfDigits_padded, Option.map_some, value]

-- ---------------------------------------------------------------------------
-- Fractions
-- ---------------------------------------------------------------------------

inductive IsFraction (nano : Nat) : List Char → Prop
  | whole (none : nano = 0) : IsFraction nano []
  | digits {width n : Nat} (positive : 0 < width) (short : width ≤ 9) (fits : n < 10 ^ width)
      (value : n * 10 ^ (9 - width) = nano) : IsFraction nano ('.' :: padded width n)

theorem isFraction_fractionText (h : n < 1000000000) :
    IsFraction n (fractionText .shortest n) := by
  unfold fractionText
  dsimp only
  split
  · next none => exact .whole none
  · split
    · exact .digits (by decide) (by decide) (by omega) (by omega)
    · split
      · exact .digits (by decide) (by decide) (by omega) (by omega)
      · exact .digits (by decide) (by decide) h (Nat.mul_one n)

namespace Instant

variable {t : Instant}

theorem ofText?_fields {year : Int} {month day hour minute second nano : Nat}
    {fraction : List Char} (hmonth : month < 10 ^ 2) (hday : day < 10 ^ 2) (hhour : hour < 10 ^ 2)
    (hminute : minute < 10 ^ 2) (hsecond : second < 10 ^ 2) (part : IsFraction nano fraction)
    (clock : ofClock? ⟨year, month, day⟩ hour minute second nano 0 = some t) :
    ofText? (String.ofList (yearText year ++ '-' :: (padded 2 month ++ '-' :: (padded 2 day ++
      'T' :: (padded 2 hour ++ ':' :: (padded 2 minute ++ ':' :: (padded 2 second ++
        (fraction ++ ['Z'])))))))) = some t := by
  have two {n : Nat} {rest : List Char} (hn : n < 10 ^ 2) :
      looseNumber? 2 (padded 2 n ++ rest) = some (n, rest) :=
    looseNumber?_padded (by decide) hn
  have dash {rest : List Char} : looseChar? '-' ('-' :: rest) = some rest :=
    looseChar?_cons (by decide)
  have colon {rest : List Char} : looseChar? ':' (':' :: rest) = some rest :=
    looseChar?_cons (by decide)
  have zoned : looseZone? ['Z'] = some (0, []) := by decide
  have long : 0 < daySeconds := by decide
  have ended : Text.trimFront [] = [] := rfl
  simp only [ofText?, String.toList_ofList, bind, Option.bind, looseYear?_yearText, dash, colon,
    two hmonth, two hday, two hhour, two hminute, two hsecond]
  cases part with
  | whole none =>
    subst none
    simp [zoned, long, ended, clock]
  | digits positive short fits value =>
    simp [nanoseconds_padded positive short fits, value, Except.toOption, zoned, long, ended, clock]

/-- Every stamp is read as the instant that it shows. -/
theorem ofText?_stamp (t : Instant) : ofText? t.stamp = some t.shown := by
  have valid : t.date.Valid := Date.valid_ofDays _
  obtain ⟨_, month, _, day⟩ := id valid
  have short := monthLength_le t.date.year month
  have bounds := t.secondOfDay_bounds
  have shown := t.shownSecond_lt
  have nano : t.nano % Span.perSecond < 1000000000 := Nat.mod_lt _ (by decide)
  have text : t.stampChars .shortest = yearText t.date.year ++ '-' :: (padded 2 t.date.month ++
      '-' :: (padded 2 t.date.day ++ 'T' :: (padded 2 (t.secondOfDay.toNat / 3600) ++
        ':' :: (padded 2 (t.secondOfDay.toNat / 60 % 60) ++ ':' :: (padded 2 t.shownSecond ++
          (fractionText .shortest (t.nano % Span.perSecond) ++ ['Z'])))))) := by
    simp [stampChars, dateText, clockText, shownSecond]
  rw [stamp, text]
  exact ofText?_fields (by omega) (by omega) (by omega) (by omega) (by omega)
    (isFraction_fractionText nano) ofClock?_shown

end Instant

end JobQueue.Time
