import JobQueue.Proofs.Time.Calendar
import JobQueue.Proofs.Time.Digits

/-!
# Stamps are read as they were written

A stamp shows the instant that it was written for, but for a leap second that does not end a minute:
that one has the stamp of the second after it (`stampChars_shown`). A stamp with six digits of a
second and four of a year is read as the instant that it shows, rounded down to a microsecond
(`ofStamp?_stampChars`); one whose year has a sign is not read at all. Such texts compare as the
instants do that they show, when they are rounded down (`stampChars_lt_of_earlier`), which outside
leap seconds is as their counts of microseconds do (`stampChars_lt`), and a year before the year 0
comes before them all.
-/

namespace JobQueue.Time

namespace Instant

variable {t u : Instant}

def HasPlainYear (t : Instant) : Prop := 0 ≤ t.date.year ∧ t.date.year ≤ 9999

instance : Decidable t.HasPlainYear := inferInstanceAs (Decidable (_ ∧ _))

def cut (t : Instant) : Instant :=
  { t with
    nano := t.nano / 1000 * 1000
    nano_lt := Nat.lt_of_le_of_lt (Nat.div_mul_le_self _ _) t.nano_lt }

/-- Whether the instant is no leap second but one that ends a minute. -/
def IsLegible (t : Instant) : Prop := t.isLeapSecond = true → t.second % 60 = 59

instance : Decidable t.IsLegible := inferInstanceAs (Decidable (_ → _))

theorem second_lt_lastSecond (h : t.second % 60 ≠ 59) : t.second < lastSecond := by
  have last : lastSecond % 60 = 59 := by decide
  exact Int.lt_iff_le_and_ne.mpr ⟨t.le_last, fun same => h (same ▸ last)⟩

theorem second_mod_of_not_isLegible (h : ¬t.IsLegible) : t.second % 60 ≠ 59 :=
  fun last => h fun _ => last

/-- The instant that a stamp shows: nothing but the end of a minute is shown as a leap second. -/
def shown (t : Instant) : Instant :=
  if h : t.IsLegible then t
  else
    { second := t.second + 1
      nano := t.nano - Span.perSecond
      first_le := Int.le_trans t.first_le (Int.le_add_one (Int.le_refl _))
      le_last := second_lt_lastSecond (second_mod_of_not_isLegible h)
      nano_lt := Nat.lt_of_le_of_lt (Nat.sub_le _ _) t.nano_lt }

/-- What a stamp of six digits tells of an instant. -/
def told (t : Instant) : Instant := t.shown.cut

def shownSecond (t : Instant) : Nat :=
  t.secondOfDay.toNat % 60 + (if t.isLeapSecond then 1 else 0)

-- ---------------------------------------------------------------------------
-- What a stamp shows
-- ---------------------------------------------------------------------------

theorem isLegible_of_plain (plain : t.isLeapSecond = false) : t.IsLegible := by
  simp [IsLegible, plain]

theorem shown_of_isLegible (h : t.IsLegible) : t.shown = t := dif_pos h

theorem shown_cases : t.IsLegible ∧ t.shown = t ∨
    1000000000 ≤ t.nano ∧ t.second % 60 ≠ 59 ∧ t.shown.second = t.second + 1 ∧
      t.shown.nano = t.nano - 1000000000 := by
  by_cases legible : t.IsLegible
  · exact .inl ⟨legible, shown_of_isLegible legible⟩
  · have leap : t.isLeapSecond = true := by
      by_contra plain
      exact legible fun leap => absurd leap plain
    refine .inr ⟨of_decide_eq_true leap, second_mod_of_not_isLegible legible, ?_⟩
    rw [shown, dif_neg legible]
    exact ⟨rfl, rfl⟩

theorem shown_eq_self_iff : t.shown = t ↔ t.IsLegible := by
  refine ⟨fun same => ?_, shown_of_isLegible⟩
  rcases t.shown_cases with ⟨legible, _⟩ | ⟨_, _, second, _⟩
  · exact legible
  · rw [same] at second
    omega

/-- A third into a leap second that follows the fourth second of a minute. -/
def strayLeapSecond : Instant := ⟨86164, 1333333333, by decide, by decide, by decide⟩

example : strayLeapSecond.shown = ⟨86165, 333333333, by decide, by decide, by decide⟩ := by decide

theorem isLegible_shown : t.shown.IsLegible := by
  rcases t.shown_cases with ⟨legible, same⟩ | ⟨_, _, _, nano⟩
  · exact same.symm ▸ legible
  · refine isLegible_of_plain (decide_eq_false ?_)
    have := t.nano_lt
    simp only [Span.perSecond] at this ⊢
    omega

theorem secondOfDay_bounds : 0 ≤ t.secondOfDay ∧ t.secondOfDay < 86400 := by
  unfold secondOfDay daySeconds
  omega

theorem date_shown : t.shown.date = t.date := by
  rcases t.shown_cases with ⟨_, same⟩ | ⟨_, within, second, _⟩
  · rw [same]
  · have day : (t.second + 1) / daySeconds = t.second / daySeconds := by
      unfold daySeconds
      omega
    rw [date, date, second, day]

/-- The fields of a clock are those of the instant that it shows. -/
theorem clock_shown : t.shown.secondOfDay.toNat / 3600 = t.secondOfDay.toNat / 3600 ∧
    t.shown.secondOfDay.toNat / 60 % 60 = t.secondOfDay.toNat / 60 % 60 ∧
    t.shown.shownSecond = t.shownSecond ∧
    t.shown.nano % Span.perSecond = t.nano % Span.perSecond := by
  rcases t.shown_cases with ⟨_, same⟩ | ⟨long, within, second, nano⟩
  · rw [same]
    exact ⟨rfl, rfl, rfl, rfl⟩
  · have short := t.nano_lt
    have leap : t.isLeapSecond = true := decide_eq_true long
    have plain : t.shown.isLeapSecond = false := by
      refine decide_eq_false ?_
      simp only [Span.perSecond] at short ⊢
      omega
    have ofDay : t.shown.secondOfDay = t.secondOfDay + 1 := by
      rw [secondOfDay, second]
      unfold secondOfDay daySeconds
      omega
    have inMinute : t.secondOfDay % 60 = t.second % 60 := by
      unfold secondOfDay daySeconds
      omega
    have bounds := t.secondOfDay_bounds
    simp only [shownSecond, leap, plain, ofDay, nano, Span.perSecond, if_true]
    simp only [Bool.false_eq_true, if_false]
    omega

theorem clockText_eq_shownSecond (p : Precision) : t.clockText p =
    padded 2 (t.secondOfDay.toNat / 3600) ++ ':' :: padded 2 (t.secondOfDay.toNat / 60 % 60) ++
      ':' :: padded 2 t.shownSecond ++ fractionText p (t.nano % Span.perSecond) := rfl

theorem stampChars_shown (p : Precision) : t.shown.stampChars p = t.stampChars p := by
  obtain ⟨hour, minute, second, nano⟩ := t.clock_shown
  simp only [stampChars, dateText, clockText_eq_shownSecond, date_shown, hour, minute, second, nano]

theorem hasPlainYear_shown : t.shown.HasPlainYear ↔ t.HasPlainYear := by
  rw [HasPlainYear, date_shown, HasPlainYear]

-- ---------------------------------------------------------------------------
-- Reading
-- ---------------------------------------------------------------------------

theorem stampChars_eq (h : t.HasPlainYear) : t.stampChars .micros =
    padded 4 t.date.year.toNat ++ '-' :: (padded 2 t.date.month ++ '-' :: (padded 2 t.date.day ++
      'T' :: (t.clockText .micros ++ ['Z']))) := by
  rw [HasPlainYear] at h
  simp [stampChars, dateText, yearText, h]

theorem clockText_eq : t.clockText .micros ++ ['Z'] = padded 2 (t.secondOfDay.toNat / 3600) ++
    ':' :: (padded 2 (t.secondOfDay.toNat / 60 % 60) ++ ':' :: (padded 2 t.shownSecond ++
      '.' :: (padded 6 (t.nano % Span.perSecond / 1000) ++ ['Z']))) := by
  simp [clockText, fractionText, shownSecond]

theorem nanoseconds_padded {width f : Nat} {rest : List Char} (positive : 0 < width)
    (short : width ≤ 9) (h : f < 10 ^ width) :
    nanoseconds (padded width f ++ 'Z' :: rest) = .ok (f * 10 ^ (9 - width), 'Z' :: rest) := by
  have length := length_padded positive h
  have all : (padded width f).take 9 = padded width f := List.take_of_length_le (by omega)
  simp only [nanoseconds, takeWhile_padded (c := 'Z') rfl, dropWhile_padded (c := 'Z') rfl, all,
    isEmpty_padded, numberOfDigits_padded, length]
  cases text : padded width f ++ 'Z' :: rest with
  | nil => simp at text
  | cons c rest => rfl

theorem length_le_utf8ByteSize (cs : List Char) :
    cs.length ≤ (String.ofList cs).utf8ByteSize := by
  rw [String.utf8ByteSize_ofList]
  induction cs with
  | nil => exact Nat.zero_le _
  | cons c cs ih =>
    have := c.utf8Size_pos
    rw [List.length_cons, String.utf8Len_cons]
    omega

theorem ofStamp?_fields {y mo d h mi sec f : Nat} (hy : y < 10 ^ 4) (hmo : mo < 10 ^ 2)
    (hd : d < 10 ^ 2) (hh : h < 24) (hmi : mi < 60) (hs : sec < 61) (hf : f < 10 ^ 6)
    (valid : (Date.mk y mo d).Valid) (clock : ofClock? ⟨y, mo, d⟩ h mi sec (f * 1000) 0 = some t) :
    ofStamp? (String.ofList (padded 4 y ++ '-' :: (padded 2 mo ++ '-' :: (padded 2 d ++
      'T' :: (padded 2 h ++ ':' :: (padded 2 mi ++ ':' :: (padded 2 sec ++
        '.' :: (padded 6 f ++ ['Z'])))))))) = .ok t := by
  have two {n : Nat} {rest : List Char} (hn : n < 10 ^ 2) :
      fixedNumber 2 (padded 2 n ++ rest) = .ok (n, rest) := fixedNumber_padded (by decide) hn
  have exact_ {c : Char} {rest : List Char} : exactChar c (c :: rest) = .ok rest := by
    simp [exactChar]
  have long : ¬ (String.ofList (padded 4 y ++ '-' :: (padded 2 mo ++ '-' :: (padded 2 d ++
      'T' :: (padded 2 h ++ ':' :: (padded 2 mi ++ ':' :: (padded 2 sec ++
        '.' :: (padded 6 f ++ ['Z'])))))))).utf8ByteSize < stampWidth := by
    apply Nat.not_lt_of_le
    refine Nat.le_trans ?_ (length_le_utf8ByteSize _)
    simp only [List.length_append, List.length_cons, List.length_nil, stampWidth,
      length_padded (show 0 < 4 by decide) hy, length_padded (show 0 < 2 by decide) hmo,
      length_padded (show 0 < 2 by decide) hd,
      length_padded (show 0 < 2 by decide) (show h < 10 ^ 2 by omega),
      length_padded (show 0 < 2 by decide) (show mi < 10 ^ 2 by omega)]
    omega
  simp only [ofStamp?, if_neg long, String.toList_ofList, bind, Except.bind,
    fixedNumber_padded (show 0 < 4 by decide) hy, exact_, two hmo, two hd, valid, not_true_eq_false,
    if_false, two (show h < 10 ^ 2 by omega), two (show mi < 10 ^ 2 by omega),
    two (show sec < 10 ^ 2 by omega), nanoseconds_padded (show 0 < 6 by decide) (by decide) hf]
  have inRange : ¬ (24 ≤ h ∨ 60 ≤ mi ∨ 61 ≤ sec) := by omega
  have zoned : zone (exactChar ':') ['Z'] = .ok (0, []) := rfl
  simp [inRange, zoned, clock, show ¬ daySeconds ≤ 0 by decide]

theorem shownSecond_cases (legible : t.IsLegible) :
    t.isLeapSecond = true ∧ t.shownSecond = 60 ∧ t.secondOfDay.toNat % 60 = 59 ∨
      t.isLeapSecond = false ∧ t.shownSecond = t.secondOfDay.toNat % 60 := by
  cases leap : t.isLeapSecond with
  | false => exact .inr ⟨rfl, by simp [shownSecond, leap]⟩
  | true =>
    have last := legible leap
    have ofDay : t.secondOfDay.toNat % 60 = 59 := by
      unfold secondOfDay daySeconds
      omega
    exact .inl ⟨rfl, by simp [shownSecond, leap, ofDay], ofDay⟩

theorem shownSecond_lt : t.shownSecond < 61 := by
  unfold shownSecond
  split <;> omega

theorem shownSecond_cases_nano (legible : t.IsLegible) :
    1000000000 ≤ t.nano ∧ t.nano < 2000000000 ∧ t.shownSecond = 60 ∧
        t.secondOfDay.toNat % 60 = 59 ∨
      t.nano < 1000000000 ∧ t.shownSecond = t.secondOfDay.toNat % 60 := by
  rcases shownSecond_cases legible with ⟨leap, shown, last⟩ | ⟨plain, shown⟩
  · exact .inl ⟨of_decide_eq_true leap, t.nano_lt, shown, last⟩
  · exact .inr ⟨Nat.lt_of_not_le (of_decide_eq_false plain), shown⟩

theorem ofParts?_self : ofParts? t.second t.nano = some t :=
  dif_pos ⟨t.first_le, t.le_last, t.nano_lt⟩

/-- The date and the time of day that a stamp shows are those of the instant. -/
theorem ofClock?_of_isLegible (legible : t.IsLegible) : ofClock? t.date (t.secondOfDay.toNat / 3600)
    (t.secondOfDay.toNat / 60 % 60) t.shownSecond (t.nano % Span.perSecond) 0 = some t := by
  have days : t.date.toDays = t.second / daySeconds + epochDay := Date.toDays_ofDays _
  have bounds := t.secondOfDay_bounds
  have ofDay : t.second = t.second / daySeconds * daySeconds + t.secondOfDay := by
    unfold secondOfDay daySeconds
    omega
  have valid : t.date.Valid ∧ t.secondOfDay.toNat / 3600 < 24 ∧ t.secondOfDay.toNat / 60 % 60 < 60 ∧
      t.shownSecond ≤ 60 :=
    ⟨Date.valid_ofDays _, by omega, by omega, Nat.le_of_lt_succ shownSecond_lt⟩
  have nano_lt := t.nano_lt
  have counted (s : Nat) (hs : s = t.secondOfDay.toNat % 60) :
      (t.date.toDays - epochDay) * daySeconds + (t.secondOfDay.toNat / 3600 : Nat) * 3600 +
        (t.secondOfDay.toNat / 60 % 60 : Nat) * 60 + (s : Int) = t.second := by
    rw [days, Int.add_sub_cancel]
    omega
  simp only [ofClock?, if_pos valid]
  rcases shownSecond_cases legible with ⟨leap, shown, last⟩ | ⟨plain, shown⟩
  · have nano : t.nano % Span.perSecond + Span.perSecond = t.nano := by
      have := of_decide_eq_true leap
      simp only [Span.perSecond] at this nano_lt ⊢
      omega
    rw [if_pos shown, if_pos shown, counted 59 last.symm, nano, ofParts?_self]
    simpa using ofParts?_self
  · have nano : t.nano % Span.perSecond = t.nano := Nat.mod_eq_of_lt (by
      have := of_decide_eq_false plain
      omega)
    have other : t.shownSecond ≠ 60 := by omega
    rw [if_neg other, if_neg other, counted _ shown, nano, ofParts?_self]
    simpa using ofParts?_self

theorem ofClock?_shown : ofClock? t.date (t.secondOfDay.toNat / 3600)
    (t.secondOfDay.toNat / 60 % 60) t.shownSecond (t.nano % Span.perSecond) 0 = some t.shown := by
  obtain ⟨hour, minute, second, nano⟩ := t.clock_shown
  rw [← date_shown, ← hour, ← minute, ← second, ← nano]
  exact ofClock?_of_isLegible isLegible_shown

theorem isLeapSecond_cut : t.cut.isLeapSecond = t.isLeapSecond := by
  have same : Span.perSecond ≤ t.nano / 1000 * 1000 ↔ Span.perSecond ≤ t.nano := by
    simp only [Span.perSecond]
    omega
  simp [isLeapSecond, cut, same]

theorem isLegible_cut : t.cut.IsLegible ↔ t.IsLegible := by
  rw [IsLegible, isLeapSecond_cut, IsLegible]
  exact Iff.rfl

theorem ofClock?_told : ofClock? t.date (t.secondOfDay.toNat / 3600)
    (t.secondOfDay.toNat / 60 % 60) t.shownSecond (t.nano % Span.perSecond / 1000 * 1000) 0 =
      some t.told := by
  obtain ⟨hour, minute, second, nano⟩ := t.clock_shown
  have micros : t.told.nano % Span.perSecond =
      t.shown.nano % Span.perSecond / 1000 * 1000 := by
    simp only [told, cut, Span.perSecond]
    omega
  have same : t.told.shownSecond = t.shown.shownSecond := by
    rw [shownSecond, told, isLeapSecond_cut]
    rfl
  rw [← date_shown, ← hour, ← minute, ← second, ← nano, ← micros, ← same]
  exact ofClock?_of_isLegible (isLegible_cut.mpr isLegible_shown)

/-- A stamp of four digits for the year is read as what it shows, rounded down to a microsecond. -/
theorem ofStamp?_stampChars (h : t.HasPlainYear) :
    ofStamp? (String.ofList (t.stampChars .micros)) = .ok t.told := by
  have valid : t.date.Valid := Date.valid_ofDays _
  obtain ⟨_, month, _, day⟩ := id valid
  have bounds := t.secondOfDay_bounds
  have year : ((t.date.year.toNat : Nat) : Int) = t.date.year := Int.toNat_of_nonneg h.1
  have date : Date.mk (t.date.year.toNat : Nat) t.date.month t.date.day = t.date := by rw [year]
  rw [stampChars_eq h, clockText_eq]
  refine ofStamp?_fields ?_ ?_ ?_ ?_ ?_ shownSecond_lt ?_ ?_ ?_
  · have := h.2
    omega
  · omega
  · have := monthLength_le t.date.year month
    omega
  · omega
  · omega
  · simp only [Span.perSecond]
    omega
  · rw [date]
    exact valid
  · rw [date]
    exact ofClock?_told

theorem exists_stampChars_of_signed (h : ¬ t.HasPlainYear) : ∃ rest,
    t.stampChars .micros = (if t.date.year < 0 then '-' else '+') :: rest := by
  rw [HasPlainYear] at h
  rw [stampChars, dateText, yearText, if_neg h]
  exact ⟨_, rfl⟩

/-- A year that is written with a sign is not read. -/
theorem ofStamp?_of_signed (h : ¬ t.HasPlainYear) :
    ∃ fault, ofStamp? (String.ofList (t.stampChars .micros)) = .error fault := by
  obtain ⟨rest, text⟩ := exists_stampChars_of_signed h
  have sign : (if t.date.year < 0 then '-' else '+').isDigit = false := by split <;> rfl
  simp only [text, ofStamp?, String.toList_ofList, bind, Except.bind,
    fixedNumber_of_not_digit sign (show 0 < 4 by decide)]
  by_cases short : (String.ofList ((if t.date.year < 0 then '-' else '+') :: rest)).utf8ByteSize <
      stampWidth
  · exact ⟨_, if_pos short⟩
  · exact ⟨_, if_neg short⟩

-- ---------------------------------------------------------------------------
-- The order of stamps
-- ---------------------------------------------------------------------------

theorem nano_lt_second (plain : t.isLeapSecond = false) : t.nano < 1000000000 := by
  have := of_decide_eq_false plain
  simpa [Span.perSecond] using this

/-- Outside leap seconds the microseconds are the second and what is left of it. -/
theorem microseconds_eq_iff (ht : t.isLeapSecond = false) (hu : u.isLeapSecond = false) :
    t.microseconds = u.microseconds ↔ t.second = u.second ∧ t.nano / 1000 = u.nano / 1000 := by
  have := nano_lt_second ht
  have := nano_lt_second hu
  unfold microseconds
  omega

theorem microseconds_lt_iff (ht : t.isLeapSecond = false) (hu : u.isLeapSecond = false) :
    t.microseconds < u.microseconds ↔
      t.second < u.second ∨ t.second = u.second ∧ t.nano / 1000 < u.nano / 1000 := by
  have := nano_lt_second ht
  have := nano_lt_second hu
  unfold microseconds
  omega

theorem cut_eq_iff : t.cut = t ↔ t.nano % 1000 = 0 := by
  constructor
  · intro same
    have : t.nano / 1000 * 1000 = t.nano := congrArg nano same
    omega
  · intro whole
    have : t.nano / 1000 * 1000 = t.nano := by omega
    cases t
    simpa [cut] using this

/-- A text of microseconds does not tell more than they do. -/
theorem stampChars_cut : t.cut.stampChars .micros = t.stampChars .micros := by
  have fraction : t.nano / 1000 * 1000 % Span.perSecond / 1000 =
      t.nano % Span.perSecond / 1000 := by
    simp only [Span.perSecond]
    omega
  simp only [stampChars, dateText, clockText, date, secondOfDay, isLeapSecond_cut, fractionText]
  simp only [cut, fraction]

theorem stampChars_told : t.told.stampChars .micros = t.stampChars .micros :=
  stampChars_cut.trans (stampChars_shown .micros)

theorem told_eq_cut_iff : t.told = t.cut ↔ t.IsLegible := by
  refine ⟨fun same => ?_, fun legible => by rw [told, shown_of_isLegible legible]⟩
  rcases t.shown_cases with ⟨legible, _⟩ | ⟨_, _, second, _⟩
  · exact legible
  · have kept : t.told.second = t.cut.second := by rw [same]
    change t.shown.second = t.second at kept
    omega

theorem ofMicroseconds?_microseconds (h : t.isLeapSecond = false) :
    ofMicroseconds? t.microseconds = some t.cut := by
  have := nano_lt_second h
  have second : t.microseconds / 1000000 = t.cut.second := by
    simp only [microseconds, cut]
    omega
  have nano : (t.microseconds % 1000000).toNat * 1000 = t.cut.nano := by
    simp only [microseconds, cut]
    omega
  rw [ofMicroseconds?, second, nano, ofParts?_self]

/-- Only the leap second after the last second is lost when microseconds are counted. -/
theorem ofMicroseconds?_eq_none_iff : ofMicroseconds? t.microseconds = none ↔
    t.isLeapSecond = true ∧ t.second = lastSecond := by
  have first := t.first_le
  have last := t.le_last
  have short := t.nano_lt
  cases leap : t.isLeapSecond with
  | false => simp [ofMicroseconds?_microseconds leap]
  | true =>
    have long : 1000000000 ≤ t.nano := of_decide_eq_true leap
    simp only [Span.perSecond] at short
    have second : t.microseconds / 1000000 = t.second + 1 := by
      unfold microseconds
      omega
    have nano : (t.microseconds % 1000000).toNat * 1000 < 1000000000 := by omega
    have rest : (t.microseconds % 1000000).toNat * 1000 < 2 * Span.perSecond := by
      simp only [Span.perSecond]
      omega
    rw [ofMicroseconds?, second, ofParts?]
    by_cases final : t.second = lastSecond
    · rw [dif_neg fun inside => by omega]
      simp [final]
    · rw [dif_pos ⟨by omega, by omega, rest⟩]
      simp [final]

/-- Whether an instant is told by its microseconds, as all are but a leap second after the last
second. -/
def IsCounted (t : Instant) : Prop := ¬ (t.isLeapSecond = true ∧ t.second = lastSecond)

instance : Decidable t.IsCounted := inferInstanceAs (Decidable (¬ _))

theorem isCounted_iff : t.IsCounted ↔ ∃ u, ofMicroseconds? t.microseconds = some u := by
  rw [IsCounted, ← ofMicroseconds?_eq_none_iff, ← ne_eq, Option.ne_none_iff_exists']

theorem year_le (h : t.second ≤ u.second) : t.date.year ≤ u.date.year := by
  rcases Int.lt_or_eq_of_le (show t.second / daySeconds ≤ u.second / daySeconds by
    unfold daySeconds; omega) with before | same
  · rcases Date.ofDays_before (Int.add_lt_add_right before epochDay) with less | ⟨same, _⟩
    · exact Int.le_of_lt less
    · exact Int.le_of_eq same
  · rw [date, date, same]

theorem stampChars_congr (ht : t.isLeapSecond = false) (hu : u.isLeapSecond = false)
    (h : t.microseconds = u.microseconds) : t.stampChars .micros = u.stampChars .micros := by
  obtain ⟨second, nano⟩ := (microseconds_eq_iff ht hu).mp h
  have t_lt := nano_lt_second ht
  have u_lt := nano_lt_second hu
  simp [stampChars, dateText, clockText, date, secondOfDay, second, ht, hu, fractionText,
    Span.perSecond, Nat.mod_eq_of_lt t_lt, Nat.mod_eq_of_lt u_lt, nano]

/-- Times of day compare as they are shown, a leap second after the second that it follows. -/
theorem clockText_lt (t_legible : t.IsLegible) (u_legible : u.IsLegible) (h : t.secondOfDay < u.secondOfDay ∨
      t.secondOfDay = u.secondOfDay ∧ t.nano / 1000 < u.nano / 1000) :
    t.clockText .micros ++ ['Z'] < u.clockText .micros ++ ['Z'] := by
  have t_bounds := t.secondOfDay_bounds
  have u_bounds := u.secondOfDay_bounds
  have t_shown := shownSecond_cases_nano t_legible
  have u_shown := shownSecond_cases_nano u_legible
  rw [clockText_eq, clockText_eq]
  simp only [Span.perSecond]
  -- the first field that differs decides
  refine padded_append_lt (by decide) (by omega) (by omega) fun hours => cons_lt ?_
  refine padded_append_lt (by decide) (by omega) (by omega) fun minutes => cons_lt ?_
  refine padded_append_lt (by decide) (by omega) (by omega) fun seconds => cons_lt ?_
  exact padded_append_lt (by decide) (by omega) (by omega) fun micros => by omega

/-- Stamps of four digits for the year compare as the instants, rounded down to a microsecond. -/
theorem stampChars_lt_of_earlier (ht : t.HasPlainYear) (hu : u.HasPlainYear)
    (t_legible : t.IsLegible) (u_legible : u.IsLegible)
    (h : t.second < u.second ∨ t.second = u.second ∧ t.nano / 1000 < u.nano / 1000) :
    t.stampChars .micros < u.stampChars .micros := by
  obtain ⟨_, month, _, day⟩ : u.date.Valid := Date.valid_ofDays _
  have fields : t.date.Before u.date ∨ t.date = u.date ∧ (t.secondOfDay < u.secondOfDay ∨
      t.secondOfDay = u.secondOfDay ∧ t.nano / 1000 < u.nano / 1000) := by
    rcases Int.lt_trichotomy (t.second / daySeconds) (u.second / daySeconds) with less | same | more
    · exact .inl (Date.ofDays_before (by omega))
    · refine .inr ⟨by rw [date, date, same], ?_⟩
      unfold secondOfDay daySeconds at *
      omega
    · unfold daySeconds at more
      omega
  have u_year := hu.2
  have t_year := ht.1
  have short := monthLength_le u.date.year month
  rw [stampChars_eq ht, stampChars_eq hu]
  rcases fields with before | ⟨same, clock⟩
  · rw [Date.Before] at before
    refine padded_append_lt (by decide) (by omega) (by omega) fun years => cons_lt ?_
    refine padded_append_lt (by decide) (by omega) (by omega) fun months => cons_lt ?_
    exact padded_append_lt (by decide) (by omega) (by omega) fun days => by omega
  · rw [same]
    exact List.append_left_lt (cons_lt (List.append_left_lt (cons_lt (List.append_left_lt
      (cons_lt (clockText_lt t_legible u_legible clock))))))

/-- Outside leap seconds, stamps of four digits for the year compare as the microseconds do. -/
theorem stampChars_lt (ht : t.HasPlainYear) (hu : u.HasPlainYear)
    (t_plain : t.isLeapSecond = false) (u_plain : u.isLeapSecond = false)
    (h : t.microseconds < u.microseconds) : t.stampChars .micros < u.stampChars .micros :=
  stampChars_lt_of_earlier ht hu (isLegible_of_plain t_plain) (isLegible_of_plain u_plain)
    ((microseconds_lt_iff t_plain u_plain).mp h)

/-- A year before the year 0 comes before all that are written with four digits. -/
theorem stampChars_lt_of_year_neg (ht : t.date.year < 0) (hu : u.HasPlainYear) :
    t.stampChars .micros < u.stampChars .micros := by
  obtain ⟨rest, text⟩ := exists_stampChars_of_signed (t := t) fun plain => by
    have := plain.1
    omega
  have digits : ∀ c ∈ padded 4 u.date.year.toNat, c.isDigit = true := fun _ => isDigit_of_mem_padded
  rw [text, if_pos ht, stampChars_eq hu]
  cases year : padded 4 u.date.year.toNat with
  | nil => simp [padded, Nat.toDigits_ne_nil] at year
  | cons c rest =>
    have := toNat_of_isDigit (digits c (by simp [year]))
    rw [List.cons_append, List.cons_lt_cons_iff]
    exact .inl (show '-'.toNat < c.toNat by simp; omega)

/-- Stamps compare as the microseconds do, also where the first has a year before the year 0. -/
theorem stampChars_lt_iff (ht : t.date.year ≤ 9999) (hu : u.HasPlainYear)
    (t_plain : t.isLeapSecond = false) (u_plain : u.isLeapSecond = false) :
    t.stampChars .micros < u.stampChars .micros ↔ t.microseconds < u.microseconds := by
  constructor
  · intro less
    by_contra later
    rcases Int.lt_or_eq_of_le (Int.not_lt.mp later) with later | same
    · have seconds : u.second ≤ t.second := by
        rw [microseconds_lt_iff u_plain t_plain] at later
        omega
      have year : 0 ≤ t.date.year := Int.le_trans hu.1 (year_le seconds)
      exact List.lt_asymm less (stampChars_lt hu ⟨year, ht⟩ u_plain t_plain later)
    · rw [stampChars_congr u_plain t_plain same] at less
      exact List.lt_irrefl _ less
  · intro less
    by_cases year : t.date.year < 0
    · exact stampChars_lt_of_year_neg year hu
    · exact stampChars_lt ⟨Int.not_lt.mp year, ht⟩ hu t_plain u_plain less

/-- Whether an instant is a whole microsecond of the years 0000 to 9999, outside leap seconds. -/
structure IsPlain (t : Instant) : Prop where
  year : t.HasPlainYear
  regular : t.isLeapSecond = false
  whole : t.nano % 1000 = 0

instance : Decidable t.IsPlain :=
  decidable_of_iff (t.HasPlainYear ∧ t.isLeapSecond = false ∧ t.nano % 1000 = 0)
    ⟨fun h => ⟨h.1, h.2.1, h.2.2⟩, fun h => ⟨h.year, h.regular, h.whole⟩⟩

theorem IsPlain.told_eq (h : t.IsPlain) : t.told = t := by
  rw [told_eq_cut_iff.mpr (isLegible_of_plain h.regular), cut_eq_iff.mpr h.whole]

theorem IsPlain.eq_iff (ht : t.IsPlain) (hu : u.IsPlain) :
    t = u ↔ t.microseconds = u.microseconds := by
  refine ⟨congrArg _, fun same => ?_⟩
  have ht' := ht.whole
  have hu' := hu.whole
  obtain ⟨seconds, nanos⟩ := (microseconds_eq_iff ht.regular hu.regular).mp same
  have nanos : t.nano = u.nano := by omega
  cases t
  cases u
  simp_all

theorem IsPlain.lt_iff (ht : t.IsPlain) (hu : u.IsPlain) :
    t < u ↔ t.microseconds < u.microseconds := by
  have ht' := ht.whole
  have hu' := hu.whole
  rw [microseconds_lt_iff ht.regular hu.regular]
  show ¬ u.le t = true ↔ _
  simp only [le, Bool.or_eq_true, Bool.and_eq_true, decide_eq_true_eq]
  omega

end Instant

end JobQueue.Time
