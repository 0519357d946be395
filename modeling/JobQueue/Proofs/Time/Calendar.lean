import JobQueue.Time.Calendar

/-!
# The calendar counts days

Every day has one date, which is valid and is on that day (`toDays_ofDays`), and later days have
later dates (`ofDays_before`). Years and months are both found by where they begin: a day lies
between the start of its year and that of the next, and so does an ordinal with its month.
-/

namespace JobQueue.Time

-- ---------------------------------------------------------------------------
-- Years
-- ---------------------------------------------------------------------------

theorem daysBeforeYear_mono {x y : Int} (h : x ≤ y) : daysBeforeYear x ≤ daysBeforeYear y := by
  unfold daysBeforeYear
  omega

theorem yearOfDay_spec (n : Int) :
    daysBeforeYear (yearOfDay n) ≤ n ∧ n < daysBeforeYear (yearOfDay n + 1) := by
  -- the guess is at most one year off
  have near : daysBeforeYear (n * 400 / 146097) ≤ n ∧
      n < daysBeforeYear (n * 400 / 146097 + 1 + 1 + 1) := by
    unfold daysBeforeYear
    omega
  unfold yearOfDay
  dsimp only
  split
  · next early => exact ⟨by rw [Int.add_sub_cancel]; exact near.1, by rwa [Int.sub_add_cancel]⟩
  · next early =>
    split
    · next late => exact ⟨late, near.2⟩
    · next late => exact ⟨Int.not_lt.mp early, Int.not_le.mp late⟩

theorem yearOfDay_le {n y : Int} (h : n < daysBeforeYear (y + 1)) : yearOfDay n ≤ y := by
  apply Int.le_of_not_gt
  intro later
  have := daysBeforeYear_mono later
  have := (yearOfDay_spec n).1
  omega

theorem isLeap_eq_true_iff {y : Int} :
    isLeap y = true ↔ y % 4 = 0 ∧ (y % 100 ≠ 0 ∨ y % 400 = 0) := by
  simp [isLeap]

/-- The months of a year are as long as the year. -/
theorem daysBeforeYear_succ (y : Int) :
    daysBeforeYear (y + 1) = daysBeforeYear y + (daysBeforeMonth (isLeap y) 13 : Nat) := by
  cases leap : isLeap y with
  | true =>
    have := isLeap_eq_true_iff.mp leap
    simp only [daysBeforeYear, daysBeforeMonth, if_true]
    omega
  | false =>
    have : ¬ (y % 4 = 0 ∧ (y % 100 ≠ 0 ∨ y % 400 = 0)) := by
      rw [← isLeap_eq_true_iff, leap]
      exact Bool.false_ne_true
    simp only [daysBeforeYear, daysBeforeMonth, Bool.false_eq_true, if_false]
    omega

-- ---------------------------------------------------------------------------
-- Months
-- ---------------------------------------------------------------------------

theorem daysBeforeMonth_le_succ (leap : Bool) {month : Nat} (h : month ≤ 12) :
    daysBeforeMonth leap month ≤ daysBeforeMonth leap (month + 1) := by
  revert month
  cases leap <;> decide

theorem daysBeforeMonth_mono (leap : Bool) {m n : Nat} (h : m ≤ n) (hn : n ≤ 13) :
    daysBeforeMonth leap m ≤ daysBeforeMonth leap n := by
  induction h with
  | refl => exact Nat.le_refl _
  | step _ ih => exact Nat.le_trans (ih (by omega)) (daysBeforeMonth_le_succ leap (by omega))

theorem monthLength_le (year : Int) {month : Nat} (h : month ≤ 12) :
    monthLength year month ≤ 31 := by
  unfold monthLength
  generalize isLeap year = leap
  revert month
  cases leap <;> decide

theorem monthOfOrdinal_spec (leap : Bool) (ordinal last : Nat) (h : 1 ≤ last) :
    1 ≤ monthOfOrdinal leap ordinal last ∧ monthOfOrdinal leap ordinal last ≤ last ∧
      daysBeforeMonth leap (monthOfOrdinal leap ordinal last) ≤ ordinal ∧
      (ordinal < daysBeforeMonth leap (last + 1) →
        ordinal < daysBeforeMonth leap (monthOfOrdinal leap ordinal last + 1)) := by
  induction last using monthOfOrdinal.induct leap ordinal with
  | case1 => omega
  | case2 => simp [monthOfOrdinal, daysBeforeMonth]
  | case3 last begun => simp [monthOfOrdinal, begun]
  | case4 last early ih =>
    obtain ⟨first, upTo, begun, ended⟩ := ih (by omega)
    rw [monthOfOrdinal, if_neg early]
    exact ⟨first, by omega, begun, fun _ => ended (Nat.lt_of_not_le early)⟩

-- ---------------------------------------------------------------------------
-- Dates
-- ---------------------------------------------------------------------------

namespace Date

def ordinal (n : Int) : Nat := (n - daysBeforeYear (yearOfDay n)).toNat

theorem ordinal_eq (n : Int) : (ordinal n : Int) = n - daysBeforeYear (yearOfDay n) := by
  have := (yearOfDay_spec n).1
  unfold ordinal
  omega

theorem ofDays_spec (n : Int) :
    (ofDays n).year = yearOfDay n ∧ 1 ≤ (ofDays n).month ∧ (ofDays n).month ≤ 12 ∧
      1 ≤ (ofDays n).day ∧
      daysBeforeMonth (isLeap (ofDays n).year) (ofDays n).month + (ofDays n).day = ordinal n + 1 ∧
      ordinal n < daysBeforeMonth (isLeap (ofDays n).year) ((ofDays n).month + 1) := by
  have within : ordinal n < daysBeforeMonth (isLeap (yearOfDay n)) 13 := by
    have := (yearOfDay_spec n).2
    rw [daysBeforeYear_succ] at this
    have := ordinal_eq n
    omega
  obtain ⟨first, upTo, begun, ended⟩ :=
    monthOfOrdinal_spec (isLeap (yearOfDay n)) (ordinal n) 12 (by omega)
  refine ⟨rfl, first, upTo, Nat.le_add_left 1 _, ?_, ended within⟩
  change _ + (ordinal n - _ + 1) = _
  simp only [ofDays, ordinal] at begun ⊢
  omega

theorem toDays_ofDays (n : Int) : (ofDays n).toDays = n := by
  obtain ⟨year, _, _, _, stands, _⟩ := ofDays_spec n
  rw [toDays, stands, year]
  have := ordinal_eq n
  omega

theorem valid_ofDays (n : Int) : (ofDays n).Valid := by
  obtain ⟨_, first, last, one, stands, ends⟩ := ofDays_spec n
  refine ⟨first, last, one, ?_⟩
  unfold monthLength
  omega

def Before (d e : Date) : Prop :=
  d.year < e.year ∨ d.year = e.year ∧ (d.month < e.month ∨ d.month = e.month ∧ d.day < e.day)

theorem ofDays_before {m n : Int} (h : m < n) : (ofDays m).Before (ofDays n) := by
  obtain ⟨yearM, _, lastM, _, standsM, _⟩ := ofDays_spec m
  obtain ⟨yearN, _, _, _, standsN, endsN⟩ := ofDays_spec n
  have years : (ofDays m).year ≤ (ofDays n).year := by
    rw [yearM, yearN]
    exact yearOfDay_le (Int.lt_trans h (yearOfDay_spec n).2)
  rcases Int.lt_or_eq_of_le years with earlier | same
  · exact .inl earlier
  · refine .inr ⟨same, ?_⟩
    have ordinals : ordinal m < ordinal n := by
      have start : yearOfDay m = yearOfDay n := yearM ▸ yearN ▸ same
      have := ordinal_eq m
      have := ordinal_eq n
      rw [start] at *
      omega
    rw [same] at standsM
    have months : (ofDays m).month ≤ (ofDays n).month := by
      apply Nat.le_of_not_gt
      intro later
      have : daysBeforeMonth (isLeap (ofDays n).year) ((ofDays n).month + 1) ≤
          daysBeforeMonth (isLeap (ofDays n).year) (ofDays m).month :=
        daysBeforeMonth_mono _ later (by omega)
      omega
    rcases Nat.lt_or_eq_of_le months with earlier | same
    · exact .inl earlier
    · rw [same] at standsM
      exact .inr ⟨same, by omega⟩

end Date

end JobQueue.Time
