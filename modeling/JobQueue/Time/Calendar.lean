/-!
The proleptic Gregorian calendar: days counted from the first of January of the year 1, and
the year, month and day of each.
-/

namespace JobQueue.Time

def isLeap (year : Int) : Bool :=
  year % 4 = 0 && (year % 100 ≠ 0 || year % 400 = 0)

/-- The days from the first of January of the year 1 to that of `year`. -/
def daysBeforeYear (year : Int) : Int :=
  365 * (year - 1) + (year - 1) / 4 - (year - 1) / 100 + (year - 1) / 400

/-- The days of a year before its month, counted from 1; the month after the last ends it. -/
def daysBeforeMonth (leap : Bool) : (month : Nat) → Nat
  | 0 | 1 => 0
  | 2 => 31
  | month + 3 =>
    (if leap then 60 else 59) +
      match month with
      | 0 => 0
      | 1 => 31
      | 2 => 61
      | 3 => 92
      | 4 => 122
      | 5 => 153
      | 6 => 184
      | 7 => 214
      | 8 => 245
      | 9 => 275
      | _ => 306

def monthLength (year : Int) (month : Nat) : Nat :=
  daysBeforeMonth (isLeap year) (month + 1) - daysBeforeMonth (isLeap year) month

structure Date where
  year : Int
  month : Nat
  day : Nat
  deriving DecidableEq, Repr

def Date.Valid (d : Date) : Prop :=
  1 ≤ d.month ∧ d.month ≤ 12 ∧ 1 ≤ d.day ∧ d.day ≤ monthLength d.year d.month

instance (d : Date) : Decidable d.Valid := by
  unfold Date.Valid
  infer_instance

/-- The day, counted from the first of January of the year 1. -/
def Date.toDays (d : Date) : Int :=
  daysBeforeYear d.year + (daysBeforeMonth (isLeap d.year) d.month + d.day : Nat) - 1

/-- The year of a day. The mean length of a year gives it up to one. -/
def yearOfDay (day : Int) : Int :=
  -- 400 years have 146097 days
  let guess := day * 400 / 146097 + 1
  if day < daysBeforeYear guess then guess - 1
  else if daysBeforeYear (guess + 1) ≤ day then guess + 1
  else guess

/-- The last of the months 1 to `last` that begins on or before the day of the year. -/
def monthOfOrdinal (leap : Bool) (ordinal : Nat) : (last : Nat) → Nat
  | 0 | 1 => 1
  | last + 2 =>
    if daysBeforeMonth leap (last + 2) ≤ ordinal then last + 2
    else monthOfOrdinal leap ordinal (last + 1)

def Date.ofDays (day : Int) : Date :=
  let year := yearOfDay day
  let ordinal := (day - daysBeforeYear year).toNat
  let month := monthOfOrdinal (isLeap year) ordinal 12
  ⟨year, month, ordinal - daysBeforeMonth (isLeap year) month + 1⟩

end JobQueue.Time
