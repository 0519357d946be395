import JobQueue.Time.Calendar
import JobQueue.Time.Span

/-!
Instants in coordinated universal time, to the nanosecond. Seconds are counted from the start
of 1970 and leave leap seconds out; within a leap second the nanoseconds of the second before
it go on from 10 to the ninth. They may go on so after any second, though a leap second that
the calendar knows ends a minute. Instants are ordered by second, then by nanosecond.
-/

namespace JobQueue.Time

def epochDay : Int := 719162

def daySeconds : Int := 86400

/-- The first second of an instant: the start of the year -262143. -/
def firstSecond : Int := (daysBeforeYear (-262143) - epochDay) * daySeconds

/-- The last second of an instant: the end of the year 262142. -/
def lastSecond : Int := (daysBeforeYear 262143 - epochDay) * daySeconds - 1

structure Instant where
  second : Int
  nano : Nat
  first_le : firstSecond ≤ second
  le_last : second ≤ lastSecond
  nano_lt : nano < 2 * Span.perSecond
  deriving DecidableEq, Repr

namespace Instant

def ofParts? (second : Int) (nano : Nat) : Option Instant :=
  if h : firstSecond ≤ second ∧ second ≤ lastSecond ∧ nano < 2 * Span.perSecond then
    some ⟨second, nano, h.1, h.2.1, h.2.2⟩
  else none

def epoch : Instant := ⟨0, 0, by decide, by decide, by decide⟩

instance : Inhabited Instant := ⟨epoch⟩

def earliest : Instant := ⟨firstSecond, 0, by decide, by decide, by decide⟩

def isLeapSecond (t : Instant) : Bool := Span.perSecond ≤ t.nano

def le (t u : Instant) : Bool :=
  t.second < u.second || (t.second = u.second && t.nano ≤ u.nano)

instance : LE Instant := ⟨fun t u => t.le u = true⟩

instance (t u : Instant) : Decidable (t ≤ u) :=
  inferInstanceAs (Decidable (t.le u = true))

instance : LT Instant := ⟨fun t u => ¬ u ≤ t⟩

instance (t u : Instant) : Decidable (t < u) :=
  inferInstanceAs (Decidable (¬ u ≤ t))

def secondOfDay (t : Instant) : Int := t.second % daySeconds

/-- The nanoseconds from `u` to `t`. A leap second counts when it lies between the two times of
day. -/
def since (t u : Instant) : Int :=
  -- the count of seconds leaves leap seconds out
  let counted : Int :=
    if u.secondOfDay < t.secondOfDay ∧ u.isLeapSecond then 1
    else if t.secondOfDay < u.secondOfDay ∧ t.isLeapSecond then -1
    else 0
  (t.second - u.second + counted) * Span.perSecond + ((t.nano : Int) - u.nano)

/-- The instant a span earlier, if there is one. Going back from within a leap second by a
second or more starts at the end of that second. -/
def before? (t : Instant) (s : Span) : Option Instant :=
  let seconds : Int := (s.nanoseconds / Span.perSecond : Nat)
  let nanos := s.nanoseconds % Span.perSecond
  if t.isLeapSecond ∧ seconds = 0 then ofParts? t.second (t.nano - nanos)
  else
    let second := if t.isLeapSecond then t.second + 1 else t.second
    let nano := t.nano % Span.perSecond
    -- borrow a second when the nanoseconds do not suffice
    if nanos ≤ nano then ofParts? (second - seconds) (nano - nanos)
    else ofParts? (second - seconds - 1) (nano + Span.perSecond - nanos)

/-- The microseconds from the start of 1970, rounded down. A leap second runs into the next
one. -/
def microseconds (t : Instant) : Int :=
  t.second * 1000000 + (t.nano / 1000 : Nat)

def ofMicroseconds? (n : Int) : Option Instant :=
  ofParts? (n / 1000000) ((n % 1000000).toNat * 1000)

end Instant

end JobQueue.Time
