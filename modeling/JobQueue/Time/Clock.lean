import JobQueue.Time.Instant

/-!
A clock that is a microsecond further at every reading, so that no two readings are equal.
-/

namespace JobQueue.Time

/-- A clock, by its first reading and the number of readings so far. -/
structure Clock where
  start : Instant
  readings : Nat
  deriving DecidableEq, Repr

namespace Clock

def startingAt (start : Instant) : Clock := ⟨start, 0⟩

/-- What the clock shows. At the end of time it stays where it started. -/
def now (c : Clock) : Instant :=
  (Instant.ofMicroseconds? (c.start.microseconds + c.readings)).getD c.start

def next (c : Clock) : Clock := { c with readings := c.readings + 1 }

end Clock

end JobQueue.Time
