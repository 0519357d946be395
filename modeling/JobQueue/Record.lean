import JobQueue.Time.Instant

/-!
The durable record of one unit of work. A record is claimed by a reservation, which keeps other
workers away for a window of time; a failed attempt is counted and gives the record free again.
-/

namespace JobQueue

open Time (Instant Span)

def queueCollection : String := "queues"

def defaultWindow : Span := .ofSeconds 300

/-- One more attempt; the count stops at the greatest 32-bit number. -/
def countAttempt (attempts : UInt32) : UInt32 :=
  if attempts = 0xFFFFFFFF then attempts else attempts + 1

theorem toNat_countAttempt (attempts : UInt32) :
    (countAttempt attempts).toNat = min (attempts.toNat + 1) 4294967295 := by
  unfold countAttempt
  have bound := attempts.toNat_lt
  split
  · next h => subst h; rfl
  · next h =>
    have ne : attempts.toNat ≠ 4294967295 := fun e => h (UInt32.toNat_inj.1 e)
    rw [UInt32.toNat_add, show (1 : UInt32).toNat = 1 from rfl]
    omega

/-- A unit of work. The payload is a text that should hold a JSON object. -/
structure Record where
  id : String
  collection : String
  payload : String
  attempts : UInt32
  reservedAt : Option Instant
  createdAt : Instant
  updatedAt : Instant
  deriving DecidableEq, Repr

namespace Record

/-- A record as it enters the queue at `now`: no attempts, no reservation. -/
def ofParts (id collection payload : String) (now : Instant) : Record :=
  { id, collection, payload, attempts := 0, reservedAt := none, createdAt := now, updatedAt := now }

def withAttempts (r : Record) (attempts : UInt32) : Record :=
  { r with attempts }

def withReservation (r : Record) (time : Instant) : Record :=
  { r with reservedAt := some time }

/-- Whether a reservation younger than the window is held at `now`. -/
def isReservedWithin (r : Record) (now : Instant) (window : Span) : Bool :=
  match r.reservedAt with
  | none => false
  | some time => now.since time < window.capped.nanoseconds

def reserve (r : Record) (time : Instant) : Record :=
  { r with reservedAt := some time, updatedAt := time }

def recordFailure (r : Record) (time : Instant) : Record :=
  { r with attempts := countAttempt r.attempts, reservedAt := none, updatedAt := time }

@[simp] theorem id_reserve (r : Record) (time : Instant) : (r.reserve time).id = r.id := rfl

@[simp] theorem id_recordFailure (r : Record) (time : Instant) :
    (r.recordFailure time).id = r.id := rfl

/-- The order in which due records are served: the oldest first, then by identifier. -/
def servedBefore (r s : Record) : Bool :=
  r.createdAt < s.createdAt || (r.createdAt = s.createdAt && r.id ≤ s.id)

end Record

end JobQueue
