import JobQueue.Keyed
import JobQueue.Store

/-!
The store that keeps its records in memory, each under its own identifier.
-/

namespace JobQueue

open Time (Instant Span)

abbrev MemoryStore := Keyed Record Record.id

namespace MemoryStore

def fetch (s : MemoryStore) (id : String) : Except StoreError Record :=
  match s.find? id with
  | some r => .ok r
  | none => .error (.notFound id)

def save (s : MemoryStore) (now : Instant) (r : Record) : MemoryStore :=
  s.put { r with updatedAt := now }

def reserve (s : MemoryStore) (id : String) (expected : Option Instant) (time : Instant) :
    Except StoreError Bool × MemoryStore :=
  match s.fetch id with
  | .error e => (.error e, s)
  | .ok r => if r.reservedAt = expected then (.ok true, s.put (r.reserve time)) else (.ok false, s)

def recordFailure (s : MemoryStore) (id : String) (time : Instant) :
    Except StoreError Record × MemoryStore :=
  match s.fetch id with
  | .error e => (.error e, s)
  | .ok r => (.ok (r.recordFailure time), s.put (r.recordFailure time))

def delete (s : MemoryStore) (id : String) : Except StoreError Unit × MemoryStore :=
  match s.fetch id with
  | .error e => (.error e, s)
  | .ok _ => (.ok (), s.erase id)

def due (s : MemoryStore) (now : Instant) (window : Span) (limit : Nat) : List Record :=
  ((s.items.filter fun r => !r.isReservedWithin now window).mergeSort Record.servedBefore).take
    limit

instance : RecordStore MemoryStore where
  answer now q s :=
    match q with
    | .get id => (.ok (s.find? id), s)
    | .save r => (.ok (), s.save now r)
    | .reserve id expected time => s.reserve id expected time
    | .recordFailure id time => s.recordFailure id time
    | .delete id => s.delete id
    | .listDue now window limit => (.ok (s.due now window limit), s)

end MemoryStore

end JobQueue
