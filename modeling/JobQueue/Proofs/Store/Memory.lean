import JobQueue.Store.Memory

/-!
# What the store in memory answers

Each request by what is found under its identifier before it, and what is found under any
identifier after it.
-/

namespace JobQueue.MemoryStore

open Time (Instant)

variable {s : MemoryStore} {id other : String} {expected : Option Instant} {time : Instant}
  {r : Record}

-- ---------------------------------------------------------------------------
-- Answers
-- ---------------------------------------------------------------------------

theorem reserve_missing (h : s.find? id = none) :
    s.reserve id expected time = (.error (.notFound id), s) := by
  simp [reserve, fetch, h]

theorem reserve_same (h : s.find? id = some r) (same : r.reservedAt = expected) :
    s.reserve id expected time = (.ok true, s.put (r.reserve time)) := by
  simp [reserve, fetch, h, same]

theorem reserve_other (h : s.find? id = some r) (differ : r.reservedAt ≠ expected) :
    s.reserve id expected time = (.ok false, s) := by
  simp [reserve, fetch, h, differ]

theorem recordFailure_missing (h : s.find? id = none) :
    s.recordFailure id time = (.error (.notFound id), s) := by
  simp [recordFailure, fetch, h]

theorem recordFailure_there (h : s.find? id = some r) :
    s.recordFailure id time = (.ok (r.recordFailure time), s.put (r.recordFailure time)) := by
  simp [recordFailure, fetch, h]

theorem delete_missing (h : s.find? id = none) :
    s.delete id = (.error (.notFound id), s) := by
  simp [delete, fetch, h]

theorem delete_there (h : s.find? id = some r) : s.delete id = (.ok (), s.erase id) := by
  simp [delete, fetch, h]

-- ---------------------------------------------------------------------------
-- What is stored
-- ---------------------------------------------------------------------------

theorem id_of_find? (h : s.find? id = some r) : r.id = id :=
  Keyed.key_of_find? h

theorem find?_put_reserve (h : s.find? id = some r) :
    (s.put (r.reserve time)).find? other =
      if id = other then some (r.reserve time) else s.find? other := by
  rw [Keyed.find?_put, Record.id_reserve, id_of_find? h]

theorem find?_put_recordFailure (h : s.find? id = some r) :
    (s.put (r.recordFailure time)).find? other =
      if id = other then some (r.recordFailure time) else s.find? other := by
  rw [Keyed.find?_put, Record.id_recordFailure, id_of_find? h]

end JobQueue.MemoryStore
