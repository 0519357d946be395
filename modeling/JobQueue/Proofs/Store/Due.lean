import JobQueue.Proofs.Store.Keyed
import JobQueue.Proofs.Time.Window
import JobQueue.Store.Memory

/-!
# Which records are due

The store in memory lists the oldest records that nobody holds: `MemoryStore.IsDue` says so without
mention of how they are sorted, and `MemoryStore.isDue` that the list keeps to it.
-/

namespace JobQueue

open Time (Instant Span)

namespace Record

variable {a b : Record}

def Precedes (a b : Record) : Prop :=
  a.createdAt < b.createdAt ∨ a.createdAt = b.createdAt ∧ a.id < b.id

theorem Precedes.ne (first : a.Precedes b) : a ≠ b := by
  rintro rfl
  rcases first with older | ⟨_, before⟩
  · rw [Instant.lt_iff] at older
    omega
  · exact String.lt_irrefl _ before

theorem servedBefore_iff : a.servedBefore b = true ↔
    a.createdAt < b.createdAt ∨ a.createdAt = b.createdAt ∧ a.id ≤ b.id := by
  simp [servedBefore]

theorem servedBefore_trans (a b c : Record) (first : a.servedBefore b = true)
    (second : b.servedBefore c = true) : a.servedBefore c = true := by
  simp only [servedBefore_iff, Instant.lt_iff, Instant.eq_iff] at *
  rcases first with first | ⟨same, first⟩
  · omega
  · rcases second with second | ⟨same', second⟩
    · omega
    · exact .inr ⟨by omega, String.le_trans first second⟩

theorem servedBefore_total (a b : Record) : (a.servedBefore b || b.servedBefore a) = true := by
  simp only [Bool.or_eq_true, servedBefore_iff, Instant.lt_iff, Instant.eq_iff]
  rcases String.le_total a.id b.id with ids | ids
  · simp only [ids, and_true]
    omega
  · simp only [ids, and_true]
    omega

theorem precedes_of_servedBefore (served : a.servedBefore b = true) (differ : a.id ≠ b.id) :
    a.Precedes b := by
  refine (servedBefore_iff.mp served).imp_right fun ⟨same, first⟩ => ⟨same, ?_⟩
  exact String.not_le.mp fun last => differ (String.le_antisymm first last)

/-- Whether nobody holds a record: it has no reservation, or one that is as old as the window. -/
def IsFree (r : Record) (now : Instant) (window : Span) : Prop :=
  ∀ since, r.reservedAt = some since → window.nanoseconds ≤ now.since since

end Record

namespace MemoryStore

/-- Whether a list is that of the first records that nobody holds. -/
structure IsDue (s : MemoryStore) (now : Instant) (window : Span) (limit : Nat)
    (due : List Record) : Prop where
  ordered : due.Pairwise Record.Precedes
  stored : ∀ r ∈ due, s.find? r.id = some r
  free : ∀ r ∈ due, r.IsFree now window
  short : due.length ≤ limit
  full : due.length < limit → ∀ id r, s.find? id = some r → r.IsFree now window → r ∈ due
  first : ∀ id r, s.find? id = some r → r.IsFree now window → r ∉ due → ∀ d ∈ due, d.Precedes r

variable {s : MemoryStore} {now : Instant} {window : Span} {limit : Nat}

theorem IsDue.distinct {due : List Record} (listed : s.IsDue now window limit due) :
    (due.map Record.id).Nodup := by
  rw [List.Nodup, List.pairwise_map]
  refine listed.ordered.imp_of_mem fun {a b} member member' first same => first.ne ?_
  have there := listed.stored b member'
  rw [← same, listed.stored a member] at there
  exact Option.some.inj there

def waiting (s : MemoryStore) (now : Instant) (window : Span) : List Record :=
  (s.items.filter fun r => !r.isReservedWithin now window).mergeSort Record.servedBefore

theorem isFirst_due : s.IsFirst (fun r => !r.isReservedWithin now window) Record.servedBefore limit
    (s.due now window limit) :=
  Keyed.isFirst_take_mergeSort Record.servedBefore_trans Record.servedBefore_total

theorem not_isReservedWithin_iff {r : Record} :
    (!r.isReservedWithin now window) = true ↔ r.IsFree now window := by
  rw [Bool.not_eq_true', Record.isReservedWithin_eq_false_iff, Record.IsFree]

theorem mem_waiting {r : Record} :
    r ∈ s.waiting now window ↔ r ∈ s.items ∧ r.IsFree now window := by
  rw [waiting, List.mem_mergeSort, List.mem_filter, not_isReservedWithin_iff]

theorem isDue : s.IsDue now window limit (s.due now window limit) := by
  have listed : s.IsFirst _ _ limit (s.due now window limit) := isFirst_due
  constructor
  case ordered =>
    exact listed.ordered.imp₂ (fun a b => Record.precedes_of_servedBefore)
      (List.pairwise_map.mp listed.distinct)
  case stored => exact fun r member => Keyed.find?_of_mem (listed.stored r member)
  case free => exact fun r member => not_isReservedWithin_iff.mp (listed.passed r member)
  case short => exact listed.short
  case full =>
    intro few id r there free
    exact listed.full few r (Keyed.mem_of_find? there) (not_isReservedWithin_iff.mpr free)
  case first =>
    intro id r there free left d member
    have stored := Keyed.mem_of_find? there
    refine Record.precedes_of_servedBefore
      (listed.before r stored (not_isReservedWithin_iff.mpr free) left d member) fun same => ?_
    -- no other record has the identifier
    have its := Keyed.find?_of_mem (listed.stored d member)
    rw [same, Keyed.find?_of_mem stored] at its
    exact left (Option.some.inj its ▸ member)

end MemoryStore

end JobQueue
