import JobQueue.Proofs.Store.Calls
import JobQueue.Proofs.Store.Due
import Mathlib.Data.List.Perm.Subperm

/-!
# The list of due records is determined

Records under different identifiers are never equally old and equally named, so the order of service
is strict, and there is one list only of the oldest records that nobody holds (`IsOldest.unique`).
It does not matter in which order a store keeps its records.
-/

namespace JobQueue

open Time (Instant Span)

namespace Record

variable {a b : Record}

theorem Precedes.asymm (first : a.Precedes b) : ¬b.Precedes a := by
  intro second
  simp only [Precedes, Instant.lt_iff, Instant.eq_iff] at first second
  rcases first with older | ⟨_, before⟩
  · omega
  · rcases second with younger | ⟨_, after⟩
    · omega
    · exact String.lt_asymm before after

end Record

namespace MemoryStore

open RecordStore (reply next)

variable {s s' : MemoryStore} {now clock : Instant} {window : Span} {limit : Nat}
  {due other : List Record}

/-- Whether a list is that of the oldest records of a store that nobody holds. -/
structure IsOldest (s : MemoryStore) (now : Instant) (window : Span) (limit : Nat)
    (due : List Record) : Prop where
  ordered : due.Pairwise Record.Precedes
  length : due.length = min limit (s.items.countP fun r => !r.isReservedWithin now window)
  stored : ∀ r ∈ due, s.find? r.id = some r
  free : ∀ r ∈ due, r.isReservedWithin now window = false
  first : ∀ id r, s.find? id = some r → r.isReservedWithin now window = false → r ∉ due →
    ∀ d ∈ due, d.Precedes r

theorem isOldest : s.IsOldest now window limit (s.due now window limit) := by
  have listed : s.IsDue now window limit (s.due now window limit) := isDue
  have its : s.due now window limit = (s.waiting now window).take limit := rfl
  refine ⟨listed.ordered, ?_, listed.stored, fun r member => ?_, fun id r there free => ?_⟩
  · rw [its, List.length_take, waiting, List.length_mergeSort, ← List.countP_eq_length_filter]
  · exact Record.isReservedWithin_eq_false_iff.mpr (listed.free r member)
  · exact listed.first id r there (Record.isReservedWithin_eq_false_iff.mp free)

namespace IsOldest

theorem nodup (h : s.IsOldest now window limit due) : due.Nodup :=
  h.ordered.imp Record.Precedes.ne

theorem subset_or (h : s.IsOldest now window limit due) (h' : s.IsOldest now window limit other) :
    due ⊆ other ∨ other ⊆ due := by
  by_contra neither
  simp only [not_or, List.subset_def, not_forall] at neither
  obtain ⟨⟨r, member, left⟩, d, member', left'⟩ := neither
  -- each would come before the other
  have after : d.Precedes r := h'.first r.id r (h.stored r member) (h.free r member) left d member'
  have before : r.Precedes d :=
    h.first d.id d (h'.stored d member') (h'.free d member') left' r member
  exact before.asymm after

theorem unique (h : s.IsOldest now window limit due) (h' : s.IsOldest now window limit other) :
    due = other := by
  have long : due.length = other.length := h.length.trans h'.length.symm
  have same : due.Perm other := by
    rcases h.subset_or h' with all | all
    · exact (List.subperm_of_subset h.nodup all).perm_of_length_le (Nat.le_of_eq long.symm)
    · exact ((List.subperm_of_subset h'.nodup all).perm_of_length_le (Nat.le_of_eq long)).symm
  exact same.eq_of_pairwise (fun _ _ _ _ before after => absurd after before.asymm) h.ordered
    h'.ordered

end IsOldest

-- ---------------------------------------------------------------------------
-- The order in which records are kept
-- ---------------------------------------------------------------------------

theorem perm_of_find? (same : ∀ id, s'.find? id = s.find? id) : s'.items.Perm s.items := by
  have mem {m : MemoryStore} {r : Record} : r ∈ m.items ↔ m.find? r.id = some r :=
    ⟨Keyed.find?_of_mem, Keyed.mem_of_find?⟩
  refine (List.perm_ext_iff_of_nodup s'.distinct.of_map s.distinct.of_map).mpr fun r => ?_
  rw [mem, mem, same]

theorem IsOldest.congr (same : ∀ id, s'.find? id = s.find? id)
    (h : s'.IsOldest now window limit due) : s.IsOldest now window limit due := by
  obtain ⟨ordered, length, stored, free, first⟩ := h
  simp only [same] at stored first
  exact ⟨ordered, (perm_of_find? same).countP_eq _ ▸ length, stored, free, first⟩

/-- The store in memory lists the oldest records that nobody holds, and is left as it was. No other
list is that of the oldest ones, and every store that holds the same records gives the same list, in
whichever order it keeps them. -/
theorem listDue_oldest (s : MemoryStore) (clock now : Instant) (window : Span) (limit : Nat) :
    next s ⟨clock, .listDue now window limit⟩ = s ∧
    ∃ due, s.IsOldest now window limit due ∧
      (∀ other, s.IsOldest now window limit other → other = due) ∧
      ∀ s' : MemoryStore, (∀ id, s'.find? id = s.find? id) →
        reply s' ⟨clock, .listDue now window limit⟩ = .ok due := by
  refine ⟨rfl, s.due now window limit, isOldest, fun other h => h.unique isOldest, ?_⟩
  intro s' same
  have alike : s'.due now window limit = s.due now window limit :=
    (isOldest.congr same).unique isOldest
  exact congrArg Except.ok alike

def letterAt (id : String) (reservedAt : Option Instant) : Record :=
  { Record.ofParts id queueCollection "" .epoch with reservedAt }

/-- Two free records of one age, kept in the order of their insertion around a reserved one, are
listed by identifier. -/
theorem listDue_oldest_sameAge :
    let a := letterAt "a" none
    let b := letterAt "b" none
    let c := letterAt "c" (some .epoch)
    let sorted : MemoryStore := ((Keyed.empty.put a).put b).put c
    let s : MemoryStore := ((Keyed.empty.put b).put c).put a
    (∀ id, s.find? id = sorted.find? id) ∧
      reply s ⟨.epoch, .listDue .epoch defaultWindow 5⟩ = .ok [a, b] := by
  intro a b c sorted s
  have same : ∀ id, s.find? id = sorted.find? id := by
    intro id
    simp only [s, sorted, Keyed.find?_put, Keyed.find?_empty]
    by_cases first : a.id = id
    · subst first
      rfl
    · simp [first]
  refine ⟨same, ?_⟩
  obtain ⟨-, due, -, -, answers⟩ := listDue_oldest sorted .epoch .epoch defaultWindow 5
  have inOrder : (sorted.items.filter fun r => !r.isReservedWithin .epoch defaultWindow).Pairwise
      fun a b => a.servedBefore b = true := by
    decide +kernel
  have listed : sorted.due .epoch defaultWindow 5 = [a, b] := by
    rw [MemoryStore.due, List.mergeSort_of_pairwise inOrder]
    decide +kernel
  have its : reply sorted ⟨.epoch, .listDue .epoch defaultWindow 5⟩ = .ok due :=
    answers sorted fun _ => rfl
  rw [answers s same, ← its]
  exact congrArg Except.ok listed

end MemoryStore

end JobQueue
