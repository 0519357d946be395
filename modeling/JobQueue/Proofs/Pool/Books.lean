import JobQueue.Pool.Collection
import Mathlib.Data.List.Induction

/-!
# The books of a collection

A collection keeps three things that have to agree: its slots, the open ones of each job, and how
many are open (`IsKept`). A report and a wait that has run out close one slot in all three
(`Closes`), which keeps the books, so the slot that is next for a job is always its lowest open
one.
-/

namespace JobQueue

theorem countP_range_getElem? {α : Type} (p : α → Bool) (xs : List α) :
    (List.range xs.length).countP (fun i => xs[i]?.any p) = xs.countP p := by
  induction xs with
  | nil => rfl
  | cons x xs ih =>
    rw [List.length_cons, List.range_succ_eq_map, List.countP_cons, List.countP_map,
      List.countP_cons, ← ih]
    simp [Function.comp_def]

-- ---------------------------------------------------------------------------
-- The slots of each job
-- ---------------------------------------------------------------------------

namespace Pending

variable {pending : Keyed Pending jobId} {id id' : String} {waiting : List Nat}

theorem slotsOf_put : slotsOf (pending.put ⟨id, waiting⟩) id' =
    if id = id' then waiting else slotsOf pending id' := by
  rw [slotsOf, Keyed.find?_put]
  split <;> rfl

theorem ofJobIds_snoc (jobIds : List String) (id : String) :
    ofJobIds (jobIds ++ [id]) = add (ofJobIds jobIds) id jobIds.length := by
  simp [ofJobIds, List.zipIdx_append]

theorem slotsOf_ofJobIds (jobIds : List String) (id : String) : slotsOf (ofJobIds jobIds) id =
    (List.range jobIds.length).filter fun i => jobIds[i]? = some id := by
  induction jobIds using List.reverseRecOn with
  | nil => rfl
  | append_singleton jobIds last ih =>
    have before : (List.range jobIds.length).filter (fun i => (jobIds ++ [last])[i]? = some id) =
        (List.range jobIds.length).filter fun i => jobIds[i]? = some id := by
      refine List.filter_congr fun i inside => ?_
      rw [List.getElem?_append_left (List.mem_range.mp inside)]
    rw [ofJobIds_snoc, add, slotsOf_put, List.length_append, List.length_singleton,
      List.range_succ, List.filter_append, before, ← ih]
    split
    · next same => simp [same]
    · next other => simp [other]

end Pending

namespace Collection

open Pending (slotsOf)

variable {c c' : Collection} {i : Nat} {id : String} {o : Outcome}

def IsOpen (c : Collection) (i : Nat) : Prop := c.slots[i]? = some none

def openSlots (c : Collection) (id : String) : List Nat :=
  (List.range c.jobIds.length).filter fun i => c.jobIds[i]? = some id ∧ c.slots[i]? = some none

structure IsKept (c : Collection) : Prop where
  length : c.slots.length = c.jobIds.length
  pending : ∀ id, slotsOf c.pending id = c.openSlots id
  remaining : c.remaining = c.slots.countP Option.isNone

theorem mem_openSlots : i ∈ c.openSlots id ↔ c.jobIds[i]? = some id ∧ c.IsOpen i := by
  simp only [openSlots, List.mem_filter, List.mem_range, decide_eq_true_eq, IsOpen]
  constructor
  · exact fun ⟨_, both⟩ => both
  · exact fun both => ⟨(List.getElem?_eq_some_iff.mp both.1).1, both⟩

theorem nodup_openSlots : (c.openSlots id).Nodup := List.nodup_range.filter _

theorem head?_openSlots : (c.openSlots id).head? = some i ↔
    c.jobIds[i]? = some id ∧ c.IsOpen i ∧ ∀ j < i, c.jobIds[j]? = some id → ¬ c.IsOpen j := by
  rw [openSlots, List.head?_filter, List.find?_range_eq_some]
  simp only [decide_eq_true_eq, List.mem_range, Bool.not_eq_true', decide_eq_false_iff_not,
    not_and, IsOpen]
  constructor
  · exact fun ⟨⟨its, isOpen⟩, _, lowest⟩ => ⟨its, isOpen, lowest⟩
  · exact fun ⟨its, isOpen, lowest⟩ =>
      ⟨⟨its, isOpen⟩, (List.getElem?_eq_some_iff.mp its).1, lowest⟩

theorem isKept_ofRecords (batch : Nat) (records : List Record) :
    (ofRecords batch records).IsKept where
  length := by simp [ofRecords]
  pending id := by
    simp only [ofRecords, Pending.slotsOf_ofJobIds, openSlots]
    refine List.filter_congr fun i inside => ?_
    have isOpen : ((records.map Record.id).map fun _ => (none : Option Outcome))[i]? =
        some none := by
      rw [List.getElem?_map, List.getElem?_eq_getElem (List.mem_range.mp inside)]
      rfl
    simp only [isOpen, and_true]
  remaining := by
    have isNone : ∀ slot ∈ (ofRecords batch records).slots, slot.isNone = true := by
      simp [ofRecords]
    rw [List.countP_eq_length.mpr isNone]
    simp [ofRecords]

theorem IsKept.isComplete_eq_false_iff (kept : c.IsKept) :
    c.isComplete = false ↔ ∃ i, c.IsOpen i := by
  rw [isComplete, decide_eq_false_iff_not, kept.remaining, ← ne_eq, ← Nat.pos_iff_ne_zero,
    List.countP_pos_iff]
  constructor
  · rintro ⟨slot, member, isNone⟩
    obtain ⟨i, there⟩ := List.getElem?_of_mem member
    exact ⟨i, there.trans (congrArg some (Option.isNone_iff_eq_none.mp isNone))⟩
  · rintro ⟨i, isOpen⟩
    exact ⟨none, List.mem_of_getElem? isOpen, rfl⟩

-- ---------------------------------------------------------------------------
-- Closing a slot
-- ---------------------------------------------------------------------------

/-- What it is to close a slot: the outcome is put there, and nothing else changes. -/
structure Closes (c c' : Collection) (i : Nat) (o : Outcome) : Prop where
  batch : c'.batch = c.batch
  jobIds : c'.jobIds = c.jobIds
  slots : c'.slots = c.slots.set i (some o)
  pending : ∀ id, slotsOf c'.pending id = (slotsOf c.pending id).filter (· ≠ i)
  remaining : c'.remaining = c.remaining - 1

theorem IsKept.filter_slotsOf_other (kept : c.IsKept) {id' : String}
    (its : c.jobIds[i]? = some id) (other : id ≠ id') :
    (slotsOf c.pending id').filter (· ≠ i) = slotsOf c.pending id' := by
  rw [kept.pending, List.filter_eq_self]
  intro j member
  rw [decide_eq_true_eq]
  rintro rfl
  exact other (Option.some.inj (its.symm.trans (mem_openSlots.mp member).1))

theorem IsKept.receive_closes (kept : c.IsKept) {r : Report} (own : r.batch = c.batch)
    (next : (slotsOf c.pending r.jobId).head? = some i) : c.Closes (c.receive r) i r.outcome := by
  obtain ⟨rest, waiting⟩ := List.head?_eq_some_iff.mp next
  have distinct : (i :: rest).Nodup := waiting ▸ kept.pending r.jobId ▸ nodup_openSlots
  have its : c.jobIds[i]? = some r.jobId := by
    have member : i ∈ c.openSlots r.jobId := by
      rw [← kept.pending, waiting]
      exact List.mem_cons_self
    exact (mem_openSlots.mp member).1
  simp only [receive, own, ne_eq, not_true_eq_false, if_false, waiting]
  refine ⟨rfl, rfl, rfl, fun id => ?_, rfl⟩
  simp only [Pending.slotsOf_put]
  split
  · next same =>
    subst same
    -- no slot waits twice, so the head is all that the filter takes
    have others : rest.filter (· ≠ i) = rest := by
      rw [List.filter_eq_self]
      intro j member
      rw [decide_eq_true_eq]
      rintro rfl
      exact (List.nodup_cons.mp distinct).1 member
    rw [waiting, List.filter_cons_of_neg (by simp), others]
  · next other => exact (kept.filter_slotsOf_other its other).symm

theorem IsKept.expire?_closes (kept : c.IsKept) (first : c.slots.findIdx? Option.isNone = some i) :
    ∃ c', c.expire? = some c' ∧ c.Closes c' i (.error .resultTimeout) := by
  have inside := (List.findIdx?_eq_some_iff_getElem.mp first).1
  rw [kept.length] at inside
  have its : c.jobIds[i]? = some c.jobIds[i] := List.getElem?_eq_getElem inside
  refine ⟨_, congrArg (Option.map _) first, rfl, rfl, rfl, fun id => ?_, rfl⟩
  simp only [its, Option.bind_some]
  cases found : c.pending.find? c.jobIds[i] with
  | none =>
    -- the job has no queue, so the slot is in none
    by_cases same : c.jobIds[i] = id
    · simp [slotsOf, ← same, found]
    · exact (kept.filter_slotsOf_other its same).symm
  | some waiting =>
    have key := Keyed.key_of_find? found
    simp only [Pending.slotsOf_put]
    split
    · next same => rw [slotsOf, ← same, key, found, Option.elim_some]
    · next other => exact (kept.filter_slotsOf_other its (key ▸ other)).symm

theorem Closes.isKept (closes : c.Closes c' i o) (kept : c.IsKept) (isOpen : c.IsOpen i) :
    c'.IsKept where
  length := by rw [closes.slots, List.length_set, kept.length, closes.jobIds]
  pending id := by
    rw [closes.pending, kept.pending, openSlots, openSlots, List.filter_filter, closes.jobIds]
    refine List.filter_congr fun j _ => ?_
    rw [closes.slots, List.getElem?_set]
    by_cases same : i = j
    · subst same
      simp [(List.getElem?_eq_some_iff.mp isOpen).1]
    · have other : j ≠ i := fun e => same e.symm
      simp [same, other]
  remaining := by
    obtain ⟨inside, isNone⟩ := List.getElem?_eq_some_iff.mp isOpen
    rw [closes.remaining, kept.remaining, closes.slots, List.countP_set inside, isNone]
    simp

end Collection

end JobQueue
