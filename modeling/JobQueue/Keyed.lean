/-!
Collections in which every item has a key of its own. Items keep the order in which their keys
first came; putting an item with a known key replaces the item at its place.
-/

namespace JobQueue

namespace Keyed

variable {α : Type} {key : α → String}

/-- Puts an item into a list: in the place of the first item with its key, else at the end. -/
def putList (key : α → String) (item : α) : List α → List α
  | [] => [item]
  | other :: rest => if key other = key item then item :: rest else other :: putList key item rest

theorem mem_putList {item other : α} {items : List α} (h : other ∈ putList key item items) :
    other = item ∨ other ∈ items := by
  induction items with
  | nil => exact .inl (List.mem_singleton.1 h)
  | cons first rest ih =>
    unfold putList at h
    split at h
    · rcases List.mem_cons.1 h with h | h
      · exact .inl h
      · exact .inr (List.mem_cons_of_mem _ h)
    · rcases List.mem_cons.1 h with h | h
      · exact .inr (h ▸ List.mem_cons_self)
      · exact (ih h).imp_right (List.mem_cons_of_mem _)

theorem nodup_putList (item : α) {items : List α} (h : (items.map key).Nodup) :
    ((putList key item items).map key).Nodup := by
  induction items with
  | nil => simp [putList]
  | cons first rest ih =>
    have split := List.nodup_cons.1 h
    unfold putList
    split
    · next same =>
      rw [List.map_cons, ← same]
      exact h
    · next differ =>
      rw [List.map_cons]
      refine List.nodup_cons.2 ⟨fun there => ?_, ih split.2⟩
      obtain ⟨other, member, same⟩ := List.mem_map.1 there
      rcases mem_putList member with rfl | member
      · exact differ same.symm
      · exact split.1 (same ▸ List.mem_map_of_mem member)

end Keyed

/-- A collection without two items of one key. -/
structure Keyed (α : Type) (key : α → String) where
  items : List α
  distinct : (items.map key).Nodup
  deriving DecidableEq, Repr

namespace Keyed

variable {α : Type} {key : α → String}

def empty : Keyed α key := ⟨[], .nil⟩

instance : Inhabited (Keyed α key) := ⟨empty⟩

def find? (c : Keyed α key) (k : String) : Option α :=
  c.items.find? fun item => key item = k

def put (c : Keyed α key) (item : α) : Keyed α key :=
  ⟨putList key item c.items, nodup_putList item c.distinct⟩

def erase (c : Keyed α key) (k : String) : Keyed α key :=
  ⟨c.items.filter fun item => key item ≠ k,
    c.distinct.sublist (List.filter_sublist.map key)⟩

def size (c : Keyed α key) : Nat := c.items.length

@[simp] theorem find?_empty (k : String) : (empty : Keyed α key).find? k = none := rfl

theorem find?_putList (item : α) (items : List α) (k : String) :
    (putList key item items).find? (fun other => key other = k) =
      if key item = k then some item else items.find? (fun other => key other = k) := by
  induction items with
  | nil => by_cases h : key item = k <;> simp [putList, h]
  | cons first rest ih =>
    by_cases same : key first = key item
    · by_cases h : key item = k
      · simp [putList, same, h]
      · have other : ¬ key first = k := fun e => h (same ▸ e)
        simp [putList, same, h]
    · by_cases h : key item = k
      · have other : ¬ key first = k := fun e => same (e.trans h.symm)
        simp [putList, other, h, ih]
      · simp [putList, same, h, List.find?_cons, ih]

theorem find?_put (c : Keyed α key) (item : α) (k : String) :
    (c.put item).find? k = if key item = k then some item else c.find? k :=
  find?_putList item c.items k

theorem find?_erase (c : Keyed α key) (gone k : String) :
    (c.erase gone).find? k = if gone = k then none else c.find? k := by
  unfold find? erase
  rw [List.find?_filter]
  by_cases h : gone = k
  · subst h
    rw [if_pos rfl, List.find?_eq_none]
    intro item _
    simp
  · rw [if_neg h]
    congr 1
    funext item
    by_cases hk : key item = k
    · have other : ¬ k = gone := fun e => h e.symm
      simp [hk, other]
    · simp [hk]

theorem key_of_find? {c : Keyed α key} {k : String} {item : α} (h : c.find? k = some item) :
    key item = k := by
  simpa using List.find?_some h

end Keyed

end JobQueue
