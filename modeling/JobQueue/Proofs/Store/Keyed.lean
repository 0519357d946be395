import JobQueue.Keyed
import Mathlib.Data.List.Forall2
import Mathlib.Data.List.Nodup

/-!
# Collections item by item

Two collections whose items correspond, place by place and under the same keys, still do so after
the same change of both. The first items that pass a test, by an order, are told without mention of
how they are sorted (`Keyed.IsFirst`).
-/

namespace JobQueue.Keyed

variable {α β : Type} {key : α → String} {key' : β → String} {c : Keyed α key} {d : Keyed β key'}
  {R : α → β → Prop} {a : α} {b : β} {k : String}

theorem mem_of_find? (h : c.find? k = some a) : a ∈ c.items :=
  List.mem_of_find?_eq_some h

theorem find?_of_mem (h : a ∈ c.items) : c.find? (key a) = some a := by
  cases found : c.find? (key a) with
  | none => simpa using List.find?_eq_none.mp found a h
  | some other =>
    rw [List.inj_on_of_nodup_map c.distinct (mem_of_find? found) h (key_of_find? found)]

-- ---------------------------------------------------------------------------
-- Items that correspond
-- ---------------------------------------------------------------------------

theorem forall₂_trans_iff {γ : Type} {Q : β → γ → Prop} {xs : List α} {zs : List γ} :
    (∃ ys, List.Forall₂ R xs ys ∧ List.Forall₂ Q ys zs) ↔
      List.Forall₂ (fun x z => ∃ y, R x y ∧ Q y z) xs zs := by
  constructor
  · rintro ⟨ys, first, second⟩
    induction first generalizing zs with
    | nil =>
      cases second
      exact .nil
    | cons hx _ ih =>
      cases second with
      | cons hz rest => exact .cons ⟨_, hx, hz⟩ (ih rest)
  · intro both
    induction both with
    | nil => exact ⟨[], .nil, .nil⟩
    | cons step _ ih =>
      obtain ⟨y, hx, hz⟩ := step
      obtain ⟨ys, first, second⟩ := ih
      exact ⟨y :: ys, .cons hx first, .cons hz second⟩

theorem forall₂_putList (same : ∀ a b, R a b → key a = key' b) {xs : List α} {ys : List β}
    (h : List.Forall₂ R xs ys) (hab : R a b) :
    List.Forall₂ R (putList key a xs) (putList key' b ys) := by
  induction h with
  | nil => exact .cons hab .nil
  | @cons x y xs ys first rest ih =>
    have keys : key x = key a ↔ key' y = key' b := by rw [same x y first, same a b hab]
    unfold putList
    split
    · next there => exact if_pos (keys.mp there) ▸ .cons hab rest
    · next other => exact if_neg (other ∘ keys.mpr) ▸ .cons first ih

theorem forall₂_put (same : ∀ a b, R a b → key a = key' b) (h : List.Forall₂ R c.items d.items)
    (hab : R a b) : List.Forall₂ R (c.put a).items (d.put b).items :=
  forall₂_putList same h hab

theorem forall₂_erase (same : ∀ a b, R a b → key a = key' b) (h : List.Forall₂ R c.items d.items) :
    List.Forall₂ R (c.erase k).items (d.erase k).items := by
  refine List.rel_filter (fun a b hab => ?_) h
  simp [same a b hab]

theorem forall₂_find? (same : ∀ a b, R a b → key a = key' b) (h : List.Forall₂ R c.items d.items)
    (k : String) : c.find? k = none ∧ d.find? k = none ∨
      ∃ a b, c.find? k = some a ∧ d.find? k = some b ∧ R a b := by
  unfold find?
  generalize c.items = xs at h
  generalize d.items = ys at h
  induction h with
  | nil => exact .inl ⟨rfl, rfl⟩
  | @cons x y xs ys first rest ih =>
    have keys := same x y first
    by_cases there : key x = k
    · exact .inr ⟨x, y, by simp [there], by simp [← keys, there], first⟩
    · have there' : key' y ≠ k := keys ▸ there
      simpa [List.find?_cons, there, there'] using ih

theorem exists_of_forall₂_left {xs : List α} {ys : List β} (h : List.Forall₂ R xs ys)
    (ha : a ∈ xs) : ∃ b ∈ ys, R a b := by
  obtain ⟨i, hi, rfl⟩ := List.getElem_of_mem ha
  have hi' : i < ys.length := h.length_eq ▸ hi
  exact ⟨ys[i], List.getElem_mem hi', h.get hi hi'⟩

theorem exists_of_forall₂_right {xs : List α} {ys : List β} (h : List.Forall₂ R xs ys)
    (hb : b ∈ ys) : ∃ a ∈ xs, R a b := by
  obtain ⟨i, hi, rfl⟩ := List.getElem_of_mem hb
  have hi' : i < xs.length := h.length_eq ▸ hi
  exact ⟨xs[i], List.getElem_mem hi', h.get hi' hi⟩

theorem pairwise_of_forall₂ {S : α → α → Prop} {T : β → β → Prop} {xs : List α} {ys : List β}
    (step : ∀ a a' b b', R a b → R a' b' → S a a' → T b b') (h : List.Forall₂ R xs ys)
    (pairwise : xs.Pairwise S) : ys.Pairwise T := by
  rw [List.pairwise_iff_getElem] at pairwise ⊢
  intro i j hi hj before
  have hi' : i < xs.length := h.length_eq ▸ hi
  have hj' : j < xs.length := h.length_eq ▸ hj
  exact step xs[i] xs[j] ys[i] ys[j] (h.get hi' hi) (h.get hj' hj) (pairwise i j hi' hj' before)

theorem forall₂_mergeSort {le : α → α → Bool} {le' : β → β → Bool}
    (agree : ∀ a b a' b', R a b → R a' b' → le a a' = le' b b') {xs : List α} {ys : List β}
    (h : List.Forall₂ R xs ys) : List.Forall₂ R (xs.mergeSort le) (ys.mergeSort le') := by
  have pairs : ∀ p ∈ xs.zip ys, R p.1 p.2 := fun p mem => List.forall₂_zip h mem
  have left : xs.mergeSort le =
      ((xs.zip ys).mergeSort fun p q => le p.1 q.1).map Prod.fst := by
    rw [List.map_mergeSort (s := le) fun p _ q _ => rfl,
      List.map_fst_zip (Nat.le_of_eq h.length_eq)]
  have right : ys.mergeSort le' =
      ((xs.zip ys).mergeSort fun p q => le p.1 q.1).map Prod.snd := by
    rw [List.map_mergeSort (s := le') fun p hp q hq =>
      agree _ _ _ _ (pairs p hp) (pairs q hq), List.map_snd_zip (Nat.le_of_eq h.length_eq.symm)]
  rw [left, right, List.forall₂_map_left_iff, List.forall₂_map_right_iff, List.forall₂_same]
  exact fun p mem => pairs p (List.mem_mergeSort.mp mem)

-- ---------------------------------------------------------------------------
-- The first items
-- ---------------------------------------------------------------------------

structure IsFirst (c : Keyed α key) (passes : α → Bool) (le : α → α → Bool) (limit : Nat)
    (first : List α) : Prop where
  ordered : first.Pairwise fun a b => le a b = true
  distinct : (first.map key).Nodup
  stored : ∀ a ∈ first, a ∈ c.items
  passed : ∀ a ∈ first, passes a = true
  short : first.length ≤ limit
  full : first.length < limit → ∀ a ∈ c.items, passes a = true → a ∈ first
  before : ∀ a ∈ c.items, passes a = true → a ∉ first → ∀ b ∈ first, le b a = true

theorem isFirst_take_mergeSort {passes : α → Bool} {le : α → α → Bool} {limit : Nat}
    (trans : ∀ a b c, le a b = true → le b c = true → le a c = true)
    (total : ∀ a b, (le a b || le b a) = true) :
    c.IsFirst passes le limit (((c.items.filter passes).mergeSort le).take limit) := by
  let all := (c.items.filter passes).mergeSort le
  have sorted : all.Pairwise fun a b => le a b = true := List.pairwise_mergeSort trans total _
  have distinct : (all.map key).Nodup :=
    ((List.mergeSort_perm _ _).map key).nodup_iff.mpr
      (c.distinct.sublist (List.filter_sublist.map key))
  have mem {a : α} : a ∈ all ↔ a ∈ c.items ∧ passes a = true := by
    rw [List.mem_mergeSort, List.mem_filter]
  change c.IsFirst passes le limit (all.take limit)
  constructor
  case ordered => exact sorted.sublist (List.take_sublist _ _)
  case distinct => exact distinct.sublist ((List.take_sublist _ _).map _)
  case stored => exact fun a member => (mem.mp (List.mem_of_mem_take member)).1
  case passed => exact fun a member => (mem.mp (List.mem_of_mem_take member)).2
  case short => exact List.length_take_le _ _
  case full =>
    intro few a stored passed
    rw [List.length_take] at few
    rw [List.take_of_length_le (by omega)]
    exact mem.mpr ⟨stored, passed⟩
  case before =>
    intro a stored passed left b member
    have either : a ∈ all.take limit ++ all.drop limit := by
      rw [List.take_append_drop]
      exact mem.mpr ⟨stored, passed⟩
    have later := (List.mem_append.mp either).resolve_left left
    rw [← List.take_append_drop limit all] at sorted
    exact (List.pairwise_append.mp sorted).2.2 b member a later

end JobQueue.Keyed
