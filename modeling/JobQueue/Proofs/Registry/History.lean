import JobQueue.Proofs.Registry
import JobQueue.Proofs.Text.Bytes

/-!
# The first registration wins

What a registry holds is what its calls made of it: the entries of those that succeeded, in order
(`handlers_after`). So every look-up, the listing and the size tell of the first call for a type,
and a call that is refused changes none of them, then or later (`first_registration_wins`).
-/

namespace JobQueue.Registry

variable {α : Type} {g g' : Registry α} {call : String × α} {calls more : List (String × α)}
  {type : String} {h : α} {e : RegistryError}

/-- A registry after a call to register a handler. One that is refused leaves it as it is. -/
def next (g : Registry α) (call : String × α) : Registry α :=
  (g.register call.1 call.2).toOption.getD g

def after (g : Registry α) (calls : List (String × α)) : Registry α := calls.foldl next g

def accepted (g : Registry α) : List (String × α) → List (String × α)
  | [] => []
  | call :: rest =>
    match g.register call.1 call.2 with
    | .ok g' => call :: accepted g' rest
    | .error _ => accepted g rest

-- ---------------------------------------------------------------------------
-- One call
-- ---------------------------------------------------------------------------

theorem exists_register_iff : (∃ g', g.register type h = .ok g') ↔
    Text.blank type = false ∧ type ∉ g.handlers.map Prod.fst := by
  unfold register
  split
  · next blank => simp [blank]
  · next named =>
    split
    · next taken => simp [taken]
    · next free => exact iff_of_true ⟨_, rfl⟩ ⟨Bool.not_eq_true _ ▸ named, free⟩

theorem register_eq_error_iff : g.register type h = .error e ↔
    Text.blank type = true ∧ e = .emptyType ∨
      Text.blank type = false ∧ type ∈ g.handlers.map Prod.fst ∧ e = .duplicate type := by
  unfold register
  split
  · next blank => simp [blank, eq_comm]
  · next named =>
    have named : Text.blank type = false := Bool.not_eq_true _ ▸ named
    split
    · next taken => simp [named, taken, eq_comm]
    · next free => simp [named, free]

theorem next_of_ok (accepts : g.register call.1 call.2 = .ok g') : g.next call = g' := by
  rw [next, accepts]
  rfl

theorem next_of_error (refuses : g.register call.1 call.2 = .error e) : g.next call = g := by
  rw [next, refuses]
  rfl

theorem after_append : g.after (calls ++ more) = (g.after calls).after more := List.foldl_append

-- ---------------------------------------------------------------------------
-- Calls that succeed
-- ---------------------------------------------------------------------------

theorem accepted_of_ok (accepts : g.register call.1 call.2 = .ok g') :
    g.accepted (call :: calls) = call :: g'.accepted calls := by
  rw [accepted, accepts]

theorem accepted_of_error (refuses : g.register call.1 call.2 = .error e) :
    g.accepted (call :: calls) = g.accepted calls := by
  rw [accepted, refuses]

theorem handlers_after : (g.after calls).handlers = g.handlers ++ g.accepted calls := by
  induction calls generalizing g with
  | nil => simp [after, accepted]
  | cons call calls ih =>
    rw [after, List.foldl_cons]
    change ((g.next call).after calls).handlers = _
    rw [ih]
    cases answer : g.register call.1 call.2 with
    | ok g' =>
      have grown : g'.handlers = g.handlers ++ [call] := (Registers.cases answer).2
      rw [next_of_ok answer, accepted_of_ok answer, grown]
      simp
    | error e => rw [next_of_error answer, accepted_of_error answer]

/-- The first call for a type that succeeds is the first for it, unless it is blank or taken. -/
theorem find?_accepted :
    (g.accepted calls).find? (fun first => first.1 = type) =
      if Text.blank type = true ∨ type ∈ g.handlers.map Prod.fst then none
      else calls.find? fun first => first.1 = type := by
  induction calls generalizing g with
  | nil => simp [accepted]
  | cons call calls ih =>
    cases answer : g.register call.1 call.2 with
    | ok g' =>
      obtain ⟨named, free⟩ := exists_register_iff.mp ⟨g', answer⟩
      have grown : g'.handlers = g.handlers ++ [call] := (Registers.cases answer).2
      rw [accepted_of_ok answer]
      by_cases same : call.1 = type
      · subst same
        simp [named, free]
      · have other : ¬ type = call.1 := fun e => same e.symm
        have taken : type ∈ g'.handlers.map Prod.fst ↔ type ∈ g.handlers.map Prod.fst := by
          rw [grown]
          simp [other]
        rw [List.find?_cons_of_neg (by simpa using same), ih,
          List.find?_cons_of_neg (by simpa using same)]
        simp only [taken]
    | error e =>
      rw [accepted_of_error answer, ih]
      by_cases same : call.1 = type
      · subst same
        rcases register_eq_error_iff.mp answer with ⟨blank, _⟩ | ⟨_, taken, _⟩
        · simp [blank]
        · simp [taken]
      · rw [List.find?_cons_of_neg (by simpa using same)]

-- ---------------------------------------------------------------------------
-- What a registry shows
-- ---------------------------------------------------------------------------

theorem get_eq : g.get type =
    (g.handlers.find? fun first => first.1 = type).elim (.error (.notFound type))
      fun first => .ok first.2 := by
  unfold get find?
  cases g.handlers.find? fun first => first.1 = type <;> rfl

theorem has_iff : g.has type = true ↔ ∃ h, g.get type = .ok h := by
  rw [has, get_eq, List.any_eq_true]
  cases found : g.handlers.find? fun first => first.1 = type with
  | none =>
    refine iff_of_false ?_ (by simp)
    rintro ⟨first, member, same⟩
    exact List.find?_eq_none.mp found first member same
  | some first =>
    have same : first.1 = type := by simpa using List.find?_some found
    exact iff_of_true ⟨first, List.mem_of_find?_eq_some found, by simp [same]⟩ ⟨first.2, rfl⟩

theorem mem_types : type ∈ g.types ↔ type ∈ g.handlers.map Prod.fst :=
  (List.mergeSort_perm _ _).mem_iff

theorem length_types : g.types.length = g.size := by
  rw [types, List.length_mergeSort, List.length_map, size]

theorem types_sorted : g.types.Pairwise (· ≤ ·) := by
  have sorted : g.types.Pairwise fun a b => decide (a ≤ b) = true := by
    refine List.pairwise_mergeSort (fun a b c first second => ?_) (fun a b => ?_) _
    · rw [decide_eq_true_iff] at first second ⊢
      exact String.le_trans first second
    · simpa using String.le_total a b
  exact sorted.imp fun le => of_decide_eq_true le

theorem types_ascending : g.types.Pairwise fun a b => Text.bytes a < Text.bytes b := by
  have distinct : g.types.Nodup := (List.mergeSort_perm _ _).nodup_iff.mpr g.nodup
  exact types_sorted.imp₂ (fun a b le ne => Text.bytes_lt_iff.mpr (lt_of_le_of_ne le ne)) distinct

theorem isEmpty_iff : g.isEmpty = true ↔ g.size = 0 := by
  rw [isEmpty, size, List.isEmpty_iff, List.length_eq_zero_iff]

-- ---------------------------------------------------------------------------
-- Histories
-- ---------------------------------------------------------------------------

/-- After any calls to register handlers in a new registry, the next call succeeds exactly if its
type is not blank and no call for the same text succeeded before; one that is refused says why, and
the registry is then and later as if it had not been made. A type has the handler of the first call
for it that succeeded, which is the first call for it at all unless it is blank, and the registry
says of no other type that it has one. The types are listed in ascending order of their bytes, each
of them once. -/
theorem first_registration_wins (calls : List (String × α)) :
    (∀ call : String × α, (∃ g, (empty.after calls).register call.1 call.2 = .ok g) ↔
      (∃ c ∈ call.1.toList, Text.isBlank c = false) ∧
        ∀ earlier ∈ empty.accepted calls, earlier.1 ≠ call.1) ∧
    (∀ (call : String × α) e, (empty.after calls).register call.1 call.2 = .error e →
      (e = if Text.blank call.1 then .emptyType else .duplicate call.1) ∧
        ∀ more, empty.after (calls ++ call :: more) = empty.after (calls ++ more)) ∧
    (∀ type, (empty.after calls).get type =
      ((empty.accepted calls).find? fun first => first.1 = type).elim (.error (.notFound type))
        fun first => .ok first.2) ∧
    (∀ type, (empty.accepted calls).find? (fun first => first.1 = type) =
      if Text.blank type then none else calls.find? fun first => first.1 = type) ∧
    (∀ type, (empty.after calls).has type = true ↔ ∃ h, (empty.after calls).get type = .ok h) ∧
    (empty.after calls).types.Pairwise (fun a b => Text.bytes a < Text.bytes b) ∧
    (∀ type, type ∈ (empty.after calls).types ↔ ∃ first ∈ empty.accepted calls, first.1 = type) ∧
    (empty.after calls).size = (empty.after calls).types.length ∧
    ((empty.after calls).isEmpty = true ↔ (empty.after calls).size = 0) := by
  have held : (empty.after calls).handlers = empty.accepted calls := handlers_after
  refine ⟨fun call => ?_, fun call e refuses => ⟨?_, fun more => ?_⟩, fun type => ?_,
    fun type => ?_, fun type => has_iff, types_ascending, fun type => ?_, length_types.symm,
    isEmpty_iff⟩
  · rw [exists_register_iff, held]
    simp only [Text.blank, List.all_eq_false, List.mem_map, not_exists, not_and, Bool.not_eq_true]
  · rcases register_eq_error_iff.mp refuses with ⟨blank, rfl⟩ | ⟨named, _, rfl⟩
    · rw [if_pos blank]
    · simp [named]
  · rw [after_append, after_append, after, List.foldl_cons, next_of_error refuses]
    rfl
  · rw [get_eq, held]
  · rw [find?_accepted]
    simp [empty]
  · rw [mem_types, held, List.mem_map]

/-- Types that differ only in blanks or in case are different types. -/
def similarTypes : List (String × Nat) :=
  [("mail", 0), ("Mail", 1), ("mail", 2), (" ", 3), (" mail", 4), ("", 5), ("mail", 6)]

theorem first_registration_wins_similarTypes :
    (empty.after similarTypes).register "Mail" 7 = .error (.duplicate "Mail") ∧
      empty.after (similarTypes ++ [("Mail", 7), ("fax", 8)]) =
        empty.after (similarTypes ++ [("fax", 8)]) ∧
      (empty.after similarTypes).get "mail" = .ok 0 ∧ (empty.after similarTypes).size = 3 := by
  have refuses : (empty.after similarTypes).register "Mail" 7 = .error (.duplicate "Mail") := by
    rw [register_eq_error_iff]
    decide +kernel
  exact ⟨refuses, ((first_registration_wins similarTypes).2.1 ("Mail", 7) _ refuses).2 [("fax", 8)],
    by rw [(first_registration_wins similarTypes).2.2.1 "mail"]; decide +kernel, by decide +kernel⟩

end JobQueue.Registry
