import JobQueue.Proofs.Store.Calls
import JobQueue.Proofs.Store.Memory
import Mathlib.Data.List.Induction

/-!
# Claims as compare-and-set

A claim compares the reservation that is stored with the expected one and sets it in the same step:
`ClaimsExactly` says of one claim what that means for what `get` shows. A reservation that a claim
has replaced comes back only by a call that writes it (`exists_renewal`).
-/

namespace JobQueue

open Time (Instant)
open RecordStore (reply next)

/-- Whether a call is one that sets the reservation of a record, if it gets that far. -/
def Call.Gives (c : Call) (id : String) (reservedAt : Option Instant) : Prop :=
  match c.request with
  | .save r => r.id = id ∧ r.reservedAt = reservedAt
  | .reserve other _ time => other = id ∧ some time = reservedAt
  | .recordFailure other _ => other = id ∧ none = reservedAt
  | .get _ | .delete _ | .listDue _ _ _ => False

namespace RecordStore

variable {σ : Type} [RecordStore σ] {s : σ} {c first : Call} {calls between : List Call}
  {id : String}

def after (s : σ) (calls : List Call) : σ := calls.foldl next s

@[simp] theorem after_nil : after s [] = s := rfl

@[simp] theorem after_cons : after s (c :: calls) = after (next s c) calls := rfl

@[simp] theorem after_append {more : List Call} :
    after s (calls ++ more) = after (after s calls) more := List.foldl_append ..

/-- Whether a claim at `now` is an exact compare-and-set on what `get` shows, where the store keeps
times as `cut` leaves them. -/
structure ClaimsExactly (cut : Instant → Instant) (s : σ) (now : Instant) (id : String)
    (expected : Option Instant) (time : Instant) : Prop where
  missing (clock : Instant) :
    reply s ⟨now, .reserve id expected time⟩ = .error (.notFound id) ↔
      reply s ⟨clock, .get id⟩ = .ok none
  granted (clock : Instant) :
    reply s ⟨now, .reserve id expected time⟩ = .ok true ↔
      ∃ r, reply s ⟨clock, .get id⟩ = .ok (some r) ∧ r.reservedAt = expected.map cut
  claimed (clock : Instant) : reply s ⟨now, .reserve id expected time⟩ = .ok true →
    ∃ r, reply (next s ⟨now, .reserve id expected time⟩) ⟨clock, .get id⟩ = .ok (some r) ∧
      r.reservedAt = some (cut time)
  /-- After a claim that is refused, no run of calls tells that it was made. -/
  refused (calls : List Call) (c : Call) : reply s ⟨now, .reserve id expected time⟩ = .ok false →
    reply (after s (⟨now, .reserve id expected time⟩ :: calls)) c = reply (after s calls) c
  others (clock : Instant) (other : String) : other ≠ id →
    reply (next s ⟨now, .reserve id expected time⟩) ⟨clock, .get other⟩ =
      reply s ⟨clock, .get other⟩
  /-- What was read is accepted back. -/
  accepted (clock : Instant) (r : Record) : reply s ⟨clock, .get id⟩ = .ok (some r) →
    reply s ⟨now, .reserve id r.reservedAt time⟩ = .ok true

/-- Whether some call of a run set the reservation of a record to the expected one, and left it so
up to the end of the run. `held` reads the reservation that is stored. -/
def Renews (cut : Instant → Instant) (held : σ → Option (Option Instant)) (s : σ) (id : String)
    (expected : Option Instant) (calls : List Call) : Prop :=
  ∃ before c rest given, calls = before ++ c :: rest ∧ c.Gives id given ∧
    given.map cut = expected.map cut ∧
    ∀ more, more <+: rest → held (after s (before ++ c :: more)) = some (expected.map cut)

/-- Whether two claims on a record that are granted over one reservation always have a call from the
first to before the second that set it. -/
def NeedsRenewal (cut : Instant → Instant) (held : σ → Option (Option Instant)) (s : σ)
    (id : String) (expected : Option Instant) : Prop :=
  ∀ ⦃now time : Instant⦄ ⦃between : List Call⦄ ⦃now' time' : Instant⦄,
    reply s ⟨now, .reserve id expected time⟩ = .ok true →
    reply (after s (⟨now, .reserve id expected time⟩ :: between))
      ⟨now', .reserve id expected time'⟩ = .ok true →
    Renews cut held s id expected (⟨now, .reserve id expected time⟩ :: between)

/-- A reservation that is there at the end of a run, which began by setting one, was set by a call
of the run and stayed. -/
theorem exists_renewal {β : Type} {shown : σ → Option β} {code : Option Instant → β} {b : β}
    (change : ∀ s c, shown (next s c) = shown s ∨ shown (next s c) = none ∨
      ∃ given, c.Gives id given ∧ shown (next s c) = some (code given))
    (start : ∃ given, first.Gives id given ∧ shown (next s first) = some (code given))
    (stop : shown (after s (first :: between)) = some b) :
    ∃ before c rest given, first :: between = before ++ c :: rest ∧ c.Gives id given ∧
      code given = b ∧ ∀ more, more <+: rest → shown (after s (before ++ c :: more)) = some b := by
  induction between using List.reverseRecOn with
  | nil =>
    obtain ⟨given, gives, left⟩ := start
    refine ⟨[], first, [], given, rfl, gives, Option.some.inj (left.symm.trans stop), ?_⟩
    intro more short
    rw [List.prefix_nil.mp short]
    exact stop
  | append_singleton between last ih =>
    rw [← List.cons_append, after_append] at stop
    -- the last call set the reservation, or it is what it was before
    rcases change (after s (first :: between)) last with same | gone | ⟨given, gives, left⟩
    · obtain ⟨before, c, rest, given, split, gives, coded, stays⟩ := ih (same.symm.trans stop)
      refine ⟨before, c, rest ++ [last], given, ?_, gives, coded, ?_⟩
      · rw [← List.cons_append, split, List.append_assoc, List.cons_append]
      · intro more short
        rcases List.prefix_concat_iff.mp short with rfl | short
        · rw [← List.cons_append, ← List.append_assoc, ← split, after_append]
          exact stop
        · exact stays more short
    · rw [after_cons, after_nil, gone] at stop
      cases stop
    · refine ⟨first :: between, last, [], given, rfl, gives,
        Option.some.inj (left.symm.trans stop), ?_⟩
      intro more short
      rw [List.prefix_nil.mp short, after_append]
      exact stop

end RecordStore

namespace MemoryStore

open RecordStore (ClaimsExactly NeedsRenewal exists_renewal)

variable {s : MemoryStore} {id : String} {expected : Option Instant} {now time : Instant}

theorem reply_get {clock : Instant} : reply s ⟨clock, .get id⟩ = .ok (s.find? id) := rfl

theorem reply_reserve : reply s ⟨now, .reserve id expected time⟩ = (s.reserve id expected time).1 :=
  rfl

theorem next_reserve : next s ⟨now, .reserve id expected time⟩ = (s.reserve id expected time).2 :=
  rfl

theorem claimsExactly : ClaimsExactly (fun t => t) s now id expected time := by
  cases there : s.find? id with
  | none =>
    have answer : s.reserve id expected time = _ := reserve_missing there
    constructor <;> simp [reply_reserve, next_reserve, reply_get, answer, there]
  | some r =>
    by_cases same : r.reservedAt = expected
    · have answer : s.reserve id expected time = _ := reserve_same there same
      constructor
      case missing => simp [reply_reserve, reply_get, answer, there]
      case granted => simp [reply_reserve, reply_get, answer, there, same]
      case claimed =>
        intro clock _
        refine ⟨r.reserve time, ?_, rfl⟩
        simp [next_reserve, reply_get, answer, find?_put_reserve there]
      case refused => simp [reply_reserve, answer]
      case others =>
        intro clock other differ
        simp [next_reserve, reply_get, answer, find?_put_reserve there, Ne.symm differ]
      case accepted => simp [reply_reserve, reply_get, there, same, answer]
    · have answer : s.reserve id expected time = _ := reserve_other there same
      constructor
      case missing => simp [reply_reserve, reply_get, answer, there]
      case granted => simp [reply_reserve, reply_get, answer, there, same]
      case claimed => simp [reply_reserve, answer]
      case refused => simp [next_reserve, answer]
      case others => simp [next_reserve, reply_get, answer]
      case accepted =>
        intro clock found got
        obtain rfl := Option.some.inj (there.symm.trans (Except.ok.inj got))
        simp [reply_reserve, reserve_same there rfl]

def held (id : String) (s : MemoryStore) : Option (Option Instant) :=
  (s.find? id).map Record.reservedAt

theorem held_next (s : MemoryStore) (c : Call) : held id (next s c) = held id s ∨
    held id (next s c) = none ∨ ∃ given, c.Gives id given ∧ held id (next s c) = some given := by
  obtain ⟨clock, q⟩ := c
  cases q with
  | get | listDue => exact .inl rfl
  | save r =>
    have after : held id (next s ⟨clock, .save r⟩) =
        if r.id = id then some r.reservedAt else held id s := by
      simp only [held, next, RecordStore.answer, save, Keyed.find?_put]
      split <;> rfl
    by_cases its : r.id = id
    · exact .inr (.inr ⟨r.reservedAt, ⟨its, rfl⟩, by rw [after, if_pos its]⟩)
    · exact .inl (by rw [after, if_neg its])
  | reserve other wanted time =>
    cases there : s.find? other with
    | none => exact .inl (by rw [next_reserve, reserve_missing there])
    | some r =>
      by_cases same : r.reservedAt = wanted
      · rw [next_reserve, reserve_same there same]
        by_cases its : other = id
        · refine .inr (.inr ⟨some time, ⟨its, rfl⟩, ?_⟩)
          rw [held, find?_put_reserve there, if_pos its]
          rfl
        · exact .inl (by rw [held, find?_put_reserve there, if_neg its, held])
      · exact .inl (by rw [next_reserve, reserve_other there same])
  | recordFailure other time =>
    have answer : next s ⟨clock, .recordFailure other time⟩ = (s.recordFailure other time).2 := rfl
    cases there : s.find? other with
    | none => exact .inl (by rw [answer, recordFailure_missing there])
    | some r =>
      rw [answer, recordFailure_there there]
      by_cases its : other = id
      · refine .inr (.inr ⟨none, ⟨its, rfl⟩, ?_⟩)
        rw [held, find?_put_recordFailure there, if_pos its]
        rfl
      · exact .inl (by rw [held, find?_put_recordFailure there, if_neg its, held])
  | delete other =>
    have answer : next s ⟨clock, .delete other⟩ = (s.delete other).2 := rfl
    cases there : s.find? other with
    | none => exact .inl (by rw [answer, delete_missing there])
    | some r =>
      rw [answer, delete_there there]
      by_cases its : other = id
      · exact .inr (.inl (by rw [held, Keyed.find?_erase, if_pos its]; rfl))
      · exact .inl (by rw [held, Keyed.find?_erase, if_neg its, held])

theorem held_of_granted (granted : reply s ⟨now, .reserve id expected time⟩ = .ok true) :
    held id s = some expected ∧
      held id (next s ⟨now, .reserve id expected time⟩) = some (some time) := by
  obtain ⟨r, got, same⟩ := (claimsExactly.granted .epoch).mp granted
  obtain ⟨r', got', same'⟩ := claimsExactly.claimed .epoch granted
  exact ⟨by simp [held, Except.ok.inj got, same], by simp [held, Except.ok.inj got', same']⟩

theorem needsRenewal : NeedsRenewal (fun t => t) (held id) s id expected := by
  intro now time between now' time' first second
  have start : ∃ given, Call.Gives ⟨now, .reserve id expected time⟩ id given ∧
      held id (next s ⟨now, .reserve id expected time⟩) = some given :=
    ⟨some time, ⟨rfl, rfl⟩, (held_of_granted first).2⟩
  obtain ⟨before, c, rest, given, split, gives, coded, stays⟩ :=
    exists_renewal held_next start (held_of_granted second).1
  refine ⟨before, c, rest, given, split, gives, by rw [coded], ?_⟩
  simpa using stays

end MemoryStore

end JobQueue
