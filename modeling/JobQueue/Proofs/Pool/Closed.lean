import JobQueue.Proofs.Pool.Drain

/-!
# Pools that are closed

Whoever has a pool at hand may move it on, register handlers in it and ask for it to be shut down,
as long as he likes. It takes batches until the first call to shut it down
(`accepting_iff_of_trace`). From then on each batch that gets its turn is refused, those that wait
by then before those that are submitted later, and no other call returns but the one whose batch had
its turn (`dismisses_of_trace`).
-/

namespace JobQueue

/-- What the call with a batch returns if the pool is closed when the batch gets its turn. -/
def Submission.refused (s : Submission) : Nat × List JobOutcome :=
  (s.ticket, Pool.refusal s.records)

namespace Pool

/-- What is done with a pool by somebody who has it at hand. -/
inductive Deed
  | moved (b : Beat)
  | registered (jobType : String)

namespace Deed

def closes : Deed → Bool
  | moved b => b.move = .shutdown
  | registered _ => false

def submitted : Deed → List Submission
  | moved ⟨_, .submit ticket records, _, _⟩ => if records.isEmpty then [] else [⟨ticket, records⟩]
  | _ => []

def begun : Deed → List (Nat × List JobOutcome)
  | moved b => if b.move = .begin then b.returned else []
  | registered _ => []

def ended : Deed → List (Nat × List JobOutcome)
  | moved b => if b.move = .begin then [] else b.returned
  | registered _ => []

end Deed

inductive Does {σ : Type} [RecordStore σ] : Pool σ → Deed → Pool σ → Prop
  | moved {p p' : Pool σ} {b : Beat} (step : Step p b p') : Does p (.moved b) p'
  | registered {p : Pool σ} {type : String} {handler : Handler σ} {registry : Registry (Handler σ)}
      (registers : p.registry.register type handler = .ok registry) :
      Does p (.registered type) { p with registry }

def served? {σ : Type} (p : Pool σ) : Option Nat := p.turn.map Turn.ticket

/-- What a closed pool does with the batches that wait: each of them is refused when it is next, in
order. No other call returns but the one whose batch has its turn, and no batch has one after it. -/
structure Dismisses {σ : Type} (p : Pool σ) (deeds : List Deed) (p' : Pool σ) : Prop where
  refused : deeds.flatMap Deed.begun ++ p'.line.map Submission.refused =
    (p.line ++ deeds.flatMap Deed.submitted).map Submission.refused
  ended : ∀ call ∈ deeds.flatMap Deed.ended, p.served? = some call.1
  served : p'.served? = none ∨ p'.served? = p.served?

end Pool

namespace Watched

open Time (Instant)
open Pool (Move Deed)

variable {σ : Type} [RecordStore σ] {w : Watched σ} {f : Floor σ} {now : Instant} {s s' : σ}
  {m : Move}

theorem Change.accepts (change : w.Change now s m f s') (accepting : w.floor.accepting = true)
    (other : m ≠ .shutdown) : f.accepting = true := by
  cases change with
  | closed why =>
    cases why with
    | first => exact absurd rfl other
    | again => exact absurd rfl other
    | drained => exact accepting
    | missed => exact accepting
  | _ => exact accepting

end Watched

namespace Pool

variable {σ : Type} [RecordStore σ] {p p' p'' : Pool σ} {b : Beat} {deed : Deed}
  {deeds more : List Deed}

-- ---------------------------------------------------------------------------
-- Settings, and whether batches are taken
-- ---------------------------------------------------------------------------

theorem Step.exists_watched (step : Step p b p') : ∃ ds, Watched.Step ⟨p, []⟩ b ⟨p', ds⟩ := by
  cases step with
  | of h => exact ⟨_, .of_pool h⟩

theorem Step.settings (step : Step p b p') : p'.settings = p.settings := by
  obtain ⟨ds, step⟩ := step.exists_watched
  exact step.rules.1

theorem Step.accepting_iff (step : Step p b p') :
    p'.accepting = true ↔ p.accepting = true ∧ b.move ≠ .shutdown := by
  obtain ⟨ds, step⟩ := step.exists_watched
  cases step with
  | @of _ _ _ now m events h =>
    have change := Watched.change_of_step? h
    constructor
    · intro accepting
      have refuses (closed : p.accepting = false ∨ m = .shutdown) : False := by
        cases (change.refuses closed).symm.trans accepting
      exact ⟨by simpa using mt .inl refuses, fun asked => refuses (.inr asked)⟩
    · exact fun ⟨accepting, other⟩ => change.accepts accepting other

theorem Does.settings (does : Does p deed p') : p'.settings = p.settings := by
  cases does with
  | moved step => exact step.settings
  | registered => rfl

theorem Does.accepting_iff (does : Does p deed p') :
    p'.accepting = true ↔ p.accepting = true ∧ deed.closes = false := by
  cases does with
  | moved step => simpa [Deed.closes] using step.accepting_iff
  | registered => simp [Deed.closes]

theorem settings_of_trace (run : Trace Does p deeds p') : p'.settings = p.settings :=
  run.keeps (fun same does => does.settings.trans same) rfl

/-- A pool takes batches until it is asked to shut down. -/
theorem accepting_iff_of_trace (run : Trace Does p deeds p') :
    p'.accepting = true ↔ p.accepting = true ∧ ∀ deed ∈ deeds, deed.closes = false := by
  induction run with
  | nil => simp
  | snoc _ last ih =>
    rw [last.accepting_iff, ih]
    simp [or_imp, forall_and, and_assoc]

-- ---------------------------------------------------------------------------
-- Batches that wait
-- ---------------------------------------------------------------------------

omit [RecordStore σ] in
theorem Dismisses.refl : p.Dismisses [] p := ⟨by simp, by simp, .inr rfl⟩

omit [RecordStore σ] in
theorem Dismisses.append (first : p.Dismisses deeds p') (second : p'.Dismisses more p'') :
    p.Dismisses (deeds ++ more) p'' where
  refused := by
    rw [List.flatMap_append, List.flatMap_append, List.append_assoc, second.refused,
      List.map_append, ← List.append_assoc, first.refused, ← List.map_append, List.append_assoc]
  ended call member := by
    rw [List.flatMap_append] at member
    rcases List.mem_append.mp member with earlier | later
    · exact first.ended call earlier
    · have its := second.ended call later
      rcases first.served with idle | same
      · cases idle.symm.trans its
      · exact same.symm.trans its
  served := second.served.elim .inl fun same => same ▸ first.served

theorem Step.of_submit {ticket : Nat} {records : List Record} (step : Step p b p')
    (its : b.move = .submit ticket records) :
    p'.line = p.line ++ Deed.submitted (.moved b) ∧ p'.turn = p.turn := by
  cases step with
  | of h =>
    subst its
    obtain rfl : (p.submit ticket records).1 = p' := congrArg Prod.fst (Option.some.inj h)
    simp only [submit, Deed.submitted]
    split <;> simp

theorem Deed.submitted_of_other (other : ∀ ticket records, b.move ≠ .submit ticket records) :
    Deed.submitted (.moved b) = [] := by
  obtain ⟨now, m, n, events⟩ := b
  cases m with
  | submit ticket records => exact absurd rfl (other ticket records)
  | _ => rfl

omit [RecordStore σ] in
theorem Dismisses.of_submit {ticket : Nat} {records : List Record}
    (its : b.move = .submit ticket records) (line : p'.line = p.line ++ Deed.submitted (.moved b))
    (turn : p'.turn = p.turn) : p.Dismisses [.moved b] p' := by
  have silent : b.returned = [] := by rw [Beat.returned, its]
  refine ⟨by simp [Deed.begun, its, line], by simp [Deed.ended, silent], .inr ?_⟩
  rw [served?, turn, served?]

omit [RecordStore σ] in
theorem Dismisses.of_line (later : b.move ≠ .begin)
    (other : ∀ ticket records, b.move ≠ .submit ticket records) (line : p'.line = p.line)
    (ended : ∀ call ∈ b.returned, p.served? = some call.1)
    (served : p'.served? = none ∨ p'.served? = p.served?) : p.Dismisses [.moved b] p' := by
  refine ⟨?_, by simpa [Deed.ended, later] using ended, served⟩
  simp [Deed.begun, later, Deed.submitted_of_other other, line]

omit [RecordStore σ] in
theorem Dismisses.of_settle {t : Turn} {c : Collection} {results : List Report}
    (later : b.move ≠ .begin) (other : ∀ ticket records, b.move ≠ .submit ticket records)
    (its : p.turn = some t) (events : b.events = ({ p with results }.settle t c).2) :
    p.Dismisses [.moved b] ({ p with results }.settle t c).1 := by
  have served : p.served? = some t.ticket := congrArg (Option.map _) its
  refine .of_line later other ?_ (fun call member => ?_) ?_
  · unfold settle
    split <;> rfl
  · have said := Beat.mem_events_of_returned member
    rw [events] at said
    unfold settle at said
    split at said
    · rw [served, (Event.returned.inj (List.mem_singleton.mp said)).1]
    · cases said
  · unfold settle
    split
    · exact .inl rfl
    · exact .inr served.symm

theorem Step.dismisses (step : Step p b p') (closed : p.accepting = false ∨ b.move = .shutdown) :
    p.Dismisses [.moved b] p' := by
  by_cases brings : ∃ ticket records, b.move = .submit ticket records
  · obtain ⟨ticket, records, its⟩ := brings
    exact .of_submit its (step.of_submit its).1 (step.of_submit its).2
  · have other (ticket : Nat) (records : List Record) : b.move ≠ .submit ticket records :=
      fun its => brings ⟨ticket, records, its⟩
    have effect := step.effect
    cases effect with
    | submitted => exact absurd rfl (other _ _)
    | begun _ _ accepting => cases (closed.resolve_right (by simp)).symm.trans accepting
    | refused _ first =>
      refine ⟨?_, by simp [Deed.ended], .inr rfl⟩
      simp [Deed.begun, Deed.submitted, Beat.returned, Event.returned?, first, Submission.refused]
    | told results notice its =>
      refine .of_settle ?_ other its rfl
      rintro rfl
      cases notice
    | @stuck now t its =>
      refine .of_line (by simp) other rfl (fun call member => ?_) (.inl rfl)
      obtain rfl := List.mem_singleton.mp member
      exact congrArg (Option.map _) its
    | framed none later frame silent =>
      refine .of_line later other frame.line (by simp [silent]) (.inr ?_)
      have collecting := congrArg (Option.map Prod.fst) frame.collecting
      simpa [collecting?, served?, Function.comp_def] using collecting

theorem Does.dismisses (does : Does p deed p')
    (closed : p.accepting = false ∨ deed.closes = true) : p.Dismisses [deed] p' := by
  cases does with
  | moved step => exact step.dismisses (closed.imp_right of_decide_eq_true)
  | registered => exact ⟨by simp [Deed.begun, Deed.submitted], by simp [Deed.ended], .inr rfl⟩

/-- Once a pool is closed, every batch that has not got its turn is refused. -/
theorem dismisses_of_trace (run : Trace Does p deeds p') (closed : p.accepting = false) :
    p.Dismisses deeds p' := by
  induction run with
  | nil => exact .refl
  | snoc before last ih =>
    refine ih.append (last.dismisses (.inl ?_))
    rw [Bool.eq_false_iff, ne_eq, accepting_iff_of_trace before]
    simp [closed]

theorem dismisses_of_closes (run : Trace Does p (deed :: deeds) p') (closes : deed.closes = true) :
    p.Dismisses (deed :: deeds) p' := by
  obtain ⟨q, first, rest⟩ := run.cons_cases
  have closed : q.accepting = false := by
    rw [Bool.eq_false_iff, ne_eq, first.accepting_iff]
    simp [closes]
  exact (first.dismisses (.inr closes)).append (dismisses_of_trace rest closed)

theorem exists_begin (idle : p.served? = none) (waits : p.line ≠ []) (now : Time.Instant)
    (store : σ) : ∃ next, p.step? now store .begin = some next := by
  obtain ⟨next, rest, line⟩ := List.exists_cons_of_ne_nil waits
  have turn : p.turn = none := Option.map_eq_none_iff.mp idle
  have begins : ∃ next, p.begin? = some next := by
    simp only [begin?, turn, line]
    split
    · exact ⟨_, rfl⟩
    · exact ⟨_, rfl⟩
  obtain ⟨⟨p', events⟩, begins⟩ := begins
  exact ⟨(p', store, events), by simp [step?, begins]⟩

end Pool

end JobQueue
