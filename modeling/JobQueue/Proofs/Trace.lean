import Mathlib.Data.List.Induction

/-!
# Traces

Runs of a system that goes from state to state by labelled steps. What every step keeps, every
run keeps (`Trace.keeps`); a run can be cut wherever its labels can (`Trace.cut`). Where the steps
can be computed from cues, so can the runs (`Trace.iff_play?`).
-/

namespace JobQueue

inductive Trace {State Label : Type} (step : State → Label → State → Prop) :
    State → List Label → State → Prop
  | nil (s : State) : Trace step s [] s
  | snoc {s t u : State} {labels : List Label} {label : Label} :
      Trace step s labels t → step t label u → Trace step s (labels ++ [label]) u

namespace Trace

variable {State Label : Type} {step : State → Label → State → Prop} {s t u : State}
  {xs ys : List Label} {x : Label}

theorem single (h : step s x t) : Trace step s [x] t := (nil s).snoc h

theorem append (first : Trace step s xs t) (second : Trace step t ys u) :
    Trace step s (xs ++ ys) u := by
  induction second with
  | nil => simpa using first
  | snoc _ last ih => simpa using ih.snoc last

theorem snoc_cases (h : Trace step s (xs ++ [x]) u) :
    ∃ t, Trace step s xs t ∧ step t x u := by
  generalize hl : xs ++ [x] = labels at h
  cases h with
  | nil => simp at hl
  | snoc before last =>
    obtain ⟨rfl, hx⟩ := List.append_inj' hl rfl
    obtain rfl := List.singleton_inj.mp hx
    exact ⟨_, before, last⟩

theorem cut (h : Trace step s (xs ++ ys) u) :
    ∃ t, Trace step s xs t ∧ Trace step t ys u := by
  induction ys using List.reverseRecOn generalizing u with
  | nil => exact ⟨u, by simpa using h, .nil u⟩
  | append_singleton ys y ih =>
    rw [← List.append_assoc] at h
    obtain ⟨v, before, last⟩ := h.snoc_cases
    obtain ⟨t, first, second⟩ := ih before
    exact ⟨t, first, second.snoc last⟩

theorem eq_of_nil (h : Trace step s [] u) : s = u := by
  generalize hl : [] = labels at h
  cases h with
  | nil => rfl
  | snoc => simp at hl

theorem cons_cases (h : Trace step s (x :: xs) u) : ∃ t, step s x t ∧ Trace step t xs u := by
  have whole : Trace step s ([x] ++ xs) u := h
  obtain ⟨t, first, rest⟩ := whole.cut
  have one : Trace step s ([] ++ [x]) t := first
  obtain ⟨v, none, first⟩ := one.snoc_cases
  obtain rfl := none.eq_of_nil
  exact ⟨t, first, rest⟩

/-- Where a label settles what a step leads to, the labels of a run settle what it leads to. -/
theorem unique (first : Trace step s xs t)
    (same : ∀ {s x t u}, step s x t → step s x u → t = u) (second : Trace step s xs u) : t = u := by
  induction first generalizing u with
  | nil => exact second.eq_of_nil
  | snoc _ last ih =>
    obtain ⟨v, before, last'⟩ := second.snoc_cases
    obtain rfl := ih before
    exact same last last'

theorem keeps {P : State → Prop} (h : Trace step s xs u)
    (keep : ∀ {s l t}, P s → step s l t → P t) (start : P s) : P u := by
  induction h with
  | nil => exact start
  | snoc _ last ih => exact keep ih last

theorem image {State' : Type} {step' : State' → Label → State' → Prop} {f : State → State'}
    (sim : ∀ {s x t}, step s x t → step' (f s) x (f t)) (h : Trace step s xs t) :
    Trace step' (f s) xs (f t) := by
  induction h with
  | nil => exact .nil _
  | snoc _ last ih => exact ih.snoc (sim last)

-- ---------------------------------------------------------------------------
-- Runs that are played
-- ---------------------------------------------------------------------------

variable {Cue : Type} {next? : State → Cue → Option (Label × State)} {cues : List Cue}

/-- Goes from state to state by cues, as long as each leads on. -/
def play? (next? : State → Cue → Option (Label × State)) (s : State) :
    List Cue → Option (List Label × State)
  | [] => some ([], s)
  | c :: cues => (next? s c).bind fun (x, t) => (play? next? t cues).map fun (xs, u) => (x :: xs, u)

theorem play?_cons_iff {c : Cue} : play? next? s (c :: cues) = some (xs, u) ↔
    ∃ x t ys, next? s c = some (x, t) ∧ play? next? t cues = some (ys, u) ∧ xs = x :: ys := by
  constructor
  · intro played
    simp only [play?, Option.bind_eq_some_iff, Option.map_eq_some_iff, Prod.mk.injEq] at played
    obtain ⟨⟨x, t⟩, first, ⟨ys, u⟩, rest, rfl, rfl⟩ := played
    exact ⟨x, t, ys, first, rest, rfl⟩
  · rintro ⟨x, t, ys, first, rest, rfl⟩
    simp [play?, first, rest]

theorem play?_snoc {c : Cue} (played : play? next? s cues = some (xs, t))
    (last : next? t c = some (x, u)) : play? next? s (cues ++ [c]) = some (xs ++ [x], u) := by
  induction cues generalizing s xs with
  | nil =>
    obtain ⟨rfl, rfl⟩ := Prod.mk.inj (Option.some.inj played)
    exact play?_cons_iff.mpr ⟨x, u, [], last, rfl, rfl⟩
  | cons c cues ih =>
    obtain ⟨y, v, ys, first, rest, rfl⟩ := play?_cons_iff.mp played
    exact play?_cons_iff.mpr ⟨y, v, _, first, ih rest, rfl⟩

theorem of_play? (sound : ∀ {s c x t}, next? s c = some (x, t) → step s x t)
    (played : play? next? s cues = some (xs, u)) : Trace step s xs u := by
  induction cues generalizing s xs with
  | nil =>
    obtain ⟨rfl, rfl⟩ := Prod.mk.inj (Option.some.inj played)
    exact .nil s
  | cons c cues ih =>
    obtain ⟨x, t, ys, first, rest, rfl⟩ := play?_cons_iff.mp played
    exact (single (sound first)).append (ih rest)

/-- The runs of a system are what can be played, if its steps are what cues lead to. -/
theorem iff_play? (exact_ : ∀ {s x t}, step s x t ↔ ∃ c, next? s c = some (x, t)) :
    Trace step s xs u ↔ ∃ cues, play? next? s cues = some (xs, u) := by
  constructor
  · intro trace
    induction trace with
    | nil => exact ⟨[], rfl⟩
    | snoc _ last ih =>
      obtain ⟨cues, played⟩ := ih
      obtain ⟨c, cue⟩ := exact_.mp last
      exact ⟨cues ++ [c], play?_snoc played cue⟩
  · rintro ⟨cues, played⟩
    exact of_play? (fun cue => exact_.mpr ⟨_, cue⟩) played

theorem exists_of_play? {check : List Label × State → Bool}
    (sound : ∀ {s c x t}, next? s c = some (x, t) → step s x t)
    (checked : (play? next? s cues).any check) : ∃ xs u, Trace step s xs u ∧ check (xs, u) := by
  obtain ⟨⟨xs, u⟩, played, holds⟩ := (Option.any_eq_true _ _).mp checked
  exact ⟨xs, u, of_play? sound played, holds⟩

end Trace

end JobQueue
