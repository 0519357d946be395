import JobQueue.Proofs.Shift

/-!
# Shifts that are played

A shift moves on by cues: whose it is, what time it is, and what the handler says if the run
waits for one. `step_iff_move?` says that a shift can do nothing else.
-/

namespace JobQueue

open Time (Instant)

namespace Worker.Run

variable {σ η : Type} [RecordStore σ] {r r' : Run η} {now : Instant} {s s' : σ} {act : Act}

def move? (r : Run η) (now : Instant) (verdict : Verdict) (s : σ) : Option (Act × Run η × σ) :=
  match r.stage with
  | none => some (.begun, r.goOn (r.worker.begin now r.copy), s)
  | some (.handling record context _ _) =>
    some (.judged verdict, r.goOn (onVerdict record context verdict), s)
  | some stage =>
    (stage.request? now).map fun q =>
      let next := r.worker.call r.handler? now stage s
      (.asked q (RecordStore.answer now q s).1, r.goOn next.1, next.2)

theorem step_iff_move? :
    r.Step now s act r' s' ↔ ∃ verdict, r.move? now verdict s = some (act, r', s') := by
  constructor
  · intro step
    cases step with
    | begin h => exact ⟨.succeeded, by simp [move?, h]⟩
    | judge verdict h => exact ⟨verdict, by simp [move?, h]⟩
    | @ask stage q h hq =>
      refine ⟨.succeeded, ?_⟩
      cases stage with
      | handling => cases hq
      | _ => simp [move?, h, hq]
  · rintro ⟨verdict, move⟩
    rcases h : r.stage with _ | stage
    · simp only [move?, h, Option.some.injEq, Prod.mk.injEq] at move
      obtain ⟨rfl, rfl, rfl⟩ := move
      exact .begin h
    · cases stage with
      | handling record context job handler =>
        simp only [move?, h, Option.some.injEq, Prod.mk.injEq] at move
        obtain ⟨rfl, rfl, rfl⟩ := move
        exact .judge verdict h
      | _ =>
        simp only [move?, h, Option.map_eq_some_iff, Prod.mk.injEq] at move
        obtain ⟨q, hq, rfl, rfl, rfl⟩ := move
        exact .ask h hq

end Worker.Run

structure Cue where
  run : Nat
  time : Instant
  verdict : Verdict

namespace Shift

variable {σ η : Type} [RecordStore σ] {sh sh' : Shift σ η} {d : Deed} {deeds : List Deed}

def cue? (sh : Shift σ η) (t : Cue) : Option (Deed × Shift σ η) :=
  sh.runs[t.run]?.bind fun r =>
    (r.move? t.time t.verdict sh.store).map fun (act, r', s) =>
      (⟨t.run, t.time, act⟩, ⟨s, sh.runs.set t.run r'⟩)

theorem step_iff_cue? : Step sh d sh' ↔ ∃ t, sh.cue? t = some (d, sh') := by
  constructor
  · intro step
    cases step with
    | @of i _ _ now _ _ h hs =>
      obtain ⟨verdict, move⟩ := Worker.Run.step_iff_move?.mp hs
      exact ⟨⟨i, now, verdict⟩, by simp [cue?, h, move]⟩
  · rintro ⟨t, cue⟩
    simp only [cue?, Option.bind_eq_some_iff, Option.map_eq_some_iff, Prod.mk.injEq] at cue
    obtain ⟨r, h, ⟨act, r', s⟩, move, rfl, rfl⟩ := cue
    exact .of h (Worker.Run.step_iff_move?.mpr ⟨_, move⟩)

theorem step_of_cue? {t : Cue} (cue : sh.cue? t = some (d, sh')) : Step sh d sh' :=
  step_iff_cue?.mpr ⟨t, cue⟩

theorem run_of_cue? {t : Cue} (cue : sh.cue? t = some (d, sh')) : d.run = t.run := by
  simp only [cue?, Option.bind_eq_some_iff, Option.map_eq_some_iff, Prod.mk.injEq] at cue
  obtain ⟨_, _, _, _, rfl, _⟩ := cue
  rfl

theorem trace_iff_play? :
    Trace Step sh deeds sh' ↔ ∃ cues, Trace.play? cue? sh cues = some (deeds, sh') :=
  Trace.iff_play? step_iff_cue?

end Shift

end JobQueue
